import RemoteHost.Proofs.EndpointOwnership
import RemoteHost.Proofs.ProgramSkeletons

/-!
# What starting an operation asks for

Whoever starts an operation first opens one endpoint for every slot, then sends one program with
their tokens in the places of the template, and launches the operation last, with all that was
opened. Nothing is launched once anything has failed, and nothing is waited for after the launch.
-/

namespace RemoteHost

variable {F α β : Type}

/-! ## How far a routine has come -/

/-- A routine that was answered in this way is left with the rest. -/
inductive Routine.Leads : Routine F α → Talk F → Routine F α → Prop
  | here (routine : Routine F α) : Leads routine [] routine
  | ask {request : Request F} {next : request.Reply → Routine F α} {talk : Talk F}
      {rest : Routine F α} (reply : request.Reply) (h : Leads (next reply) talk rest) :
      Leads (.ask request next) (⟨request, reply⟩ :: talk) rest

/-- After a talk the routine still waits for an answer. -/
def Routine.Awaits (routine : Routine F α) (talk : Talk F) : Prop :=
  ∃ request next, routine.Leads talk (.ask request next)

namespace Routine.Leads

variable {routine rest : Routine F α} {talk first second : Talk F}

theorem snoc {request : Request F} {next : request.Reply → Routine F α}
    (h : routine.Leads talk (.ask request next)) (reply : request.Reply) :
    routine.Leads (talk ++ [⟨request, reply⟩]) (next reply) := by
  generalize hrest : Routine.ask request next = rest at h
  induction h with
  | here routine =>
    subst hrest
    exact .ask reply (.here _)
  | ask earlier h ih => exact .ask earlier (ih hrest)

theorem split (h : routine.Leads (first ++ second) rest) :
    ∃ middle, routine.Leads first middle ∧ middle.Leads second rest := by
  induction first generalizing routine with
  | nil => exact ⟨routine, .here routine, h⟩
  | cons exchange first ih =>
    cases h with
    | ask reply h =>
      obtain ⟨middle, hfirst, hsecond⟩ := ih h
      exact ⟨middle, .ask reply hfirst, hsecond⟩

end Routine.Leads

/-! ## Rules about talks -/

/-- Rules in which what a party has done so far is all that it asked for and was answered. -/
def talking (allows : Talk F → Request F → Prop) : Discipline F (Talk F) where
  allows := allows
  expects _ _ _ := True
  after talk request reply := talk ++ [⟨request, reply⟩]

section Talking

variable {allows : Talk F → Request F → Prop} {post : Talk F → α → Prop}
  {routine rest : Routine F α} {before talk : Talk F}

theorem Discipline.Obeys.leads (h : (talking allows).Obeys post before routine)
    (hleads : routine.Leads talk rest) : (talking allows).Obeys post (before ++ talk) rest := by
  induction hleads generalizing before with
  | here routine => rwa [List.append_nil]
  | ask reply hrest ih =>
    have hlater := ih (h.2 reply trivial)
    simp only [talking, List.append_assoc, List.singleton_append] at hlater
    exact hlater

/-- A routine that keeps to rules did so at every request. -/
theorem Discipline.Obeys.allowed (h : (talking allows).Obeys post [] routine) {first later : Talk F}
    {request : Request F} {reply : request.Reply}
    (hleads : routine.Leads (first ++ ⟨request, reply⟩ :: later) rest) : allows first request := by
  obtain ⟨middle, hfirst, hlater⟩ := hleads.split
  have hmiddle := h.leads hfirst
  cases hlater with
  | ask reply hlater => exact hmiddle.1

end Talking

/-! ## What talks are about -/

def Request.opened : (request : Request F) → request.Reply → List Opened
  | .openEndpoint, .ok opened => [opened]
  | _, _ => []

def Request.closed : Request F → List EndpointId
  | .closeEndpoint endpoint => [endpoint]
  | _ => []

def Request.launched : (request : Request F) → request.Reply → List OperationId
  | .launch _ _ _ _, id => [id]
  | _, _ => []

namespace Talk

/-- The endpoints that were opened, in order. -/
def opened (talk : Talk F) : List Opened :=
  talk.flatMap fun ⟨request, reply⟩ => request.opened reply

def closed (talk : Talk F) : List EndpointId := talk.flatMap fun ⟨request, _⟩ => request.closed

/-- The operations that were launched. -/
def launched (talk : Talk F) : List OperationId :=
  talk.flatMap fun ⟨request, reply⟩ => request.launched reply

variable (first second : Talk F)

@[simp] theorem launched_append : (first ++ second).launched = first.launched ++ second.launched :=
  List.flatMap_append

@[simp] theorem programs_append : (first ++ second).programs = first.programs ++ second.programs :=
  List.flatMap_append

section Snoc

variable (talk : Talk F) (request : Request F) (reply : request.Reply)

theorem opened_snoc :
    opened (talk ++ [⟨request, reply⟩]) = talk.opened ++ request.opened reply := by
  simp [opened]

theorem closed_snoc : closed (talk ++ [⟨request, reply⟩]) = talk.closed ++ request.closed := by
  simp [closed]

theorem launched_snoc :
    launched (talk ++ [⟨request, reply⟩]) = talk.launched ++ request.launched reply := by
  simp [launched]

theorem programs_snoc :
    programs (talk ++ [⟨request, reply⟩]) = talk.programs ++ request.programs := by
  simp [programs]

end Snoc

/-- No endpoint was opened or closed in between, and nothing was launched. -/
structure SameEndpoints (talk talk' : Talk F) : Prop where
  opened : talk'.opened = talk.opened
  closed : talk'.closed = talk.closed
  launched : talk'.launched = talk.launched

end Talk

/-! ## Templates -/

/-- A source is a template with quoted tokens where its placeholders are: the pieces around them are
the same, and so is their order. -/
def Program.Fills (template : String) (tokens : List String) (source : String) : Prop :=
  ∃ pieces : List (List Char), pieces = Text.pieces placeholder.toList template.toList ∧
    pieces.length = tokens.length + 1 ∧
    template.toList = Text.fillIn pieces (List.replicate tokens.length placeholder.toList) ∧
    source.toList = Text.fillIn pieces (tokens.map fun token => (Literal.quoted token).toList)

theorem Program.fills_of_substituteTokens {template source : String} {tokens : List String}
    (h : substituteTokens template tokens = .ok source) : Fills template tokens source := by
  unfold substituteTokens at h
  split at h
  · rename_i hcount
    cases h
    refine ⟨_, rfl, ?_, ?_, ?_⟩
    · rw [Text.length_pieces]
      exact congrArg (· + 1) hcount
    · rw [← hcount]
      exact (Text.fillIn_pieces ..).symm
    · simp [Literal.quoted]
  · cases h

/-! ## Starting an operation -/

/-- One after another the endpoints are opened, the program is sent and the operation launched. What
was closed is not used any more, and after the launch nothing is asked for. -/
def starting (s : Settings) (template : String) (shape : ResultShape) (slots : List (Slot F))
    (talk : Talk F) (request : Request F) : Prop :=
  talk.launched = [] ∧ match request with
    | .openEndpoint => talk.opened.length < slots.length ∧ talk.programs = [] ∧ talk.closed = []
    | .submit program => talk.opened.length = slots.length ∧ talk.closed = [] ∧
      ∃ source, Program.substituteTokens template (talk.opened.map (·.token)) = .ok source ∧
        program = Program.enveloped s source shape
    | .launch _ endpoints slots' _ => endpoints = talk.opened ∧ slots' = slots ∧
      talk.opened.length = slots.length ∧ talk.closed = []
    | _ => True

/-- All endpoints are open, and nothing else has happened. -/
structure Talk.Opens (count : Nat) (talk : Talk F) : Prop where
  length : talk.opened.length = count
  closed : talk.closed = []
  launched : talk.launched = []

/-- So much has been opened, and nothing else has happened yet. -/
structure Talk.Opening (talk : Talk F) (opened : List Opened) : Prop where
  opened : talk.opened = opened
  programs : talk.programs = []
  closed : talk.closed = []
  launched : talk.launched = []

theorem Talk.Opening.more {talk : Talk F} {opened : List Opened} (h : talk.Opening opened)
    (new : Opened) : Talk.Opening (talk ++ [⟨.openEndpoint, .ok new⟩]) (opened ++ [new]) where
  opened := (Talk.opened_snoc ..).trans (congrArg (· ++ [new]) h.opened)
  programs := (Talk.programs_snoc ..).trans ((List.append_nil _).trans h.programs)
  closed := (Talk.closed_snoc ..).trans ((List.append_nil _).trans h.closed)
  launched := (Talk.launched_snoc ..).trans ((List.append_nil _).trans h.launched)

/-- What a start has launched when it is over. -/
def Starts (slots : List (Slot F)) (talk : Talk F) : Except Fault Invoked → Prop
  | .ok invoked => talk.launched = [invoked.operation] ∧
    invoked.tokens = talk.opened.map (·.token) ∧ talk.opened.length = slots.length
  | .error _ => talk.launched = []

theorem Talk.SameEndpoints.opens {talk talk' : Talk F} {count : Nat}
    (h : talk.SameEndpoints talk') (hopens : talk.Opens count) : talk'.Opens count where
  length := by rw [h.opened, hopens.length]
  closed := by rw [h.closed, hopens.closed]
  launched := by rw [h.launched, hopens.launched]

/-- A request about something else. -/
theorem Talk.SameEndpoints.plain {talk talk' : Talk F} (h : talk.SameEndpoints talk')
    (request : Request F) (reply : request.Reply) (hplain : request.isPlain = true) :
    Talk.SameEndpoints talk (talk' ++ [⟨request, reply⟩]) := by
  have hnothing : request.opened reply = [] ∧ request.closed = [] ∧
      request.launched reply = [] := by
    cases request with
    | openEndpoint | closeEndpoint | launch => cases hplain
    | _ => exact ⟨rfl, rfl, rfl⟩
  obtain ⟨hopened, hclosed, hlaunched⟩ := hnothing
  constructor
  · rw [Talk.opened_snoc, hopened, List.append_nil, h.opened]
  · rw [Talk.closed_snoc, hclosed, List.append_nil, h.closed]
  · rw [Talk.launched_snoc, hlaunched, List.append_nil, h.launched]

section Starting

variable {s : Settings} {template : String} {shape : ResultShape} {slots : List (Slot F)}
  {talk talk' : Talk F}

theorem starting_recordAll (hlaunched : talk.launched = []) (keys : List String)
    (h : talk.SameEndpoints talk') : (talking (starting s template shape slots)).Obeys
      (fun t _ => talk.SameEndpoints t) talk' (recordAll keys : Job F Unit).run := by
  induction keys generalizing talk' with
  | nil => exact h
  | cons key keys ih =>
    refine Discipline.obeys_ask.mpr ⟨⟨h.launched.trans hlaunched, trivial⟩, fun reply _ => ?_⟩
    exact ih (h.plain _ reply rfl)

theorem starting_roundTrip {source program : String} (hopens : talk.Opens slots.length)
    (hsource : Program.substituteTokens template (talk.opened.map (·.token)) = .ok source)
    (hprogram : program = Program.enveloped s source shape) (lineage : LineageId) :
    (talking (starting s template shape slots)).Obeys (fun t _ => talk.SameEndpoints t) talk
      (roundTrip s program lineage : Job F Json).run := by
  have hstart : talk.SameEndpoints talk := ⟨rfl, rfl, rfl⟩
  refine Discipline.Obeys.andThen (Q := fun t _ => talk.SameEndpoints t) ?_ ?_ (fun _ _ h => h)
  · refine Discipline.obeys_ask.mpr ⟨⟨hopens.launched, trivial⟩, fun reply _ => ?_⟩
    cases reply <;> exact hstart.plain _ _ rfl
  · intro t _ hsame
    have hsubmit : starting s template shape slots t (.submit program) := by
      refine ⟨hsame.launched.trans hopens.launched, (hsame.opens hopens).length,
        (hsame.opens hopens).closed, source, ?_, hprogram⟩
      rw [hsame.opened]
      exact hsource
    refine Discipline.obeys_ask.mpr ⟨hsubmit, fun reply _ => ?_⟩
    have hsent := hsame.plain (.submit program) reply rfl
    refine Discipline.obeys_ask.mpr
      ⟨⟨hsent.launched.trans hopens.launched, trivial⟩, fun answer _ => ?_⟩
    have hanswered := hsent.plain .collect answer rfl
    refine Discipline.obeys_ask.mpr
      ⟨⟨hanswered.launched.trans hopens.launched, trivial⟩, fun _ _ => ?_⟩
    cases answer <;> exact hanswered.plain _ _ rfl

theorem starting_evaluate {source : String} (hopens : talk.Opens slots.length)
    (hsource : Program.substituteTokens template (talk.opened.map (·.token)) = .ok source)
    (lineage : LineageId) :
    (talking (starting s template shape slots)).Obeys (fun t _ => talk.SameEndpoints t) talk
      (evaluate s source shape lineage : Job F Outcome).run := by
  refine (starting_roundTrip hopens hsource rfl lineage).andThen ?_ (fun _ _ h => h)
  intro t reply hsame
  cases outcomeOfShape shape reply with
  | error fault => exact hsame
  | ok outcome =>
    exact (starting_recordAll hopens.launched _ hsame).andThen (fun _ _ h => h) (fun _ _ h => h)

theorem starting_closeAll (hlaunched : talk.launched = []) (opened : List Opened) :
    (talking (starting s template shape slots)).Obeys (fun t _ => t.launched = []) talk
      (closeAll opened : Job F Unit).run := by
  induction opened generalizing talk with
  | nil => exact hlaunched
  | cons first rest ih =>
    refine Discipline.obeys_ask.mpr ⟨⟨hlaunched, trivial⟩, fun reply _ => ?_⟩
    exact ih ((Talk.launched_snoc ..).trans ((List.append_nil _).trans hlaunched))

/-- To give up is to close what was opened. -/
theorem starting_giveUp (hlaunched : talk.launched = []) (opened : List Opened) (fault : Fault)
    {post : Talk F → Except Fault α → Prop}
    (hpost : ∀ t fault, t.launched = [] → post t (.error fault)) :
    (talking (starting s template shape slots)).Obeys post talk
      (closeAll opened >>= fun _ => throw fault : Job F α).run :=
  (starting_closeAll hlaunched opened).andThen (fun t _ h => hpost t fault h) hpost

theorem starting_openAll (count : Nat) {opened : List Opened} (h : talk.Opening opened)
    (hcount : opened.length + count = slots.length) :
    (talking (starting s template shape slots)).Obeys
      (fun t result => t.launched = [] ∧ ∀ all, result = .ok all →
        t.opened = all ∧ t.Opens slots.length) talk
      (openAll opened count : Job F (List Opened)).run := by
  induction count generalizing talk opened with
  | zero =>
    refine ⟨h.launched, ?_⟩
    rintro _ ⟨⟩
    exact ⟨h.opened, h.opened ▸ hcount, h.closed, h.launched⟩
  | succ count ih =>
    have hroom : talk.opened.length < slots.length := by
      rw [h.opened]
      omega
    refine Discipline.obeys_ask.mpr ⟨⟨h.launched, hroom, h.programs, h.closed⟩, fun reply _ => ?_⟩
    cases reply with
    | ok new =>
      refine ih (h.more new) ?_
      rw [List.length_append, List.length_singleton]
      omega
    | error fault =>
      have hfailed := (Talk.launched_snoc talk .openEndpoint (.error fault)).trans
        ((List.append_nil _).trans h.launched)
      exact starting_giveUp hfailed opened (.transport fault) fun t _ ht => ⟨ht, by simp⟩

theorem Talk.Opens.starts (h : talk.Opens slots.length) (label : String)
    (endpoints : List Opened) (lineage : LineageId) (id : OperationId) (outcome : Outcome) :
    Starts slots (talk ++ [⟨.launch label endpoints slots lineage, id⟩])
      (.ok ⟨id, outcome, talk.opened.map (·.token)⟩) := by
  have hsame : Talk.opened (talk ++ [⟨.launch label endpoints slots lineage, id⟩]) = talk.opened :=
    (Talk.opened_snoc ..).trans (List.append_nil _)
  refine ⟨(Talk.launched_snoc ..).trans (congrArg (· ++ [id]) h.launched), ?_, ?_⟩
  · exact congrArg (List.map _) hsame.symm
  · exact (congrArg List.length hsame).trans h.length

theorem starting_invoke (s : Settings) (label template : String) (shape : ResultShape)
    (slots : List (Slot F)) (lineage : LineageId) :
    (talking (starting s template shape slots)).Obeys (Starts slots) []
      (invoke s label template shape slots lineage).run := by
  unfold invoke
  by_cases hcount : Program.placeholders template = slots.length
  · simp only [ne_eq, hcount, not_true_eq_false, if_false]
    refine (starting_openAll slots.length ⟨rfl, rfl, rfl, rfl⟩ (Nat.zero_add _)).andThen ?_
      (fun t fault h => h.1)
    rintro talk opened ⟨-, hopened⟩
    obtain ⟨rfl, hopens⟩ := hopened opened rfl
    obtain ⟨source, hsource⟩ := substituteTokens_eq_ok template (talk.opened.map (·.token))
      (by simpa [hopens.length] using hcount)
    rw [hsource]
    refine Discipline.obeys_pure.mpr ?_
    refine Discipline.Obeys.andThen (Q := fun t result => match result with
      | .ok _ => talk.SameEndpoints t
      | .error _ => t.launched = []) ?_ ?_ (fun _ _ h => h)
    · refine (starting_evaluate hopens hsource lineage).orElse (fun _ _ h => h) ?_
      intro t fault hsame
      exact starting_giveUp (hsame.launched.trans hopens.launched) _ fault fun _ _ h => h
    · intro t outcome hsame
      have hall := hsame.opens hopens
      refine Discipline.obeys_ask.mpr ⟨⟨hall.launched, ?_⟩, fun id _ => ?_⟩
      · exact ⟨hsame.opened.symm, rfl, hall.length, hall.closed⟩
      · rw [← hsame.opened]
        exact hall.starts label _ lineage id outcome
  · simp only [ne_eq, hcount, not_false_eq_true, if_true]
    rfl

end Starting

/-! ## Consequences -/

section Consequences

variable {s : Settings} {label template : String} {shape : ResultShape} {slots : List (Slot F)}
  {lineage : LineageId} {talk first later : Talk F} {rest : Routine F (Except Fault Invoked)}

theorem invoke_mismatched (hcount : Program.placeholders template ≠ slots.length)
    (h : (invoke s label template shape slots lineage).run.Leads talk rest) :
    talk = [] ∧ rest = .done (.error
      (.usage (.placeholderMismatch slots.length (Program.placeholders template)))) := by
  unfold invoke at h
  simp only [ne_eq, hcount, not_false_eq_true, if_true] at h
  cases h
  exact ⟨rfl, rfl⟩

theorem launched_of_awaits (h : (invoke s label template shape slots lineage).run.Awaits talk) :
    talk.launched = [] := by
  obtain ⟨request, next, hleads⟩ := h
  exact ((starting_invoke s label template shape slots lineage).leads hleads).1.1

theorem starts_of_done {result : Except Fault Invoked}
    (h : (invoke s label template shape slots lineage).run.Leads talk (.done result)) :
    Starts slots talk result :=
  (starting_invoke s label template shape slots lineage).leads h

theorem mem_opened {opened : Opened} (h : opened ∈ talk.opened) :
    ∃ before after, talk = before ++ ⟨.openEndpoint, .ok opened⟩ :: after := by
  obtain ⟨⟨request, reply⟩, hmem, hopened⟩ := List.mem_flatMap.mp h
  cases request with
  | openEndpoint =>
    cases reply with
    | ok new =>
      obtain rfl := List.mem_singleton.mp hopened
      exact List.append_of_mem hmem
    | error fault => cases hopened
  | _ => cases hopened

theorem mem_launched {id : OperationId} (h : id ∈ talk.launched) :
    ∃ before label endpoints slots parent after,
      talk = before ++ ⟨.launch label endpoints slots parent, id⟩ :: after := by
  obtain ⟨⟨request, reply⟩, hmem, hlaunched⟩ := List.mem_flatMap.mp h
  cases request with
  | launch label endpoints slots parent =>
    obtain rfl := List.mem_singleton.mp hlaunched
    obtain ⟨before, after, hsplit⟩ := List.append_of_mem hmem
    exact ⟨before, label, endpoints, slots, parent, after, hsplit⟩
  | _ => cases hlaunched

/-- When the program is sent, there is an endpoint for every slot, and none is opened later. -/
theorem invoke_submits {program : String}
    (h : (invoke s label template shape slots lineage).run.Leads
      (first ++ ⟨.submit program, ()⟩ :: later) rest) :
    first.opened.length = slots.length ∧ later.opened = [] ∧
      ∃ source, Program.Fills template (first.opened.map (·.token)) source ∧
        program = Program.enveloped s source shape := by
  have hrules := starting_invoke s label template shape slots lineage
  obtain ⟨-, hlength, -, source, hsource, hprogram⟩ := hrules.allowed h
  refine ⟨hlength, ?_, source, Program.fills_of_substituteTokens hsource, hprogram⟩
  refine List.eq_nil_iff_forall_not_mem.mpr fun opened hopened => ?_
  obtain ⟨before, after, rfl⟩ := mem_opened hopened
  rw [← List.cons_append, ← List.append_assoc] at h
  obtain ⟨-, -, hnone, -⟩ := hrules.allowed h
  rw [Talk.programs_append] at hnone
  cases (List.append_eq_nil_iff.mp hnone).2

/-- The launch comes last, with all endpoints and all slots. -/
theorem invoke_launches {name : String} {endpoints : List Opened} {slots' : List (Slot F)}
    {parent : LineageId} {id : OperationId}
    (h : (invoke s label template shape slots lineage).run.Leads
      (first ++ ⟨.launch name endpoints slots' parent, id⟩ :: later) rest) :
    later = [] ∧ endpoints = first.opened ∧ slots' = slots ∧ endpoints.length = slots.length := by
  have hrules := starting_invoke s label template shape slots lineage
  obtain ⟨-, rfl, rfl, hlength, -⟩ := hrules.allowed h
  refine ⟨?_, rfl, rfl, hlength⟩
  cases later with
  | nil => rfl
  | cons exchange later =>
    rw [List.append_cons] at h
    obtain ⟨hnone, -⟩ := hrules.allowed h
    rw [Talk.launched_append] at hnone
    cases (List.append_eq_nil_iff.mp hnone).2

end Consequences

end RemoteHost
