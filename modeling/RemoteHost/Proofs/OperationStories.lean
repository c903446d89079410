import RemoteHost.Proofs.SessionInterleaving

/-!
# What a history tells

A history is read in two ways: endpoint by endpoint, for what arrived, what was taken and how often
it was closed, and operation by operation, for what the operation did. The stage of an operation
says which stories it can have.
-/

namespace RemoteHost

variable {F : Type}

/-! ## Endpoints -/

/-- The payloads received at an endpoint. -/
def arrivals (history : List (Occurrence F)) (e : EndpointId) : List Json :=
  history.filterMap fun
    | .arrived endpoint payload => if endpoint = e then some payload else none
    | _ => none

/-- The payloads taken out of an endpoint. -/
def takings (history : List (Occurrence F)) (e : EndpointId) : List Json :=
  history.filterMap fun
    | .taken endpoint payload => if endpoint = e then some payload else none
    | _ => none

def Occurrence.closes (e : EndpointId) : Occurrence F → Bool
  | .closed endpoint | .asked _ (.closeEndpoint endpoint) _ => endpoint == e
  | _ => false

/-- How often an endpoint was closed, by its operation or before it had one. -/
def closings (history : List (Occurrence F)) (e : EndpointId) : Nat :=
  history.countP (·.closes e)

def story (history : List (Occurrence F)) (id : OperationId) : List Deed :=
  history.filterMap fun
    | .operation operation deed => if operation = id then some deed else none
    | _ => none

@[simp] theorem arrivals_append (h h' : List (Occurrence F)) (e : EndpointId) :
    arrivals (h ++ h') e = arrivals h e ++ arrivals h' e := List.filterMap_append

@[simp] theorem takings_append (h h' : List (Occurrence F)) (e : EndpointId) :
    takings (h ++ h') e = takings h e ++ takings h' e := List.filterMap_append

@[simp] theorem closings_append (h h' : List (Occurrence F)) (e : EndpointId) :
    closings (h ++ h') e = closings h e + closings h' e := List.countP_append

@[simp] theorem story_append (h h' : List (Occurrence F)) (id : OperationId) :
    story (h ++ h') id = story h id ++ story h' id := List.filterMap_append

/-- Whether an occurrence is something that a party does. -/
def Occurrence.isOfParty : Occurrence F → Bool
  | .began _ _ | .asked _ _ _ | .gained _ _ _ | .abandoned _ => true
  | _ => false

theorem Occurrence.isOfParty_of_isCalm {o : Occurrence F} (h : o.isCalm = true) :
    o.isOfParty = true := by
  cases o with
  | began | asked | gained | abandoned => rfl
  | _ => cases h

theorem Occurrence.closes_of_isCalm {o : Occurrence F} (h : o.isCalm = true) (e : EndpointId) :
    o.closes e = false := by
  cases o with
  | closed => cases h
  | asked p request reply =>
    cases request with
    | closeEndpoint => cases h
    | _ => rfl
  | _ => rfl

section OfParties

variable {occurrences : List (Occurrence F)} (h : ∀ o ∈ occurrences, o.isOfParty = true)

include h

theorem arrivals_ofParties (e : EndpointId) : arrivals occurrences e = [] := by
  refine List.filterMap_eq_nil_iff.mpr fun o ho => ?_
  have hparty := h o ho
  cases o with
  | arrived => cases hparty
  | _ => rfl

theorem takings_ofParties (e : EndpointId) : takings occurrences e = [] := by
  refine List.filterMap_eq_nil_iff.mpr fun o ho => ?_
  have hparty := h o ho
  cases o with
  | taken => cases hparty
  | _ => rfl

theorem story_ofParties (id : OperationId) : story occurrences id = [] := by
  refine List.filterMap_eq_nil_iff.mpr fun o ho => ?_
  have hparty := h o ho
  cases o with
  | operation => cases hparty
  | _ => rfl

end OfParties

theorem closings_eq_zero {occurrences : List (Occurrence F)} {e : EndpointId}
    (h : ∀ o ∈ occurrences, o.closes e = false) : closings occurrences e = 0 :=
  List.countP_eq_zero.mpr fun o ho => by simp [h o ho]

@[simp] theorem arrivals_closed (es : List EndpointId) (e : EndpointId) :
    arrivals (es.map (.closed : EndpointId → Occurrence F)) e = [] := by
  simp [arrivals]

@[simp] theorem takings_closed (es : List EndpointId) (e : EndpointId) :
    takings (es.map (.closed : EndpointId → Occurrence F)) e = [] := by
  simp [takings]

@[simp] theorem story_closed (es : List EndpointId) (id : OperationId) :
    story (es.map (.closed : EndpointId → Occurrence F)) id = [] := by
  simp [story]

@[simp] theorem closings_closed (es : List EndpointId) (e : EndpointId) :
    closings (es.map (.closed : EndpointId → Occurrence F)) e = es.count e := by
  simp only [closings, List.countP_map, List.count]
  rfl

section Deeds

variable (deeds : List Deed) (id : OperationId) (e : EndpointId)

@[simp] theorem arrivals_deeds :
    arrivals (deeds.map (.operation id : Deed → Occurrence F)) e = [] := by
  simp [arrivals]

@[simp] theorem takings_deeds :
    takings (deeds.map (.operation id : Deed → Occurrence F)) e = [] := by
  simp [takings]

@[simp] theorem closings_deeds :
    closings (deeds.map (.operation id : Deed → Occurrence F)) e = 0 := by
  simp [closings, Occurrence.closes]

@[simp] theorem story_deeds :
    story (deeds.map (.operation id : Deed → Occurrence F)) id = deeds := by
  simp [story, Function.comp_def]

theorem story_deeds_of_ne {i : OperationId} (h : i ≠ id) :
    story (deeds.map (.operation id : Deed → Occurrence F)) i = [] := by
  simp [story, Ne.symm h]

end Deeds

/-! ## Operations -/

namespace CallbackOperation

def slots (op : CallbackOperation F) : List (Slot F) := op.listeners.map (·.slot)

@[simp] theorem slots_deafen (op : CallbackOperation F) (slot : Nat) :
    (op.deafen slot).slots = op.slots :=
  map_deafen _ (fun _ => rfl) op slot

end CallbackOperation

/-- What the function of one slot was called with. -/
def callsAt (slot : Nat) (deeds : List Deed) : List Outcome :=
  deeds.filterMap fun
    | .called i outcome => if i = slot then some outcome else none
    | _ => none

def Deed.isCall : Deed → Bool
  | .called _ _ => true
  | _ => false

def Deed.isDeath : Deed → Bool
  | .returned .died => true
  | _ => false

def callCount (deeds : List Deed) : Nat := deeds.countP Deed.isCall

@[simp] theorem callsAt_append (slot : Nat) (ds ds' : List Deed) :
    callsAt slot (ds ++ ds') = callsAt slot ds ++ callsAt slot ds' := List.filterMap_append

@[simp] theorem callCount_append (ds ds' : List Deed) :
    callCount (ds ++ ds') = callCount ds + callCount ds' := List.countP_append

theorem callsAt_of_returns {deeds : List Deed}
    (h : ∀ deed ∈ deeds, ∃ verdict, deed = .returned verdict) (slot : Nat) :
    callsAt slot deeds = [] := by
  refine List.filterMap_eq_nil_iff.mpr fun deed hdeed => ?_
  obtain ⟨verdict, rfl⟩ := h deed hdeed
  rfl

/-- Whether a slot exists and is of a cardinality. -/
def hasCardinality (slots : List (Slot F)) (slot : Nat) (cardinality : Cardinality) : Prop :=
  slots[slot]?.map (·.cardinality) = some cardinality

/-- So many calls of repeatable slots, each with its return. -/
inductive Rounds (slots : List (Slot F)) : Nat → List Deed → Prop where
  | none : Rounds slots 0 []
  | more {n : Nat} {deeds : List Deed} {slot : Nat} {outcome : Outcome}
      {result : Except Fault Reaction} (h : Rounds slots n deeds)
      (hslot : hasCardinality slots slot .repeatable) :
      Rounds slots (n + 1) (deeds ++ [.called slot outcome, .returned (.returned result)])

/-- How the story of an operation goes on after some rounds, at each of its stages. -/
inductive Finale (op : CallbackOperation F) : Stage F → Nat → List Deed → Prop where
  | listening : Finale op .listening op.invocations []
  | calling {call : Calling F} {slot : Nat} {outcome : Outcome}
      (hslot : hasCardinality op.slots slot call.cardinality) :
      Finale op (.calling call) op.invocations [.called slot outcome]
  | fired {n slot : Nat} {outcome : Outcome} {result : Except Fault Reaction}
      (hcount : op.invocations = n + 1) (hslot : hasCardinality op.slots slot .oneShot) :
      Finale op (.ended .oneShotFired) n [.called slot outcome, .returned (.returned result),
        .ended (op.report .oneShotFired)]
  | reclaimed : Finale op (.ended .reclaimed) op.invocations [.ended (op.report .reclaimed)]
  | exhausted : Finale op (.ended .endpointsClosed) op.invocations
      [.ended (op.report .endpointsClosed)]
  | died {slot : Nat} {outcome : Outcome} {cardinality : Cardinality}
      (hslot : hasCardinality op.slots slot cardinality) :
      Finale op (.ended .aborted) op.invocations [.called slot outcome, .returned .died,
        .ended (op.report .aborted)]

/-- Whether an operation at its stage can have done this. -/
def Tells (op : CallbackOperation F) (deeds : List Deed) : Prop :=
  ∃ n rounds finale, Rounds op.slots n rounds ∧ Finale op op.stage n finale ∧
    deeds = rounds ++ finale

/-- Only the slots of an operation, its label and its count matter. -/
theorem Finale.congr {op op' : CallbackOperation F} (hslots : op'.slots = op.slots)
    (hlabel : op'.label = op.label) (hcount : op'.invocations = op.invocations) {stage : Stage F}
    {n : Nat} {finale : List Deed} (h : Finale op stage n finale) :
    Finale op' stage n finale := by
  have hreport : ∀ ending, op'.report ending = op.report ending := fun ending => by
    rw [CallbackOperation.report, CallbackOperation.report, hlabel, hcount]
  cases h with
  | listening => exact hcount ▸ .listening
  | calling hslot => exact hcount ▸ .calling (hslots ▸ hslot)
  | fired hn hslot => exact hreport _ ▸ .fired (hcount.trans hn) (hslots ▸ hslot)
  | reclaimed => exact hcount ▸ hreport _ ▸ .reclaimed
  | exhausted => exact hcount ▸ hreport _ ▸ .exhausted
  | died hslot => exact hcount ▸ hreport _ ▸ .died (hslots ▸ hslot)

theorem Tells.congr {op op' : CallbackOperation F} {deeds : List Deed} (h : Tells op deeds)
    (hslots : op'.slots = op.slots) (hlabel : op'.label = op.label)
    (hcount : op'.invocations = op.invocations) (hstage : op'.stage = op.stage) :
    Tells op' deeds := by
  obtain ⟨n, rounds, finale, hrounds, hfinale, rfl⟩ := h
  refine ⟨n, rounds, finale, hslots ▸ hrounds, ?_, rfl⟩
  rw [hstage]
  exact hfinale.congr hslots hlabel hcount

/-! ## How stories go on -/

section Continuations

variable {op : CallbackOperation F} {deeds : List Deed} {call : Calling F}

theorem Tells.rounds (h : Tells op deeds) (hstage : op.stage = .listening) :
    Rounds op.slots op.invocations deeds := by
  obtain ⟨n, rounds, finale, hrounds, hfinale, rfl⟩ := h
  rw [hstage] at hfinale
  cases hfinale
  rwa [List.append_nil]

theorem Tells.calling (h : Tells op deeds) (hstage : op.stage = .calling call) :
    ∃ rounds slot outcome, Rounds op.slots op.invocations rounds ∧
      hasCardinality op.slots slot call.cardinality ∧ deeds = rounds ++ [.called slot outcome] := by
  obtain ⟨n, rounds, finale, hrounds, hfinale, rfl⟩ := h
  rw [hstage] at hfinale
  cases hfinale with
  | calling hslot => exact ⟨rounds, _, _, hrounds, hslot, rfl⟩

theorem Tells.called (h : Tells op deeds) (hstage : op.stage = .listening) {slot : Nat}
    (outcome : Outcome) (hslot : hasCardinality op.slots slot call.cardinality) :
    Tells { op with stage := .calling call } (deeds ++ [.called slot outcome]) :=
  ⟨_, _, _, h.rounds hstage, .calling hslot, rfl⟩

theorem Tells.resumed (h : Tells op deeds) (hstage : op.stage = .calling call)
    (hcall : call.cardinality = .repeatable) (result : Except Fault Reaction) :
    Tells op.resumed (deeds ++ [.returned (.returned result)]) := by
  obtain ⟨rounds, slot, outcome, hrounds, hslot, rfl⟩ := h.calling hstage
  have hround : Rounds op.slots (op.invocations + 1)
      (rounds ++ [.called slot outcome, .returned (.returned result)]) :=
    .more hrounds (hcall ▸ hslot)
  exact ⟨_, _, [], hround, .listening, by simp⟩

theorem Tells.fired (h : Tells op deeds) (hstage : op.stage = .calling call)
    (hcall : call.cardinality = .oneShot) (result : Except Fault Reaction) :
    Tells (op.resumed.finished .oneShotFired) (deeds ++ [.returned (.returned result),
      .ended (op.resumed.report .oneShotFired)]) := by
  obtain ⟨rounds, slot, outcome, hrounds, hslot, rfl⟩ := h.calling hstage
  exact ⟨_, _, [.called slot outcome, .returned (.returned result),
    .ended (op.resumed.report .oneShotFired)], hrounds, .fired rfl (hcall ▸ hslot), by simp⟩

theorem Tells.died (h : Tells op deeds) (hstage : op.stage = .calling call) :
    Tells (op.finished .aborted) (deeds ++ [.returned .died, .ended (op.report .aborted)]) := by
  obtain ⟨rounds, slot, outcome, hrounds, hslot, rfl⟩ := h.calling hstage
  exact ⟨_, _, [.called slot outcome, .returned .died, .ended (op.report .aborted)], hrounds,
    .died hslot, by simp⟩

theorem Tells.reclaimed (h : Tells op deeds) (hstage : op.stage = .listening) :
    Tells (op.finished .reclaimed) (deeds ++ [.ended (op.report .reclaimed)]) :=
  ⟨_, _, _, h.rounds hstage, .reclaimed, rfl⟩

theorem Tells.exhausted (h : Tells op deeds) (hstage : op.stage = .listening) :
    Tells (op.finished .endpointsClosed) (deeds ++ [.ended (op.report .endpointsClosed)]) :=
  ⟨_, _, _, h.rounds hstage, .exhausted, rfl⟩

end Continuations

/-! ## What stories have in common -/

/-- A deed of two stories in a row is a deed of the first or of the second. -/
theorem split_cases {rounds finale before after : List Deed} {deed : Deed}
    (h : rounds ++ finale = before ++ deed :: after) :
    (∃ rest, rounds = before ++ deed :: rest ∧ after = rest ++ finale) ∨
      ∃ middle, before = rounds ++ middle ∧ finale = middle ++ deed :: after := by
  rcases List.append_eq_append_iff.mp h with ⟨middle, hbefore, hfinale⟩ | ⟨rest, hrounds, hrest⟩
  · exact .inr ⟨middle, hbefore, hfinale⟩
  · cases rest with
    | nil =>
      rw [List.append_nil] at hrounds
      exact .inr ⟨[], by rw [hrounds, List.append_nil], hrest.symm⟩
    | cons first rest =>
      obtain ⟨rfl, hafter⟩ := List.cons.inj hrest
      exact .inl ⟨rest, hrounds, hafter⟩

/-- Where only the first deed can be a call, a call is the first deed. -/
theorem called_first {first : Deed} {others before after : List Deed} {slot : Nat}
    {outcome : Outcome} (hothers : ∀ deed ∈ others, deed.isCall = false)
    (h : first :: others = before ++ .called slot outcome :: after) :
    first = .called slot outcome ∧ after = others := by
  cases before with
  | nil =>
    obtain ⟨rfl, rfl⟩ := List.cons.inj h
    exact ⟨rfl, rfl⟩
  | cons a before =>
    obtain ⟨-, rfl⟩ := List.cons.inj h
    have hcall := hothers (.called slot outcome) (by simp)
    cases hcall

/-- Where only the last deed can be an end, an end is the last deed. -/
theorem ended_last (others : List Deed) {before after : List Deed} {last : Deed}
    {report : OperationReport} (hothers : ∀ deed ∈ others, deed ≠ .ended report)
    (h : others ++ [last] = before ++ .ended report :: after) :
    last = .ended report ∧ after = [] := by
  rcases split_cases h with ⟨rest, rfl, -⟩ | ⟨middle, -, hlast⟩
  · exact absurd rfl (hothers (.ended report) (by simp))
  · cases middle with
    | nil =>
      obtain ⟨rfl, rfl⟩ := List.cons.inj hlast
      exact ⟨rfl, rfl⟩
    | cons a middle => simp at hlast

theorem Rounds.after_call {slots : List (Slot F)} {n slot : Nat} {rounds before after : List Deed}
    {outcome : Outcome} (h : Rounds slots n rounds)
    (hsplit : rounds = before ++ .called slot outcome :: after) :
    hasCardinality slots slot .repeatable ∧
      ∃ result rest, after = .returned (.returned result) :: rest := by
  induction h generalizing after with
  | none => simp at hsplit
  | more h hslot ih =>
    rcases split_cases hsplit with ⟨rest, hrounds, rfl⟩ | ⟨middle, -, hpair⟩
    · obtain ⟨hrepeatable, result, rest', rfl⟩ := ih hrounds
      exact ⟨hrepeatable, result, _, rfl⟩
    · obtain ⟨hcall, rfl⟩ := called_first (by simp [Deed.isCall]) hpair
      cases hcall
      exact ⟨hslot, _, _, rfl⟩

theorem Rounds.not_ended {slots : List (Slot F)} {n : Nat} {rounds : List Deed}
    (h : Rounds slots n rounds) (report : OperationReport) : .ended report ∉ rounds := by
  induction h with
  | none => simp
  | more h hslot ih => simp [ih]

theorem Rounds.callCount {slots : List (Slot F)} {n : Nat} {rounds : List Deed}
    (h : Rounds slots n rounds) : callCount rounds = n := by
  induction h with
  | none => rfl
  | more h hslot ih =>
    rw [callCount_append, ih]
    rfl

/-- What follows a call: nothing yet, its return, or the end that comes of it. -/
theorem Tells.after_call {op : CallbackOperation F} {deeds before after : List Deed} {slot : Nat}
    {outcome : Outcome} (h : Tells op deeds)
    (hsplit : deeds = before ++ .called slot outcome :: after) :
    after = [] ∨
      (hasCardinality op.slots slot .repeatable ∧
        ∃ result rest, after = .returned (.returned result) :: rest) ∨
      (∃ result, after =
        [.returned (.returned result), .ended (op.report .oneShotFired)]) ∨
      after = [.returned .died, .ended (op.report .aborted)] := by
  obtain ⟨n, rounds, finale, hrounds, hfinale, rfl⟩ := h
  rcases split_cases hsplit with ⟨rest, hearlier, rfl⟩ | ⟨middle, -, hlast⟩
  · obtain ⟨hrepeatable, result, rest', rfl⟩ := hrounds.after_call hearlier
    exact .inr (.inl ⟨hrepeatable, result, _, rfl⟩)
  · generalize op.stage = stage at hfinale
    cases hfinale with
    | listening => simp at hlast
    | calling hslot => exact .inl (called_first (by simp) hlast).2
    | fired hcount hslot =>
      exact .inr (.inr (.inl ⟨_, (called_first (by simp [Deed.isCall]) hlast).2⟩))
    | reclaimed | exhausted => cases (called_first (by simp) hlast).1
    | died hslot => exact .inr (.inr (.inr (called_first (by simp [Deed.isCall]) hlast).2))

/-- An operation has ended in the way that it reports, and nothing comes after that. -/
theorem Tells.ended {op : CallbackOperation F} {deeds before after : List Deed}
    {report : OperationReport} (h : Tells op deeds)
    (hsplit : deeds = before ++ .ended report :: after) :
    after = [] ∧ ∃ ending, op.stage = .ended ending ∧ report = op.report ending ∧
      (.returned .died ∈ deeds ∨ report.invocations = callCount deeds) := by
  obtain ⟨n, rounds, finale, hrounds, hfinale, rfl⟩ := h
  have hcount := hrounds.callCount
  rcases split_cases hsplit with ⟨rest, hearlier, -⟩ | ⟨middle, -, hlast⟩
  · exact absurd (by simp [hearlier]) (hrounds.not_ended report)
  · generalize op.stage = stage at hfinale ⊢
    cases hfinale with
    | listening => simp at hlast
    | calling hslot => cases (ended_last [] (by simp) hlast).1
    | @fired _ slot outcome result hinvocations hslot =>
      obtain ⟨heq, rfl⟩ :=
        ended_last [.called slot outcome, .returned (.returned result)] (by simp) hlast
      cases heq
      refine ⟨rfl, _, rfl, rfl, .inr ?_⟩
      rw [callCount_append, hcount]
      exact hinvocations
    | reclaimed =>
      obtain ⟨heq, rfl⟩ := ended_last [] (by simp) hlast
      cases heq
      refine ⟨rfl, _, rfl, rfl, .inr ?_⟩
      rw [callCount_append, hcount]
      rfl
    | exhausted =>
      obtain ⟨heq, rfl⟩ := ended_last [] (by simp) hlast
      cases heq
      refine ⟨rfl, _, rfl, rfl, .inr ?_⟩
      rw [callCount_append, hcount]
      rfl
    | @died slot outcome _ hslot =>
      obtain ⟨heq, rfl⟩ := ended_last [.called slot outcome, .returned .died] (by simp) hlast
      cases heq
      exact ⟨rfl, _, rfl, rfl, .inl (by simp)⟩

theorem Tells.ended_of_stage {op : CallbackOperation F} {deeds : List Deed} {ending : Ending}
    (h : Tells op deeds) (hstage : op.stage = .ended ending) :
    .ended (op.report ending) ∈ deeds := by
  obtain ⟨n, rounds, finale, hrounds, hfinale, rfl⟩ := h
  rw [hstage] at hfinale
  refine List.mem_append_right _ ?_
  cases hfinale <;> simp

theorem Tells.slot_of_mem {op : CallbackOperation F} {deeds : List Deed} {slot : Nat}
    {outcome : Outcome} (h : Tells op deeds) (hmem : .called slot outcome ∈ deeds) :
    ∃ cardinality, hasCardinality op.slots slot cardinality := by
  obtain ⟨n, rounds, finale, hrounds, hfinale, rfl⟩ := h
  rcases List.mem_append.mp hmem with hmem | hmem
  · obtain ⟨before, after, hsplit⟩ := List.append_of_mem hmem
    exact ⟨.repeatable, (hrounds.after_call hsplit).1⟩
  · generalize op.stage = stage at hfinale
    cases hfinale with
    | listening | reclaimed | exhausted => simp at hmem
    | calling hslot | fired hcount hslot | died hslot =>
      obtain ⟨rfl, rfl⟩ : slot = _ ∧ outcome = _ := by simpa using hmem
      exact ⟨_, hslot⟩

end RemoteHost
