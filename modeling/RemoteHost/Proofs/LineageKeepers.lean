import RemoteHost.Proofs.MisusedOperations
import RemoteHost.Proofs.OwnLineages
import RemoteHost.Proofs.PartyMoves

/-!
# Lineages that are kept for one party

A company is a session whose parties run any operations of the library, in whatever order. A lineage
is shared by all, or it is kept for one party: an operation without a step makes one for itself, and
the function of a slot is called with one. Nobody can name a lineage that is kept for somebody else.
So its turns are never taken from the party that it is kept for.
-/

namespace RemoteHost

variable {F : Type}

/-- An operation that a party is in the middle of. -/
structure Errand (F : Type) where
  operation : SessionOperation F
  rest : Routine F (Except Fault operation.Result)

/-- What an operation of a party came to. -/
structure Gain (F : Type) where
  party : Party
  operation : SessionOperation F
  result : Except Fault operation.Result

structure Company (F : Type) where
  session : Session F
  /-- Whom a lineage is kept for, if it is not shared. Only lineages that exist matter. -/
  keeper : LineageId → Option Party := fun _ => none
  busy : Party → Option (Errand F) := fun _ => none
  gains : List (Gain F) := []

inductive CompanyMove (F : Type) where
  | begin (p : Party) (operation : SessionOperation F)
  | go (p : Party)
  | abandon (p : Party)
  /-- A lineage is made that everybody may use. -/
  | addLineage (label : String) (parent : Option LineageId)
  | host (host : Host)
  | fire (token : String) (payload : Json)
  /-- A callback operation takes a payload, and calls the function of the slot it came in for. -/
  | call (id : OperationId) (slot : Nat)
  | conclude (id : OperationId) (verdict : Verdict)

namespace Company

/-- Keeps the lineage that is made next. -/
def keep (w : Company F) (p : Option Party) : LineageId → Option Party :=
  Function.update w.keeper w.session.lineages.length p

/-- Whether a party may use a lineage. -/
def MayUse (w : Company F) (p : Party) (l : LineageId) : Prop :=
  l < w.session.lineages.length ∧ (w.keeper l = none ∨ w.keeper l = some p)

instance (w : Company F) (p : Party) (l : LineageId) : Decidable (w.MayUse p l) :=
  inferInstanceAs (Decidable (_ ∧ _))

def begin (w : Company F) (p : Party) (operation : SessionOperation F) : Company F :=
  if (w.busy p).isNone ∧ ∀ l ∈ operation.lineages, w.MayUse p l then
    { w with
      busy := Function.update w.busy p
        (some ⟨operation, (operation.job w.session.settings).run⟩) }
  else w

/-- Whom the lineages are kept for once a party has asked for something. -/
def keeperAfter (w : Company F) (p : Party) : Request F → LineageId → Option Party
  | .newLineage _ => w.keep (some p)
  | _ => w.keeper

def go (w : Company F) (p : Party) : Company F :=
  match w.busy p with
  | none => w
  | some ⟨operation, .done result⟩ =>
    { w with
      busy := Function.update w.busy p none
      gains := w.gains ++ [⟨p, operation, result⟩] }
  | some ⟨operation, .ask request next⟩ =>
    match w.session.answer p request with
    | (none, session) => { w with session }
    | (some reply, session) =>
      { w with
        session
        keeper := w.keeperAfter p request
        busy := Function.update w.busy p (some ⟨operation, next reply⟩) }

def call (behave : Behaviour F) (w : Company F) (id : OperationId) (op : CallbackOperation F)
    (slot : Nat) : Company F :=
  match op.stage, op.listeners[slot]? with
  | .listening, some listener =>
    match w.session.board.sighting listener.opened.endpoint with
    | .payload payload =>
      { w with
        session := w.session.deliver behave id op listener payload
        keeper := w.keep (some (.callback id)) }
    | _ => w
  | _, _ => w

def conclude (w : Company F) (id : OperationId) (op : CallbackOperation F) (verdict : Verdict) :
    Company F :=
  match op.stage with
  | .calling call =>
    if (w.busy (.callback id)).isNone then
      { w with session := w.session.conclude id op call verdict }
    else w
  | _ => w

/-- The company after a move. A move that is not possible changes nothing. -/
def act (behave : Behaviour F) (w : Company F) : CompanyMove F → Company F
  | .begin p operation => w.begin p operation
  | .go p => w.go p
  | .abandon p =>
    { w with session := w.session.abandon p, busy := Function.update w.busy p none }
  | .addLineage label parent =>
    { w with session := (w.session.addLineage label parent).2, keeper := w.keep none }
  | .host host => { w with session := { w.session with host } }
  | .fire token payload => { w with session := (w.session.fire token payload).2 }
  | .call id slot =>
    match w.session.operations[id]? with
    | none => w
    | some op => w.call behave id op slot
  | .conclude id verdict =>
    match w.session.operations[id]? with
    | none => w
    | some op => w.conclude id op verdict

def run (behave : Behaviour F) (w : Company F) (moves : List (CompanyMove F)) : Company F :=
  moves.foldl (act behave) w

/-- A new session, in which nobody does anything yet. -/
def start (settings : Settings) (host : Host) : Company F where
  session := { settings, host }

end Company

/-! ## Gates that only one party comes to -/

/-- Nobody else has the turn or waits for it. -/
structure Gate.IsOf (g : Gate) (p : Party) : Prop where
  holder : ∀ q, g.holder = some q → q = p
  waiting : ∀ q ∈ g.waiting, q = p

namespace Gate.IsOf

variable {g : Gate} {p : Party}

theorem empty (p : Party) : Gate.IsOf {} p where
  holder := nofun
  waiting := nofun

theorem not_isTakenFrom (h : g.IsOf p) : g.isTakenFrom p = false := by
  unfold Gate.isTakenFrom
  cases hholder : g.holder with
  | none => rfl
  | some q => simp [h.holder q hholder]

theorem ask (h : g.IsOf p) : (g.ask p).2.IsOf p := by
  unfold Gate.ask
  cases hholder : g.holder with
  | none => exact ⟨fun q hq => (Option.some.inj hq).symm, h.waiting⟩
  | some q =>
    obtain rfl := h.holder q hholder
    simpa using h

theorem pass (h : g.IsOf p) : g.pass.IsOf p where
  holder q hq := h.waiting q (List.mem_of_head? hq)
  waiting q hq := h.waiting q (List.mem_of_mem_tail hq)

theorem withdraw (h : g.IsOf p) (q : Party) : (g.withdraw q).IsOf p := by
  unfold Gate.withdraw
  split
  · exact h.pass
  · exact ⟨h.holder, fun r hr => h.waiting r (List.mem_of_mem_erase hr)⟩

end Gate.IsOf

/-- Nobody but the keeper comes to the gate of a lineage that is kept. -/
def Guarded (keeper : LineageId → Option Party) (lineages : List Lineage) : Prop :=
  ∀ (l : LineageId) lineage p, lineages[l]? = some lineage → keeper l = some p →
    lineage.gate.IsOf p

section Guarded

variable {keeper keeper' : LineageId → Option Party} {lineages : List Lineage}

theorem Guarded.modify (h : Guarded keeper lineages) (k : LineageId) (f : Lineage → Lineage)
    (hf : ∀ lineage p, lineages[k]? = some lineage → keeper k = some p → lineage.gate.IsOf p →
      (f lineage).gate.IsOf p) : Guarded keeper (lineages.modify k f) := by
  intro l lineage' p hlineage' hkeeper
  rw [List.getElem?_modify] at hlineage'
  obtain ⟨lineage, hlineage, heq⟩ := Option.map_eq_some_iff.mp hlineage'
  have hgate := h l lineage p hlineage hkeeper
  by_cases hl : k = l
  · subst hl
    rw [← heq]
    simpa using hf lineage p hlineage hkeeper hgate
  · rw [← heq]
    simpa [hl] using hgate

/-- Nobody has come to the gate of a lineage that is new. -/
theorem Guarded.added (h : Guarded keeper lineages) (who : Option Party) (label : String)
    (parent : Option LineageId) :
    Guarded (Function.update keeper lineages.length who)
      (lineages ++ [{ label := label, parent := parent }]) := by
  intro l lineage p hlineage hkeeper
  rcases Nat.lt_or_ge l lineages.length with hl | hl
  · rw [List.getElem?_append_left hl] at hlineage
    rw [Function.update_of_ne (Nat.ne_of_lt hl)] at hkeeper
    exact h l lineage p hlineage hkeeper
  · rw [List.getElem?_append_right hl] at hlineage
    rw [List.mem_singleton.mp (List.mem_of_getElem? hlineage)]
    exact .empty p

theorem Guarded.congr (h : Guarded keeper lineages)
    (hkeeper : ∀ l < lineages.length, keeper' l = keeper l) : Guarded keeper' lineages := by
  intro l lineage p hlineage hp
  rw [hkeeper l (List.getElem?_eq_some_iff.mp hlineage).1] at hp
  exact h l lineage p hlineage hp

end Guarded

/-! ## What sessions do to lineages and calls -/

namespace Session

variable {s : Session F} {keeper : LineageId → Option Party}

theorem turns_fire (s : Session F) (token : String) (payload : Json) :
    (s.fire token payload).2.turns = s.turns := by
  unfold fire
  split
  · rfl
  · dsimp only
    split <;> exact turns_wakeAt _ _

theorem turns_finish (s : Session F) (id : OperationId) (op : CallbackOperation F)
    (ending : Ending) : (s.finish id op ending).turns = s.turns :=
  turns_foldl_dropEndpoint s op.endpoints

theorem turns_foldl_closeEndpoint (s : Session F) (endpoints : List EndpointId) :
    (endpoints.foldl closeEndpoint s).turns = s.turns := by
  induction endpoints generalizing s with
  | nil => rfl
  | cons endpoint endpoints ih =>
    exact (ih (s.closeEndpoint endpoint)).trans (turns_closeEndpoint s _)

/-- A function that returns leaves the turns as they are. -/
theorem turns_conclude_returned (s : Session F) (id : OperationId) (op : CallbackOperation F)
    (call : Calling F) (result : Except Fault Reaction) :
    (s.conclude id op call (.returned result)).turns = s.turns := by
  unfold conclude
  dsimp only
  split
  · rfl
  · exact (turns_finish _ _ _ _).trans (turns_foldl_closeEndpoint _ _)

/-- A party that is taken out of every lineage comes to no gate anew. -/
theorem guarded_of_withdrawn {s' : Session F} (h : Guarded keeper s.lineages) (p : Party)
    (hlineages : ∀ l : LineageId, s'.lineages[l]? =
      s.lineages[l]?.map fun x => { x with gate := x.gate.withdraw p }) :
    s'.lineages.length = s.lineages.length ∧ Guarded keeper s'.lineages := by
  constructor
  · have hbound : ∀ l, s'.lineages.length ≤ l ↔ s.lineages.length ≤ l := by
      intro l
      rw [← List.getElem?_eq_none_iff, hlineages, Option.map_eq_none_iff,
        List.getElem?_eq_none_iff]
    exact Nat.le_antisymm ((hbound _).mpr (Nat.le_refl _)) ((hbound _).mp (Nat.le_refl _))
  · intro l lineage' q hlineage' hkeeper
    rw [hlineages] at hlineage'
    obtain ⟨lineage, hlineage, rfl⟩ := Option.map_eq_some_iff.mp hlineage'
    exact (h l lineage q hlineage hkeeper).withdraw p

theorem getElem?_withdraw (s : Session F) (p : Party) (l : LineageId) :
    (s.withdraw p).lineages[l]? =
      s.lineages[l]?.map fun x => { x with gate := x.gate.withdraw p } := by
  rw [withdraw, getElem?_foldl_leave s p _ List.nodup_range]
  split
  · rfl
  · rename_i hout
    rw [List.mem_range] at hout
    rw [List.getElem?_eq_none (Nat.le_of_not_lt hout)]
    rfl

theorem guarded_conclude (h : Guarded keeper s.lineages) (id : OperationId)
    (op : CallbackOperation F) (call : Calling F) (verdict : Verdict) :
    (s.conclude id op call verdict).lineages.length = s.lineages.length ∧
      Guarded keeper (s.conclude id op call verdict).lineages := by
  cases verdict with
  | died =>
    refine guarded_of_withdrawn h (.callback id) fun l => ?_
    have hlineages : (s.conclude id op call .died).lineages =
        ((s.report op call.delivery (.ok .nothing)).withdraw (.callback id)).lineages :=
      congrArg Prod.snd (turns_finish _ id op .aborted)
    rw [hlineages, getElem?_withdraw]
    rfl
  | returned result =>
    have hlineages : (s.conclude id op call (.returned result)).lineages = s.lineages :=
      congrArg Prod.snd (turns_conclude_returned s id op call result)
    rw [hlineages]
    exact ⟨rfl, h⟩

theorem guarded_answer {p : Party} {request : Request F} (h : Guarded keeper s.lineages)
    (hmay : ∀ l policy q, request = .enter l policy → keeper l = some q → q = p)
    (hnew : ∀ label, request ≠ .newLineage label) :
    (s.answer p request).2.lineages.length = s.lineages.length ∧
      Guarded keeper (s.answer p request).2.lineages := by
  have same {s' : Session F} (hturns : s'.turns = s.turns) :
      s'.lineages.length = s.lineages.length ∧ Guarded keeper s'.lineages := by
    rw [show s'.lineages = s.lineages from congrArg Prod.snd hturns]
    exact ⟨rfl, h⟩
  cases request with
  | enter l policy =>
    cases hlineage : s.lineages[l]? with
    | none =>
      have hsame : s.enter p l policy = (some (.ok ()), s) := by simp [enter, hlineage]
      simp only [answer, hsame]
      exact ⟨trivial, h⟩
    | some lineage =>
      simp only [answer, s.enter_eq p l policy hlineage]
      split
      · exact ⟨rfl, h⟩
      · refine ⟨List.length_modify .., h.modify l _ ?_⟩
        intro found q hfound hkeeper hgate
        obtain rfl := hmay l policy q rfl hkeeper
        rw [hlineage] at hfound
        obtain rfl := Option.some.inj hfound
        exact hgate.ask
  | complete l =>
    have hlineages : (s.answer p (.complete l)).2.lineages = s.lineages.modify l fun l =>
        { l with roundTrips := l.roundTrips + 1, gate := l.gate.pass } :=
      congrArg Prod.snd (turns_complete s l)
    rw [hlineages]
    exact ⟨List.length_modify .., h.modify l _ fun _ _ _ _ hgate => hgate.pass⟩
  | newLineage label => exact absurd rfl (hnew label)
  | submit program => exact same (turns_submit s p program)
  | collect => exact same (turns_collect s p)
  | openEndpoint => exact same (turns_openEndpoint s p)
  | closeEndpoint endpoint => exact same (turns_closeEndpoint s endpoint)
  | launch label endpoints slots parent => exact same (turns_wake _ _)
  | record | drain | restore | isReleased => exact same rfl

/-- A turn that is kept for a party is given to it at once. -/
theorem enter_of_kept {s' : Session F} {p : Party} {l : LineageId} {policy : ConflictPolicy}
    {reply : Except UsageFault Unit} (h : Guarded keeper s.lineages) (hkeeper : keeper l = some p)
    (hanswer : s.answer p (.enter l policy) = (some reply, s')) : reply = .ok () := by
  simp only [answer] at hanswer
  cases hlineage : s.lineages[l]? with
  | none =>
    simp only [enter, hlineage] at hanswer
    cases hanswer
    rfl
  | some lineage =>
    have hgate := (h l lineage p hlineage hkeeper).not_isTakenFrom
    rw [s.enter_eq p l policy hlineage, if_neg (by simp [hgate])] at hanswer
    split at hanswer
    · cases hanswer
      rfl
    · cases hanswer

/-- The function of a slot is called with the lineage that is made for the call. -/
theorem deliver_called (behave : Behaviour F) (s : Session F) (id : OperationId)
    (op : CallbackOperation F) (listener : Listener F) (payload : Json) :
    (∃ label, (s.deliver behave id op listener payload).lineages =
        s.lineages ++ [{ label := label, parent := some op.parent }] ∧
      ∃ call : Calling F, call.delivery.lineage = s.lineages.length ∧
        (s.deliver behave id op listener payload).operations =
          s.operations.modify id ({ · with stage := .calling call })) ∨
      (s.deliver behave id op listener payload).lineages = s.lineages ∧
        (s.deliver behave id op listener payload).operations = s.operations := by
  unfold deliver
  cases listener.slot.accepts? payload with
  | none => exact .inr ⟨rfl, rfl⟩
  | some outcome =>
    refine .inl ⟨"cb:" ++ listener.opened.token, ?_⟩
    cases outcome <;> exact ⟨rfl, ⟨_, _, _⟩, rfl, rfl⟩

end Session

/-! ## What is kept along a run -/

/-- An operation uses lineages that are shared, or kept for its party. -/
structure Errand.IsAllowed (keeper : LineageId → Option Party) (count : Nat) (p : Party)
    (e : Errand F) (shared : LineageId → Prop) (own : List LineageId) (calm : Prop) : Prop where
  given : ∀ l ∈ e.operation.lineages, l < count
  isShared : ∀ l, shared l → l < count ∧ keeper l = none
  isKept : ∀ l ∈ own, l < count ∧ keeper l = some p
  isCalm : (∀ l ∈ e.operation.lineages, keeper l = some p) → ¬ e.operation.Feigns → calm
  obeys : (keeping shared).Obeys (fun _ => Unrefused calm) own e.rest

/-- An operation that was given only what is kept for its party does not come to a conflict. -/
structure Gain.IsPeaceful (keeper : LineageId → Option Party) (count : Nat) (g : Gain F) :
    Prop where
  given : ∀ l ∈ g.operation.lineages, l < count
  unrefused : (∀ l ∈ g.operation.lineages, keeper l = some g.party) → ¬ g.operation.Feigns →
    ∀ label, g.result ≠ .error (.usage (.stepConflict label))

/-- The function that an operation calls was given a lineage that is kept for it. -/
def KeptForCalls (keeper : LineageId → Option Party) (count : Nat)
    (operations : List (CallbackOperation F)) : Prop :=
  ∀ (id : OperationId) op call, operations[id]? = some op → op.stage = .calling call →
    call.delivery.lineage < count ∧ keeper call.delivery.lineage = some (.callback id)

structure Company.Peace (w : Company F) : Prop where
  guarded : Guarded w.keeper w.session.lineages
  busy : ∀ p e, w.busy p = some e → ∃ shared own calm,
    e.IsAllowed w.keeper w.session.lineages.length p shared own calm
  gains : ∀ g ∈ w.gains, g.IsPeaceful w.keeper w.session.lineages.length
  calls : KeptForCalls w.keeper w.session.lineages.length w.session.operations

section Later

variable {keeper keeper' : LineageId → Option Party} {count count' : Nat}

theorem Errand.IsAllowed.later {p : Party} {e : Errand F} {shared : LineageId → Prop}
    {own : List LineageId} {calm : Prop} (h : e.IsAllowed keeper count p shared own calm)
    (hcount : count ≤ count') (hkeeper : ∀ l < count, keeper' l = keeper l) :
    e.IsAllowed keeper' count' p shared own calm where
  given l hl := Nat.lt_of_lt_of_le (h.given l hl) hcount
  isShared l hl := by
    obtain ⟨hlt, hnone⟩ := h.isShared l hl
    exact ⟨Nat.lt_of_lt_of_le hlt hcount, (hkeeper l hlt).trans hnone⟩
  isKept l hl := by
    obtain ⟨hlt, hsome⟩ := h.isKept l hl
    exact ⟨Nat.lt_of_lt_of_le hlt hcount, (hkeeper l hlt).trans hsome⟩
  isCalm hkept := h.isCalm fun l hl => (hkeeper l (h.given l hl)).symm.trans (hkept l hl)
  obeys := h.obeys

/-- A party asks for no turn that is kept for somebody else. -/
theorem Errand.IsAllowed.eq_keeper {p : Party} {operation : SessionOperation F}
    {request : Request F} {next : request.Reply → Routine F (Except Fault operation.Result)}
    {shared : LineageId → Prop} {own : List LineageId} {calm : Prop}
    (h : (⟨operation, .ask request next⟩ : Errand F).IsAllowed keeper count p shared own calm)
    (l : LineageId) (policy : ConflictPolicy) (q : Party) (hrequest : request = .enter l policy)
    (hq : keeper l = some q) : q = p := by
  subst hrequest
  rcases h.obeys.1 with hshared | hown
  · rw [(h.isShared l hshared).2] at hq
    cases hq
  · rw [(h.isKept l hown).2] at hq
    exact (Option.some.inj hq).symm

theorem Gain.IsPeaceful.later {g : Gain F} (h : g.IsPeaceful keeper count)
    (hcount : count ≤ count') (hkeeper : ∀ l < count, keeper' l = keeper l) :
    g.IsPeaceful keeper' count' where
  given l hl := Nat.lt_of_lt_of_le (h.given l hl) hcount
  unrefused hkept := h.unrefused fun l hl => (hkeeper l (h.given l hl)).symm.trans (hkept l hl)

theorem KeptForCalls.later {operations : List (CallbackOperation F)}
    (h : KeptForCalls keeper count operations) (hcount : count ≤ count')
    (hkeeper : ∀ l < count, keeper' l = keeper l) : KeptForCalls keeper' count' operations := by
  intro id op call hop hstage
  obtain ⟨hlt, hsome⟩ := h id op call hop hstage
  exact ⟨Nat.lt_of_lt_of_le hlt hcount, (hkeeper _ hlt).trans hsome⟩

/-- An operation that is not in the middle of a call needs no lineage. -/
theorem KeptForCalls.modify {operations : List (CallbackOperation F)}
    (h : KeptForCalls keeper count operations) (id : OperationId)
    (f : CallbackOperation F → CallbackOperation F)
    (hf : ∀ op call, (f op).stage = .calling call → call.delivery.lineage < count ∧
      keeper call.delivery.lineage = some (.callback id)) :
    KeptForCalls keeper count (operations.modify id f) := by
  intro i op' call hop' hstage
  rw [List.getElem?_modify] at hop'
  obtain ⟨op, hop, rfl⟩ := Option.map_eq_some_iff.mp hop'
  by_cases hi : id = i
  · subst hi
    exact hf op call (by simpa using hstage)
  · exact h i op call hop (by simpa [hi] using hstage)

theorem KeptForCalls.started {operations : List (CallbackOperation F)}
    (h : KeptForCalls keeper count operations) (label : String) (endpoints : List Opened)
    (slots : List (Slot F)) (parent : LineageId) :
    KeptForCalls keeper count (operations ++ [.started label endpoints slots parent]) := by
  intro id op call hop hstage
  rcases Nat.lt_or_ge id operations.length with hid | hid
  · rw [List.getElem?_append_left hid] at hop
    exact h id op call hop hstage
  · rw [List.getElem?_append_right hid] at hop
    rw [List.mem_singleton.mp (List.mem_of_getElem? hop)] at hstage
    cases hstage

end Later

/-- What a party asks for starts at most one operation, and calls no function. -/
theorem operations_of_answered {c c' : Callbacks F} {p : Party} {request : Request F}
    {reply : request.Reply} (h : Answered c p request reply c') :
    c'.operations = c.operations ∨ ∃ label endpoints slots parent,
      c'.operations = c.operations ++ [.started label endpoints slots parent] := by
  cases request with
  | openEndpoint =>
    cases reply with
    | ok opened =>
      obtain ⟨-, rfl⟩ := h
      exact .inl rfl
    | error fault => exact .inl (congrArg Callbacks.operations h)
  | closeEndpoint endpoint => exact .inl h.operations
  | launch label endpoints slots parent =>
    obtain ⟨-, rfl⟩ := h
    exact .inr ⟨label, endpoints, slots, parent, rfl⟩
  | _ => exact .inl (congrArg Callbacks.operations h)

theorem KeptForCalls.answered {s s' : Session F} {keeper : LineageId → Option Party} {count : Nat}
    {p : Party} {request : Request F} {reply : request.Reply}
    (h : KeptForCalls keeper count s.operations) (hanswer : s.answer p request = (some reply, s')) :
    KeptForCalls keeper count s'.operations := by
  rcases operations_of_answered (Session.answered_of_answer hanswer) with
    hsame | ⟨label, endpoints, slots, parent, hmore⟩
  · rwa [show s'.operations = s.operations from hsame]
  · rw [show s'.operations = s.operations ++ _ from hmore]
    exact h.started label endpoints slots parent

namespace Company

variable {w : Company F}

/-- What does not concern the parties and the calls of functions keeps the peace. -/
theorem Peace.later (h : w.Peace) {session : Session F} {keeper : LineageId → Option Party}
    (hcount : w.session.lineages.length ≤ session.lineages.length)
    (hkeeper : ∀ l < w.session.lineages.length, keeper l = w.keeper l)
    (hguarded : Guarded keeper session.lineages)
    (hcalls : KeptForCalls keeper session.lineages.length session.operations) :
    Peace { w with session, keeper } where
  guarded := hguarded
  busy p e he := by
    obtain ⟨shared, own, calm, hallowed⟩ := h.busy p e he
    exact ⟨shared, own, calm, hallowed.later hcount hkeeper⟩
  gains g hg := (h.gains g hg).later hcount hkeeper
  calls := hcalls

/-- The same, where no lineage is made and no function is called. -/
theorem Peace.still (h : w.Peace) {session : Session F}
    (hlineages : session.lineages.length = w.session.lineages.length ∧
      Guarded w.keeper session.lineages)
    (hcalls : KeptForCalls w.keeper w.session.lineages.length session.operations) :
    Peace { w with session } := by
  refine h.later (Nat.le_of_eq hlineages.1.symm) (fun _ _ => rfl) hlineages.2 ?_
  rw [hlineages.1]
  exact hcalls

theorem Peace.set (h : w.Peace) (p : Party) (errand : Option (Errand F))
    (herrand : ∀ e, errand = some e → ∃ shared own calm,
      e.IsAllowed w.keeper w.session.lineages.length p shared own calm) :
    Peace { w with busy := Function.update w.busy p errand } where
  guarded := h.guarded
  busy q e he := by
    by_cases hq : q = p
    · subst hq
      exact herrand e (by simpa using he)
    · exact h.busy q e (by simpa [hq] using he)
  gains := h.gains
  calls := h.calls

theorem keep_of_lt (w : Company F) (p : Option Party) {l : LineageId}
    (h : l < w.session.lineages.length) : w.keep p l = w.keeper l :=
  Function.update_of_ne (Nat.ne_of_lt h) _ _

theorem Peace.begin (h : w.Peace) (p : Party) (operation : SessionOperation F) :
    (w.begin p operation).Peace := by
  unfold Company.begin
  split
  · rename_i hmay
    refine h.set p _ fun e he => ?_
    obtain rfl := Option.some.inj he
    let shared : LineageId → Prop := fun l => l < w.session.lineages.length ∧ w.keeper l = none
    let own := operation.lineages.filter fun l => w.keeper l = some p
    let calm := (∀ l ∈ operation.lineages, w.keeper l = some p) ∧ ¬ operation.Feigns
    have hcovers : Covers shared own calm operation.lineages := by
      constructor
      · intro l hl
        obtain ⟨hlt, hnone | hsome⟩ := hmay.2 l hl
        · exact .inl ⟨hlt, hnone⟩
        · exact .inr (List.mem_filter.mpr ⟨hl, by simpa using hsome⟩)
      · intro hcalm l hl
        exact List.mem_filter.mpr ⟨hl, by simpa using hcalm.1 l hl⟩
    refine ⟨shared, own, calm, ?_⟩
    exact {
      given := fun l hl => (hmay.2 l hl).1
      isShared := fun l hl => hl
      isKept := fun l hl => by
        obtain ⟨hmem, hkept⟩ := List.mem_filter.mp hl
        exact ⟨(hmay.2 l hmem).1, by simpa using hkept⟩
      isCalm := And.intro
      obeys := keeping_operation operation hcovers And.right }
  · exact h

/-- A party is answered, and goes on with its operation. -/
theorem Peace.answered (h : w.Peace) {p : Party} {operation : SessionOperation F}
    {request : Request F} {next : request.Reply → Routine F (Except Fault operation.Result)}
    {reply : request.Reply} {session : Session F}
    (hbusy : w.busy p = some ⟨operation, .ask request next⟩)
    (hanswer : w.session.answer p request = (some reply, session)) :
    Peace { w with
      session
      keeper := w.keeperAfter p request
      busy := Function.update w.busy p (some ⟨operation, next reply⟩) } := by
  obtain ⟨shared, own, calm, hallowed⟩ := h.busy p _ hbusy
  have hgoes := hallowed.obeys.2
  by_cases hnew : ∃ label, request = .newLineage label
  · obtain ⟨label, rfl⟩ := hnew
    cases hanswer
    have hlater : Peace { w with
        session := (w.session.addLineage label none).2, keeper := w.keep (some p) } := by
      refine h.later ?_ (fun l hl => w.keep_of_lt _ hl) (h.guarded.added _ _ _) ?_
      · simp [Session.addLineage]
      · exact h.calls.later (by simp [Session.addLineage]) fun l hl => w.keep_of_lt _ hl
    refine hlater.set p _ fun e he => ?_
    obtain rfl := Option.some.inj he
    have hallowed' : Errand.IsAllowed (w.keep (some p))
        (w.session.addLineage label none).2.lineages.length p ⟨operation, _⟩ shared own calm :=
      hallowed.later (by simp [Session.addLineage]) fun l hl => w.keep_of_lt _ hl
    refine ⟨shared, w.session.lineages.length :: own, calm, ?_⟩
    refine { hallowed' with isKept := ?_, obeys := hgoes _ trivial }
    intro l hl
    rcases List.mem_cons.mp hl with rfl | hl
    · exact ⟨by simp [Session.addLineage], Function.update_self ..⟩
    · exact hallowed'.isKept l hl
  · have hother : ∀ label, request ≠ .newLineage label := fun label heq => hnew ⟨label, heq⟩
    have hkeeper : w.keeperAfter p request = w.keeper := by
      cases request with
      | newLineage label => exact absurd rfl (hother label)
      | _ => rfl
    have hafter : (keeping shared).after own request reply = own := by
      cases request with
      | newLineage label => exact absurd rfl (hother label)
      | _ => rfl
    have hexpects : (keeping shared).expects own request reply := by
      cases request with
      | enter l policy =>
        exact fun hown => Session.enter_of_kept h.guarded (hallowed.isKept l hown).2 hanswer
      | _ => trivial
    have hlineages := Session.guarded_answer h.guarded hallowed.eq_keeper hother
    rw [hanswer] at hlineages
    have hstill : Peace { w with session } := h.still hlineages (h.calls.answered hanswer)
    rw [hkeeper]
    refine hstill.set p _ fun e he => ?_
    obtain rfl := Option.some.inj he
    have hobeys := hgoes reply hexpects
    rw [hafter] at hobeys
    refine ⟨shared, own, calm, ?_⟩
    rw [hlineages.1]
    exact { hallowed with obeys := hobeys }

theorem Peace.go (h : w.Peace) (p : Party) : (w.go p).Peace := by
  cases hbusy : w.busy p with
  | none => simpa [Company.go, hbusy] using h
  | some e =>
    obtain ⟨operation, rest⟩ := e
    cases rest with
    | done result =>
      obtain ⟨shared, own, calm, hallowed⟩ := h.busy p _ hbusy
      have hgain : Gain.IsPeaceful w.keeper w.session.lineages.length ⟨p, operation, result⟩ :=
        { given := hallowed.given
          unrefused := fun hkept hfeigns => hallowed.obeys (hallowed.isCalm hkept hfeigns) }
      have hidle := h.set p none nofun
      simp only [Company.go, hbusy]
      refine { hidle with gains := ?_ }
      intro g hg
      rcases List.mem_append.mp hg with hold | hnew
      · exact h.gains g hold
      · rw [List.mem_singleton.mp hnew]
        exact hgain
    | ask request next =>
      cases hanswer : w.session.answer p request with
      | mk answer session =>
        cases answer with
        | some reply =>
          simp only [Company.go, hbusy, hanswer]
          exact h.answered hbusy hanswer
        | none =>
          simp only [Company.go, hbusy, hanswer]
          obtain ⟨shared, own, calm, hallowed⟩ := h.busy p _ hbusy
          have hother : ∀ label, request ≠ .newLineage label := by
            rintro label rfl
            cases hanswer
          have hlineages := Session.guarded_answer h.guarded hallowed.eq_keeper hother
          rw [hanswer] at hlineages
          have hsame : session.operations = w.session.operations :=
            congrArg Callbacks.operations (Session.callbacks_of_waiting hanswer)
          exact h.still hlineages (hsame ▸ h.calls)

/-- A function is called with a lineage that is kept for it. -/
theorem Peace.call (h : w.Peace) (behave : Behaviour F) (id : OperationId)
    (op : CallbackOperation F) (slot : Nat) : (w.call behave id op slot).Peace := by
  unfold Company.call
  split
  · rename_i listener hstage hget
    split
    · rename_i payload hsight
      have hbelow : ∀ l < w.session.lineages.length, w.keep (some (.callback id)) l = w.keeper l :=
        fun l hl => w.keep_of_lt _ hl
      rcases w.session.deliver_called behave id op listener payload with
        ⟨label, hlineages, call, hcall, hoperations⟩ | ⟨hlineages, hoperations⟩
      · have hlength : (w.session.deliver behave id op listener payload).lineages.length =
            w.session.lineages.length + 1 := by simp [hlineages]
        refine h.later (by omega) hbelow (hlineages ▸ h.guarded.added _ _ _) ?_
        rw [hoperations]
        refine (h.calls.later (by omega) hbelow).modify id _ fun op call' hstage => ?_
        obtain rfl := Stage.calling.inj hstage
        rw [hcall]
        exact ⟨hlength ▸ Nat.lt_succ_self _, Function.update_self ..⟩
      · have hguarded : Guarded (w.keep (some (.callback id))) w.session.lineages :=
          h.guarded.congr hbelow
        refine h.later (Nat.le_of_eq (congrArg _ hlineages.symm)) hbelow (hlineages ▸ hguarded) ?_
        rw [hlineages, hoperations]
        exact h.calls.later (Nat.le_refl _) hbelow
    · exact h
  · exact h

theorem Peace.conclude (h : w.Peace) {id : OperationId} {op : CallbackOperation F}
    (hop : w.session.operations[id]? = some op) (verdict : Verdict) :
    (w.conclude id op verdict).Peace := by
  unfold Company.conclude
  split
  · rename_i call hstage
    split
    · refine h.still (Session.guarded_conclude h.guarded id op call verdict) ?_
      have hends : ∀ {last : CallbackOperation F} {ending : Ending} {c' : Callbacks F},
          Callbacks.Ends id last ending w.session.callbacks c' →
            KeptForCalls w.keeper w.session.lineages.length c'.operations := by
        rintro last ending c' ⟨c₁, -, rfl⟩
        exact h.calls.modify id _ nofun
      cases verdict with
      | died => exact hends (Callbacks.conclude_died hop call)
      | returned result =>
        cases hcall : call.cardinality with
        | repeatable =>
          have hsession := Callbacks.conclude_repeatable w.session id op hcall result
          have hoperations : (w.session.conclude id op call (.returned result)).operations =
              w.session.operations.modify id fun _ => op.resumed :=
            congrArg Callbacks.operations hsession
          rw [hoperations]
          exact h.calls.modify id _ nofun
        | oneShot => exact hends (Callbacks.conclude_oneShot hop hcall result)
    · exact h
  · exact h

theorem Peace.abandon (h : w.Peace) (p : Party) : Peace { w with
    session := w.session.abandon p, busy := Function.update w.busy p none } := by
  have hlineages := Session.guarded_of_withdrawn h.guarded p (w.session.turns_abandon p).2
  have hsame : (w.session.abandon p).operations = w.session.operations :=
    (Callbacks.shut_abandon w.session p).operations
  exact (h.still hlineages (hsame ▸ h.calls)).set p none nofun

theorem Peace.act (h : w.Peace) (behave : Behaviour F) (move : CompanyMove F) :
    (w.act behave move).Peace := by
  cases move with
  | begin p operation => exact h.begin p operation
  | go p => exact h.go p
  | abandon p => exact h.abandon p
  | addLineage label parent =>
    have hlength : w.session.lineages.length ≤
        (w.session.addLineage label parent).2.lineages.length := by simp [Session.addLineage]
    have hbelow : ∀ l < w.session.lineages.length, w.keep none l = w.keeper l :=
      fun l hl => w.keep_of_lt _ hl
    exact h.later hlength hbelow (h.guarded.added _ _ _) (h.calls.later hlength hbelow)
  | host host => exact h.still ⟨rfl, h.guarded⟩ h.calls
  | fire token payload =>
    have hlineages : (w.session.fire token payload).2.lineages = w.session.lineages :=
      congrArg Prod.snd (Session.turns_fire w.session token payload)
    have hoperations : (w.session.fire token payload).2.operations = w.session.operations :=
      congrArg (fun held : Holdings F => held.callbacks.operations)
        (Callbacks.holdings_fire w.session token payload)
    refine h.still ?_ (hoperations ▸ h.calls)
    rw [hlineages]
    exact ⟨rfl, h.guarded⟩
  | call id slot =>
    simp only [Company.act]
    split
    · exact h
    · exact h.call behave id _ slot
  | conclude id verdict =>
    simp only [Company.act]
    split
    · exact h
    · rename_i op hop
      exact h.conclude hop verdict

theorem peace_start (settings : Settings) (host : Host) :
    (start settings host : Company F).Peace where
  guarded l lineage p h := by simp [start] at h
  busy p e h := by simp [start] at h
  gains g h := by simp [start] at h
  calls id op call h := by simp [start] at h

theorem Peace.run (h : w.Peace) (behave : Behaviour F) (moves : List (CompanyMove F)) :
    (w.run behave moves).Peace := by
  induction moves generalizing w with
  | nil => exact h
  | cons move moves ih => exact ih (h.act behave move)

end Company

end RemoteHost
