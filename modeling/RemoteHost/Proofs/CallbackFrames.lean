import RemoteHost.Proofs.BoardChanges
import RemoteHost.Session.Dispatch
import RemoteHost.Session.Supervision

/-!
# The part of a session that callbacks are about

Endpoints, who has them, callback operations and their reports. Most of what a session does leaves
this part alone; what remains is written down here once for every change.
-/

namespace RemoteHost

variable {F : Type}

structure Callbacks (F : Type) where
  board : Board := []
  unclaimed : List (Party × EndpointId) := []
  operations : List (CallbackOperation F) := []
  endings : List OperationReport := []

/-- What a session has, apart from turns, replies and what was noted of the host. -/
structure Holdings (F : Type) where
  settings : Settings
  arena : Arena
  callbacks : Callbacks F

/-- Whether a request is about something else than endpoints. -/
def Request.isPlain : Request F → Bool
  | .openEndpoint | .closeEndpoint _ | .launch _ _ _ _ => false
  | _ => true

namespace Session

def callbacks (s : Session F) : Callbacks F :=
  ⟨s.board, s.unclaimed, s.operations, s.journal.endings⟩

def holdings (s : Session F) : Holdings F := ⟨s.settings, s.arena, s.callbacks⟩

theorem callbacks_of_holdings {s : Session F} {h : Holdings F} (heq : s.holdings = h) :
    s.callbacks = h.callbacks :=
  congrArg Holdings.callbacks heq

/-! ## What leaves holdings alone -/

@[simp] theorem holdings_note (s : Session F) (events : List HostEvent) :
    (s.note events).holdings = s.holdings := rfl

@[simp] theorem holdings_wake (s : Session F) (p : Party) :
    (s.wake p).holdings = s.holdings := by
  unfold wake
  split
  · rfl
  · rfl
  · split <;> rfl
  · split <;> rfl

@[simp] theorem holdings_addLineage (s : Session F) (label : String)
    (parent : Option LineageId) : (s.addLineage label parent).2.holdings = s.holdings := rfl

@[simp] theorem holdings_modifyLineage (s : Session F) (id : LineageId)
    (f : Lineage → Lineage) : (s.modifyLineage id f).holdings = s.holdings := rfl

@[simp] theorem holdings_enter (s : Session F) (p : Party) (id : LineageId)
    (policy : ConflictPolicy) : (s.enter p id policy).2.holdings = s.holdings := by
  unfold enter
  split
  · rfl
  · split <;> rfl

@[simp] theorem holdings_wakeHolder (s : Session F) (id : LineageId) :
    (s.wakeHolder id).holdings = s.holdings := by
  unfold wakeHolder
  split
  · exact holdings_wake s _
  · rfl

@[simp] theorem holdings_complete (s : Session F) (id : LineageId) :
    (s.complete id).holdings = s.holdings := by
  simp [complete]

@[simp] theorem holdings_leave (s : Session F) (p : Party) (id : LineageId) :
    (s.leave p id).holdings = s.holdings := by
  unfold leave
  dsimp only
  split <;> simp

@[simp] theorem holdings_withdraw (s : Session F) (p : Party) :
    (s.withdraw p).holdings = s.holdings := by
  have every : ∀ ids : List LineageId,
      (ids.foldl (fun s id => s.leave p id) s).holdings = s.holdings := by
    intro ids
    induction ids generalizing s with
    | nil => rfl
    | cons id ids ih => simpa using ih (s.leave p id)
  exact every _

@[simp] theorem holdings_leaveWire (s : Session F) (p : Party) :
    (s.leaveWire p).holdings = s.holdings := by
  unfold leaveWire
  dsimp only
  split
  · split
    · rfl
    · exact holdings_wake _ _
  · rfl

@[simp] theorem holdings_handOver (s : Session F) (p : Party) (program : String) :
    (s.handOver p program).holdings = s.holdings := rfl

@[simp] theorem holdings_submit (s : Session F) (p : Party) (program : String) :
    (s.submit p program).2.holdings = s.holdings := by
  unfold submit
  split
  · dsimp only
    split <;> rfl
  · rfl

@[simp] theorem holdings_collect (s : Session F) (p : Party) :
    (s.collect p).2.holdings = s.holdings := by
  unfold collect
  split
  · rfl
  · split
    · rfl
    · exact holdings_leaveWire _ p

@[simp] theorem holdings_wakeAt (s : Session F) (endpoint : EndpointId) :
    (s.wakeAt endpoint).holdings = s.holdings := by
  unfold wakeAt
  split
  · exact holdings_wake s _
  · rfl

theorem holdings_foldl_wakeAt (s : Session F) (endpoints : List EndpointId) :
    (endpoints.foldl wakeAt s).holdings = s.holdings := by
  induction endpoints generalizing s with
  | nil => rfl
  | cons endpoint rest ih => simpa using ih (s.wakeAt endpoint)

@[simp] theorem holdings_spend (s : Session F) : s.spend.holdings = s.holdings := rfl

@[simp] theorem holdings_report (s : Session F) (op : CallbackOperation F) (delivery : Delivery)
    (result : Except Fault Reaction) : (s.report op delivery result).holdings = s.holdings := rfl

theorem callbacks_answer (s : Session F) (p : Party) (request : Request F)
    (h : request.isPlain = true) : (s.answer p request).2.callbacks = s.callbacks := by
  cases request with
  | enter lineage policy => exact callbacks_of_holdings (holdings_enter s p lineage policy)
  | complete lineage => exact callbacks_of_holdings (holdings_complete s lineage)
  | submit program => exact callbacks_of_holdings (holdings_submit s p program)
  | collect => exact callbacks_of_holdings (holdings_collect s p)
  | record | drain | restore | isReleased | newLineage => rfl
  | openEndpoint | closeEndpoint | launch => cases h

/-! ## Opening -/

theorem holdings_disown (s : Session F) (token : String) :
    (s.disown token).holdings = { s.holdings with
      callbacks := { s.callbacks with board := s.board.disown token } } := by
  unfold disown
  rw [holdings_foldl_wakeAt]
  rfl

/-- What opening does: nothing if it fails, else there is one more endpoint, and its token is nobody
else's. -/
def Opening (s : Session F) (p : Party) : Except TransportFault Opened → Session F → Prop
  | .error _, s' => s'.callbacks = s.callbacks
  | .ok opened, s' => opened.endpoint = s.board.length ∧
      s'.callbacks = { s.callbacks with
        board := ((s.board.disown opened.token).openLine opened.token).2
        unclaimed := s.unclaimed ++ [(p, s.board.length)] }

theorem openEndpoint_opening (s : Session F) (p : Party) :
    Opening s p (s.openEndpoint p).1 (s.openEndpoint p).2 := by
  unfold openEndpoint
  cases s.host.nextToken with
  | mk answer host =>
    cases answer with
    | error fault => rfl
    | ok token =>
      have h := callbacks_of_holdings (holdings_disown { s with host } token)
      have hboard : (({ s with host } : Session F).disown token).board = s.board.disown token :=
        congrArg Callbacks.board h
      have hunclaimed : (({ s with host } : Session F).disown token).unclaimed = s.unclaimed :=
        congrArg Callbacks.unclaimed h
      have hoperations : (({ s with host } : Session F).disown token).operations = s.operations :=
        congrArg Callbacks.operations h
      have hendings : (({ s with host } : Session F).disown token).journal.endings =
          s.journal.endings := congrArg Callbacks.endings h
      refine ⟨?_, ?_⟩
      · simp [hboard]
      · dsimp only
        split <;> simp [callbacks, note, hboard, hunclaimed, hoperations, hendings]

/-! ## Closing -/

theorem holdings_closeEndpoint (s : Session F) (e : EndpointId) :
    (s.closeEndpoint e).holdings = { s.holdings with callbacks := { s.callbacks with
      board := (s.board.close e).disown (s.tokenOf e)
      unclaimed := s.unclaimed.filter fun u => u.2 ∉ [e] } } := by
  unfold closeEndpoint
  dsimp only
  split
  · rw [holdings_note, holdings_disown]
    rfl
  · rw [holdings_disown]
    rfl

theorem holdings_dropEndpoint (s : Session F) (e : EndpointId) :
    (s.dropEndpoint e).holdings = { s.holdings with callbacks := { s.callbacks with
      board := s.board.close e
      unclaimed := s.unclaimed.filter fun u => u.2 ∉ [e] } } := by
  unfold dropEndpoint
  dsimp only
  split <;> rfl

end Session

/-- Endpoints were closed, and whoever had them has them no more. -/
structure Callbacks.Shut (endpoints : List EndpointId) (c c' : Callbacks F) : Prop where
  operations : c'.operations = c.operations
  endings : c'.endings = c.endings
  unclaimed : c'.unclaimed = c.unclaimed.filter fun u => u.2 ∉ endpoints
  length : c'.board.length = c.board.length
  isOpen : ∀ e, c'.board.isOpen e = (c.board.isOpen e && decide (e ∉ endpoints))
  inbox : ∀ e, Board.inbox c'.board e = Board.inbox c.board e
  isConnected : ∀ e, Board.isConnected c'.board e = true → Board.isConnected c.board e = true

namespace Callbacks

theorem Shut.trans {c₁ c₂ c₃ : Callbacks F} {es fs : List EndpointId} (h₁ : Shut es c₁ c₂)
    (h₂ : Shut fs c₂ c₃) : Shut (es ++ fs) c₁ c₃ where
  operations := h₂.operations.trans h₁.operations
  endings := h₂.endings.trans h₁.endings
  unclaimed := by
    rw [h₂.unclaimed, h₁.unclaimed, List.filter_filter]
    refine List.filter_congr fun u _ => ?_
    simp [Bool.and_comm]
  length := h₂.length.trans h₁.length
  isOpen e := by
    rw [h₂.isOpen, h₁.isOpen]
    simp [Bool.and_assoc]
  inbox e := (h₂.inbox e).trans (h₁.inbox e)
  isConnected e h := h₁.isConnected e (h₂.isConnected e h)

theorem Shut.congr {c c' : Callbacks F} {es fs : List EndpointId} (h : Shut es c c')
    (hmem : ∀ e, e ∈ es ↔ e ∈ fs) : Shut fs c c' where
  operations := h.operations
  endings := h.endings
  unclaimed := by
    rw [h.unclaimed]
    exact List.filter_congr fun u _ => by simp [hmem]
  length := h.length
  isOpen e := by
    rw [h.isOpen]
    simp [hmem]
  inbox := h.inbox
  isConnected := h.isConnected

theorem Shut.nothing (c : Callbacks F) : Shut [] c c where
  operations := rfl
  endings := rfl
  unclaimed := by
    rw [List.filter_eq_self.mpr]
    simp
  length := rfl
  isOpen e := by simp
  inbox _ := rfl
  isConnected _ h := h

theorem Shut.disown {c c' : Callbacks F} {es : List EndpointId} (h : Shut es c c')
    (token : String) : Shut es c { c' with board := c'.board.disown token } where
  operations := h.operations
  endings := h.endings
  unclaimed := h.unclaimed
  length := (Board.length_disown _ token).trans h.length
  isOpen e := (Board.isOpen_disown _ token e).trans (h.isOpen e)
  inbox e := (Board.inbox_disown _ token e).trans (h.inbox e)
  isConnected e hc := h.isConnected e (Board.isConnected_of_disown hc)

theorem shut_close (c : Callbacks F) (e : EndpointId) : Shut [e] c { c with
    board := c.board.close e
    unclaimed := c.unclaimed.filter fun u => u.2 ∉ [e] } where
  operations := rfl
  endings := rfl
  unclaimed := rfl
  length := Board.length_close _ e
  isOpen j := by
    rw [Board.isOpen_close]
    by_cases h : e = j
    · simp [h]
    · simp [h, Ne.symm h]
  inbox j := Board.inbox_close _ e j
  isConnected j h := by rwa [Board.isConnected_close] at h

theorem shut_closeEndpoint (s : Session F) (e : EndpointId) :
    Shut [e] s.callbacks (s.closeEndpoint e).callbacks := by
  rw [Session.callbacks_of_holdings (Session.holdings_closeEndpoint s e)]
  exact (shut_close s.callbacks e).disown (s.tokenOf e)

theorem shut_dropEndpoint (s : Session F) (e : EndpointId) :
    Shut [e] s.callbacks (s.dropEndpoint e).callbacks := by
  rw [Session.callbacks_of_holdings (Session.holdings_dropEndpoint s e)]
  exact shut_close s.callbacks e

theorem shut_foldl {f : Session F → EndpointId → Session F}
    (hf : ∀ s e, Shut [e] s.callbacks (f s e).callbacks) (es : List EndpointId) (s : Session F) :
    Shut es s.callbacks (es.foldl f s).callbacks := by
  induction es generalizing s with
  | nil => exact Shut.nothing s.callbacks
  | cons e es ih => exact (hf s e).trans (ih (f s e))

/-- A party that gives up loses its own endpoints and nothing else. -/
theorem shut_abandon (s : Session F) (p : Party) :
    Shut ((s.unclaimed.filter fun u => u.1 = p).map (·.2)) s.callbacks
      (s.abandon p).callbacks := by
  obtain ⟨t, ht, habandon⟩ : ∃ t : Session F, t.callbacks = s.callbacks ∧ s.abandon p =
      ((t.unclaimed.filter fun u => u.1 = p).map (·.2)).foldl Session.dropEndpoint
        (t.withdraw p) :=
    ⟨_, Session.callbacks_of_holdings (Session.holdings_leaveWire { s with
      inFlight := s.inFlight.filter fun entry => entry.1 ≠ p
      resting := s.resting.erase p } p), rfl⟩
  have hwithdraw := Session.callbacks_of_holdings (Session.holdings_withdraw t p)
  have hunclaimed : t.unclaimed = s.unclaimed := congrArg Callbacks.unclaimed ht
  have hshut := shut_foldl shut_dropEndpoint
    ((s.unclaimed.filter fun u => u.1 = p).map (·.2)) (t.withdraw p)
  rw [hwithdraw.trans ht] at hshut
  rwa [habandon, hunclaimed]

end Callbacks

/-! ## Operations -/

namespace CallbackOperation

/-- An operation that has just started to listen. -/
def started (label : String) (endpoints : List Opened) (slots : List (Slot F))
    (parent : LineageId) : CallbackOperation F where
  label := label
  listeners := (slots.zip endpoints).map fun (slot, opened) => { slot := slot, opened := opened }
  parent := parent

/-- Only whether it still listens changes in a listener. -/
theorem map_deafen {β : Type} (f : Listener F → β)
    (hf : ∀ listener, f { listener with listening := false } = f listener)
    (op : CallbackOperation F) (slot : Nat) :
    (op.deafen slot).listeners.map f = op.listeners.map f := by
  refine List.ext_getElem? fun i => ?_
  simp only [deafen, List.getElem?_map, List.getElem?_modify]
  split <;> cases op.listeners[i]? <;> simp [hf]

@[simp] theorem endpoints_deafen (op : CallbackOperation F) (slot : Nat) :
    (op.deafen slot).endpoints = op.endpoints :=
  map_deafen _ (fun _ => rfl) op slot

def finished (op : CallbackOperation F) (ending : Ending) : CallbackOperation F :=
  { op with stage := .ended ending, registered := op.registered && ending = .aborted }

/-- What an operation reports when it ends. -/
def report (op : CallbackOperation F) (ending : Ending) : OperationReport :=
  ⟨op.label, if ending = .aborted then 0 else op.invocations, ending⟩

/-- An operation whose function has returned. -/
def resumed (op : CallbackOperation F) : CallbackOperation F :=
  { op with stage := .listening, invocations := op.invocations + 1 }

/-- An operation that supervision has told to end. -/
def stopped (op : CallbackOperation F) : CallbackOperation F :=
  { op with registered := false, stopping := true }

end CallbackOperation

namespace Callbacks

/-- An operation ended, and with it all that could arrive for it. -/
def Ends (id : OperationId) (op : CallbackOperation F) (ending : Ending) (c c' : Callbacks F) :
    Prop :=
  ∃ c₁, Shut op.endpoints c c₁ ∧ c' = { c₁ with
    operations := c.operations.modify id fun _ => op.finished ending
    endings := c.endings ++ [op.report ending] }

theorem modify_eq_of_getElem? {ops : List (CallbackOperation F)} {id : OperationId}
    {op : CallbackOperation F} (h : ops[id]? = some op)
    (f : CallbackOperation F → CallbackOperation F) :
    ops.modify id f = ops.modify id fun _ => f op := by
  refine List.ext_getElem? fun i => ?_
  simp only [List.getElem?_modify]
  split
  · rename_i hi
    subst hi
    simp [h]
  · rfl

/-- What an operation has in common with its successor, all operations have. -/
theorem map_modify {β : Type} {g : CallbackOperation F → β} {ops : List (CallbackOperation F)}
    {id : OperationId} {op : CallbackOperation F} (hop : ops[id]? = some op)
    {f : CallbackOperation F → CallbackOperation F} (hf : g (f op) = g op) :
    (ops.modify id f).map g = ops.map g := by
  refine List.ext_getElem? fun i => ?_
  rw [List.getElem?_map, List.getElem?_map, List.getElem?_modify]
  split
  · rename_i hi
    subst hi
    simp [hop, hf]
  · simp

section Ends

variable {id : OperationId} {op last : CallbackOperation F} {ending : Ending} {c c' : Callbacks F}

theorem Ends.found (h : Ends id last ending c c') (hop : c.operations[id]? = some op) :
    c'.operations[id]? = some (last.finished ending) := by
  obtain ⟨c₁, -, rfl⟩ := h
  simp [hop]

theorem Ends.others (h : Ends id last ending c c') {i : OperationId} (hne : i ≠ id) :
    c'.operations[i]? = c.operations[i]? := by
  obtain ⟨c₁, -, rfl⟩ := h
  simp [Ne.symm hne]

theorem Ends.inbox (h : Ends id last ending c c') (e : EndpointId) :
    Board.inbox c'.board e = Board.inbox c.board e := by
  obtain ⟨c₁, hshut, rfl⟩ := h
  exact hshut.inbox e

end Ends

theorem Ends.ofShut {id : OperationId} {op : CallbackOperation F} {ending : Ending}
    {c₀ c c' : Callbacks F} (hshut : Shut op.endpoints c₀ c) (h : Ends id op ending c c') :
    Ends id op ending c₀ c' := by
  obtain ⟨c₁, hclosed, rfl⟩ := h
  refine ⟨c₁, (hshut.trans hclosed).congr (by simp), ?_⟩
  rw [hshut.operations, hshut.endings]

/-- What becomes of an operation does not depend on what it was before. -/
theorem Ends.ofModify {id : OperationId} {op : CallbackOperation F} {ending : Ending}
    {c c' : Callbacks F} {f : CallbackOperation F → CallbackOperation F}
    (h : Ends id op ending { c with operations := c.operations.modify id f } c') :
    Ends id op ending c c' := by
  obtain ⟨c₁, hclosed, rfl⟩ := h
  refine ⟨{ c₁ with operations := c.operations }, ⟨rfl, hclosed.endings, hclosed.unclaimed,
    hclosed.length, hclosed.isOpen, hclosed.inbox, hclosed.isConnected⟩, ?_⟩
  rw [List.modify_modify_eq]
  rfl

theorem ends_finish {s : Session F} {id : OperationId} {op : CallbackOperation F}
    (h : s.operations[id]? = some op) (ending : Ending) :
    Ends id op ending s.callbacks (s.finish id op ending).callbacks := by
  have hshut := shut_foldl shut_dropEndpoint op.endpoints s
  refine ⟨_, hshut, ?_⟩
  change Callbacks.mk _ _
    ((op.endpoints.foldl Session.dropEndpoint s).callbacks.operations.modify id (·.finished ending))
    ((op.endpoints.foldl Session.dropEndpoint s).callbacks.endings ++ [op.report ending]) = _
  rw [hshut.operations, hshut.endings]
  exact congrArg (Callbacks.mk _ _ · _) (modify_eq_of_getElem? h _)

/-- To close all endpoints before the end comes to the same. -/
theorem ends_closing {s : Session F} {id : OperationId} {op : CallbackOperation F}
    (h : s.operations[id]? = some op) (ending : Ending) :
    Ends id op ending s.callbacks
      ((op.endpoints.foldl Session.closeEndpoint s).finish id op ending).callbacks := by
  have hclose := shut_foldl shut_closeEndpoint op.endpoints s
  have hop : (op.endpoints.foldl Session.closeEndpoint s).operations[id]? = some op := by
    rw [← h]
    exact congrArg (·[id]?) hclose.operations
  exact (ends_finish hop ending).ofShut hclose

/-! ## What an operation does -/

theorem conclude_died {s : Session F} {id : OperationId} {op : CallbackOperation F}
    (h : s.operations[id]? = some op) (call : Calling F) :
    Ends id op .aborted s.callbacks (s.conclude id op call .died).callbacks := by
  have hcalm : ((s.report op call.delivery (.ok .nothing)).withdraw (.callback id)).callbacks =
      s.callbacks := Session.callbacks_of_holdings (Session.holdings_withdraw ..)
  have hop : ((s.report op call.delivery (.ok .nothing)).withdraw
      (.callback id)).operations[id]? = some op := by
    rw [← h]
    exact congrArg (fun c : Callbacks F => c.operations[id]?) hcalm
  have hends := ends_finish hop .aborted
  rwa [hcalm] at hends

theorem conclude_repeatable (s : Session F) (id : OperationId) (op : CallbackOperation F)
    {call : Calling F} (hcall : call.cardinality = .repeatable) (result : Except Fault Reaction) :
    (s.conclude id op call (.returned result)).callbacks =
      { s.callbacks with operations := s.operations.modify id fun _ => op.resumed } := by
  unfold Session.conclude
  dsimp only
  rw [hcall]
  rfl

theorem conclude_oneShot {s : Session F} {id : OperationId} {op : CallbackOperation F}
    (h : s.operations[id]? = some op) {call : Calling F} (hcall : call.cardinality = .oneShot)
    (result : Except Fault Reaction) :
    Ends id op.resumed .oneShotFired s.callbacks
      (s.conclude id op call (.returned result)).callbacks := by
  unfold Session.conclude
  dsimp only
  rw [hcall]
  have hop : ((s.report op call.delivery result).modifyOperation id
      fun _ => op.resumed).operations[id]? = some op.resumed := by
    have hold : (s.report op call.delivery result).operations[id]? = some op := h
    simp [Session.modifyOperation, hold]
  exact (ends_closing hop .oneShotFired).ofModify

theorem deliver_refused (behave : Behaviour F) (s : Session F) (id : OperationId)
    (op : CallbackOperation F) {listener : Listener F} {payload : Json}
    (h : listener.slot.accepts? payload = none) :
    (s.deliver behave id op listener payload).callbacks =
      { s.callbacks with board := s.board.take listener.opened.endpoint } := by
  unfold Session.deliver
  rw [h]
  rfl

theorem deliver_accepted (behave : Behaviour F) (s : Session F) (id : OperationId)
    (op : CallbackOperation F) {listener : Listener F} {payload : Json} {outcome : Outcome}
    (h : listener.slot.accepts? payload = some outcome) :
    ∃ call : Calling F, call.cardinality = listener.slot.cardinality ∧
      (s.deliver behave id op listener payload).callbacks = { s.callbacks with
        board := s.board.take listener.opened.endpoint
        operations := s.operations.modify id ({ · with stage := .calling call }) } := by
  refine ⟨⟨listener.slot.cardinality, ⟨listener.opened.token, outcome, s.lineages.length⟩,
    behave listener.slot.action ⟨listener.opened.token, outcome, s.lineages.length⟩⟩, rfl, ?_⟩
  unfold Session.deliver
  rw [h]
  cases outcome <;> rfl

/-! ## What comes from outside -/

theorem holdings_fire (s : Session F) (token : String) (payload : Json) :
    (s.fire token payload).2.holdings = { s.holdings with
      callbacks := { s.callbacks with board := (s.board.send token payload).2 } } := by
  unfold Session.fire
  cases h : s.board.send token payload with
  | mk target board =>
    cases target with
    | none =>
      rw [Board.send_eq_none h]
      rfl
    | some e =>
      dsimp only
      split
      · rw [Session.holdings_note, Session.holdings_wakeAt]
        rfl
      · rw [Session.holdings_wakeAt]
        rfl

theorem holdings_hangUp (s : Session F) (token : String) :
    (s.hangUp token).2.holdings = { s.holdings with
      callbacks := { s.callbacks with board := (s.board.hangUp token).2 } } := by
  unfold Session.hangUp
  cases h : s.board.hangUp token with
  | mk target board =>
    cases target with
    | none =>
      rw [Board.hangUp_eq_none h]
      rfl
    | some e =>
      dsimp only
      rw [Session.holdings_wakeAt]
      rfl

/-- Some operations may have been told to end; nothing else happened to any. -/
def Told (ops ops' : List (CallbackOperation F)) : Prop :=
  ∀ id : Nat, ops'[id]? = ops[id]? ∨ ops'[id]? = ops[id]?.map CallbackOperation.stopped

theorem Told.map {β : Type} {ops ops' : List (CallbackOperation F)} (h : Told ops ops')
    {g : CallbackOperation F → β} (hg : ∀ op, g op.stopped = g op) : ops'.map g = ops.map g := by
  refine List.ext_getElem? fun i => ?_
  rw [List.getElem?_map, List.getElem?_map]
  rcases h i with h | h <;> rw [h]
  cases ops[i]? with
  | none => rfl
  | some op => exact congrArg some (hg op)

theorem Told.stop {ops ops' : List (CallbackOperation F)} (h : Told ops ops')
    (id : OperationId) : Told ops (ops'.modify id CallbackOperation.stopped) := by
  intro i
  rw [List.getElem?_modify]
  split
  · right
    rcases h i with h | h <;> rw [h] <;> cases ops[i]? <;> rfl
  · simpa using h i

theorem holdings_reclaim (s : Session F) (expired : OperationId → Bool) :
    ∃ operations, (s.reclaim expired).2.holdings =
        { s.holdings with callbacks := { s.callbacks with operations } } ∧
      Told s.operations operations := by
  have every : ∀ (leaking : List (CallbackOperation F × OperationId)) (t : Session F),
      (∃ operations, t.holdings = { s.holdings with callbacks := { s.callbacks with operations } } ∧
        Told s.operations operations) →
      ∃ operations, (leaking.foldl (fun s (_, id) => s.stop id) t).holdings =
          { s.holdings with callbacks := { s.callbacks with operations } } ∧
        Told s.operations operations := by
    intro leaking
    induction leaking with
    | nil => exact fun _ h => h
    | cons first rest ih =>
      rintro t ⟨operations, ht, htold⟩
      refine ih (t.stop first.2) ⟨_, ?_, htold.stop first.2⟩
      have hstop : (t.stop first.2).holdings = { t.holdings with callbacks := {
          t.holdings.callbacks with operations :=
            t.holdings.callbacks.operations.modify first.2 CallbackOperation.stopped } } :=
        Session.holdings_wake _ _
      rw [hstop, ht]
  exact every _ s ⟨s.operations, rfl, fun _ => .inl rfl⟩

theorem holdings_launch (s : Session F) (label : String) (endpoints : List Opened)
    (slots : List (Slot F)) (parent : LineageId) :
    (s.launch label endpoints slots parent).2.holdings = { s.holdings with callbacks :=
      { s.callbacks with
        unclaimed := s.unclaimed.filter fun u => u.2 ∉ endpoints.map (·.endpoint)
        operations := s.operations ++ [.started label endpoints slots parent] } } := by
  unfold Session.launch
  dsimp only
  rw [Session.holdings_wake]
  rfl

end Callbacks

end RemoteHost
