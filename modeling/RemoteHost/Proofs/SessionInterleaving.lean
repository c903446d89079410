import Mathlib.Logic.Function.Basic
import RemoteHost.Invocation
import RemoteHost.Proofs.CallbackFrames

/-!
# Sessions with everything interleaved

A scene is a session together with what its parties are in the middle of and the history that led to
it. A move is the smallest thing that can happen: a party makes one request, a callback operation
takes one payload, a function returns, or something comes from outside. Any order of moves is a
schedule, so what holds after every list of moves holds whoever runs when. What the functions of
slots do is left open: one that was called can use the library as it likes and return at any moment.
-/

namespace RemoteHost

variable {F : Type}

/-- What a party can have the library do for it. -/
inductive Service (F : Type) where
  | evaluate (expression : String) (shape : ResultShape) (lineage : LineageId)
  | installPrelude (lineage : LineageId)
  | release (lineage : LineageId)
  | invoke (label template : String) (shape : ResultShape) (slots : List (Slot F))
      (lineage : LineageId)

/-- What a service results in if it succeeds. -/
def Service.Result : Service F → Type
  | .evaluate _ _ _ => Outcome
  | .installPrelude _ => Json
  | .release _ => Nat
  | .invoke _ _ _ _ _ => Invoked

def Service.job (s : Settings) : (service : Service F) → Job F service.Result
  | .evaluate expression shape lineage => RemoteHost.evaluate s expression shape lineage
  | .installPrelude lineage => RemoteHost.installPrelude s lineage
  | .release lineage => releaseHandles s lineage
  | .invoke label template shape slots lineage =>
    RemoteHost.invoke s label template shape slots lineage

/-- A service that a party is in the middle of. -/
structure Engagement (F : Type) where
  service : Service F
  rest : Routine F (Except Fault service.Result)

/-- What a callback operation goes through. -/
inductive Deed where
  | called (slot : Nat) (outcome : Outcome)
  | returned (verdict : Verdict)
  | ended (report : OperationReport)

inductive Occurrence (F : Type) where
  | began (p : Party) (service : Service F)
  | asked (p : Party) (request : Request F) (reply : request.Reply)
  | gained (p : Party) (service : Service F) (result : Except Fault service.Result)
  | abandoned (p : Party)
  /-- The host's payload was received at an endpoint. -/
  | arrived (endpoint : EndpointId) (payload : Json)
  /-- A payload was taken out of an endpoint by its operation. -/
  | taken (endpoint : EndpointId) (payload : Json)
  /-- An endpoint was closed by its operation. -/
  | closed (endpoint : EndpointId)
  | operation (id : OperationId) (deed : Deed)

/-- Whether an occurrence is about nothing that arrives at endpoints or comes of it. -/
def Occurrence.isCalm : Occurrence F → Bool
  | .asked _ (.closeEndpoint _) _ | .arrived _ _ | .taken _ _ | .closed _ | .operation _ _ => false
  | _ => true

/-- A session with what its parties are in the middle of, and what has happened. -/
structure Scene (F : Type) where
  session : Session F
  busy : Party → Option (Engagement F) := fun _ => none
  history : List (Occurrence F) := []

inductive Move (F : Type) where
  | begin (p : Party) (service : Service F)
  /-- A party makes its next request, waits for the answer to it, or is done. -/
  | go (p : Party)
  | abandon (p : Party)
  | addLineage (label : String) (parent : Option LineageId)
  /-- Something changes at the host's side of the connection. -/
  | host (host : Host)
  | fire (token : String) (payload : Json)
  | hangUp (token : String)
  | reclaim (expired : OperationId → Bool)
  /-- An operation looks at the endpoint of one of its slots. -/
  | look (id : OperationId) (slot : Nat)
  /-- An operation sees that it has to stop. -/
  | stop (id : OperationId)
  /-- An operation finds that none of its slots listens any more. -/
  | exhaust (id : OperationId)
  /-- The function that an operation called comes to its end. -/
  | conclude (id : OperationId) (verdict : Verdict)

/-- Functions of slots that return at once. -/
def returning : Behaviour Unit := fun _ _ => .done (.returned (.ok .nothing))

namespace Scene

/-- Whether an operation is in the middle of calling a function. -/
def isCalling (w : Scene F) (id : OperationId) : Bool :=
  match w.session.operations[id]? with
  | some op => match op.stage with
    | .calling _ => true
    | _ => false
  | none => false

/-- Whether a party has nothing else to do. An operation acts only through the function it calls. -/
def isFree (w : Scene F) (p : Party) : Bool :=
  (w.busy p).isNone && match p with
    | .callback id => w.isCalling id
    | _ => true

theorem busy_of_isFree {w : Scene F} {p : Party} (h : w.isFree p = true) : w.busy p = none := by
  simpa using (Bool.and_eq_true_iff.mp h).1

def begin (w : Scene F) (p : Party) (service : Service F) : Scene F :=
  if w.isFree p then
    { w with
      busy := Function.update w.busy p (some ⟨service, (service.job w.session.settings).run⟩)
      history := w.history ++ [.began p service] }
  else w

def go (w : Scene F) (p : Party) : Scene F :=
  match w.busy p with
  | none => w
  | some ⟨service, .done result⟩ =>
    { w with
      busy := Function.update w.busy p none
      history := w.history ++ [.gained p service result] }
  | some ⟨service, .ask request next⟩ =>
    match w.session.answer p request with
    | (none, s) => { w with session := s }
    | (some reply, s) =>
      { session := s
        busy := Function.update w.busy p (some ⟨service, next reply⟩)
        history := w.history ++ [.asked p request reply] }

def abandon (w : Scene F) (p : Party) : Scene F :=
  if (w.busy p).isSome then
    { session := w.session.abandon p
      busy := Function.update w.busy p none
      history := w.history ++ [.abandoned p] }
  else w

def fire (w : Scene F) (token : String) (payload : Json) : Scene F :=
  { w with
    session := (w.session.fire token payload).2
    history := w.history ++ match w.session.board.send token payload with
      | (some endpoint, _) => [.arrived endpoint payload]
      | (none, _) => [] }

/-- What comes of a payload that an operation takes. -/
def takingDeeds (id : OperationId) (slot : Nat) (listener : Listener F) (payload : Json) :
    List (Occurrence F) :=
  .taken listener.opened.endpoint payload :: match listener.slot.accepts? payload with
    | some outcome => [.operation id (.called slot outcome)]
    | none => []

def look (behave : Behaviour F) (w : Scene F) (id : OperationId) (op : CallbackOperation F)
    (slot : Nat) : Scene F :=
  match op.stage, op.listeners[slot]? with
  | .listening, some listener =>
    if listener.listening then
      match w.session.board.sighting listener.opened.endpoint with
      | .silent => w
      | .over => { w with session := w.session.spend.modifyOperation id (·.deafen slot) }
      | .payload payload =>
        { w with
          session := w.session.spend.deliver behave id op listener payload
          history := w.history ++ takingDeeds id slot listener payload }
    else w
  | _, _ => w

def stop (w : Scene F) (id : OperationId) (op : CallbackOperation F) : Scene F :=
  match op.stage with
  | .listening =>
    if op.stopping && op.listeners.any (·.listening) then
      { w with
        session := (op.endpoints.foldl Session.closeEndpoint w.session).finish id op .reclaimed
        history := w.history ++ op.endpoints.map .closed ++
          [.operation id (.ended (op.report .reclaimed))] }
    else w
  | _ => w

def exhaust (w : Scene F) (id : OperationId) (op : CallbackOperation F) : Scene F :=
  match op.stage with
  | .listening =>
    if op.listeners.all (!·.listening) then
      { w with
        session := w.session.finish id op .endpointsClosed
        history := w.history ++ [.operation id (.ended (op.report .endpointsClosed))] }
    else w
  | _ => w

/-- What follows the end of a call. -/
def conclusion (id : OperationId) (op : CallbackOperation F) (cardinality : Cardinality) :
    Verdict → List (Occurrence F)
  | .died => [.operation id (.ended (op.report .aborted))]
  | .returned _ =>
    match cardinality with
    | .repeatable => []
    | .oneShot =>
      op.endpoints.map .closed ++ [.operation id (.ended (op.resumed.report .oneShotFired))]

def conclude (w : Scene F) (id : OperationId) (op : CallbackOperation F) (verdict : Verdict) :
    Scene F :=
  match op.stage with
  | .calling call =>
    if (w.busy (.callback id)).isNone then
      { w with
        session := w.session.conclude id op call verdict
        history := w.history ++ [.operation id (.returned verdict)] ++
          conclusion id op call.cardinality verdict }
    else w
  | _ => w

/-- Lets an operation make a move, if there is one of that number. -/
def withOperation (w : Scene F) (id : OperationId)
    (f : CallbackOperation F → Scene F) : Scene F :=
  match w.session.operations[id]? with
  | none => w
  | some op => f op

theorem withOperation_cases {P : Scene F → Prop} {w : Scene F} {id : OperationId}
    {f : CallbackOperation F → Scene F} (hnone : P w)
    (hsome : ∀ op, w.session.operations[id]? = some op → P (f op)) : P (w.withOperation id f) := by
  unfold withOperation
  split
  · exact hnone
  · rename_i op hop
    exact hsome op hop

/-- The scene after a move. A move that is not possible changes nothing. -/
def act (behave : Behaviour F) (w : Scene F) : Move F → Scene F
  | .begin p service => w.begin p service
  | .go p => w.go p
  | .abandon p => w.abandon p
  | .addLineage label parent => { w with session := (w.session.addLineage label parent).2 }
  | .host host => { w with session := { w.session with host } }
  | .fire token payload => w.fire token payload
  | .hangUp token => { w with session := (w.session.hangUp token).2 }
  | .reclaim expired => { w with session := (w.session.reclaim expired).2 }
  | .look id slot => w.withOperation id fun op => w.look behave id op slot
  | .stop id => w.withOperation id fun op => w.stop id op
  | .exhaust id => w.withOperation id fun op => w.exhaust id op
  | .conclude id verdict => w.withOperation id fun op => w.conclude id op verdict

def run (behave : Behaviour F) (w : Scene F) (moves : List (Move F)) : Scene F :=
  moves.foldl (act behave) w

theorem run_append (behave : Behaviour F) (w : Scene F) (moves moves' : List (Move F)) :
    w.run behave (moves ++ moves') = (w.run behave moves).run behave moves' :=
  List.foldl_append

/-- A new session, in which nobody does anything yet. -/
def start (settings : Settings) (host : Host) : Scene F where
  session := { settings, host }

/-- What holds at first and is kept by every move holds after every schedule. -/
theorem run_induction {behave : Behaviour F} {P : Scene F → Prop} {w : Scene F}
    (h : P w) (step : ∀ w move, P w → P (w.act behave move)) (moves : List (Move F)) :
    P (w.run behave moves) := by
  induction moves generalizing w with
  | nil => exact h
  | cons move moves ih => exact ih (step w move h)

/-! ## Turns of operations -/

/-- What moves of an operation can do. -/
inductive Turn (w : Scene F) (id : OperationId) (op : CallbackOperation F) :
    Move F → Scene F → Prop where
  | idle {move : Move F} : Turn w id op move w
  | deafened {session : Session F} {slot : Nat} {listener : Listener F}
      (hstage : op.stage = .listening) (hget : op.listeners[slot]? = some listener)
      (hover : w.session.board.sighting listener.opened.endpoint = .over)
      (hsession : session.callbacks = { w.session.callbacks with
        operations := w.session.operations.modify id (·.deafen slot) }) :
      Turn w id op (.look id slot) { w with session }
  | refused {session : Session F} {slot : Nat} {listener : Listener F} {payload : Json}
      (hstage : op.stage = .listening) (hget : op.listeners[slot]? = some listener)
      (hlistening : listener.listening = true)
      (hseen : w.session.board.sighting listener.opened.endpoint = .payload payload)
      (hrefused : listener.slot.accepts? payload = none)
      (hsession : session.callbacks = { w.session.callbacks with
        board := w.session.board.take listener.opened.endpoint }) :
      Turn w id op (.look id slot) { w with
        session, history := w.history ++ [.taken listener.opened.endpoint payload] }
  | called {session : Session F} {slot : Nat} {listener : Listener F} {payload : Json}
      {outcome : Outcome} {call : Calling F}
      (hstage : op.stage = .listening) (hget : op.listeners[slot]? = some listener)
      (hlistening : listener.listening = true)
      (hseen : w.session.board.sighting listener.opened.endpoint = .payload payload)
      (haccepted : listener.slot.accepts? payload = some outcome)
      (hcall : call.cardinality = listener.slot.cardinality)
      (hsession : session.callbacks = { w.session.callbacks with
        board := w.session.board.take listener.opened.endpoint
        operations := w.session.operations.modify id ({ · with stage := .calling call }) }) :
      Turn w id op (.look id slot) { w with session, history := w.history ++
        [.taken listener.opened.endpoint payload, .operation id (.called slot outcome)] }
  | resumed {session : Session F} {call : Calling F} {result : Except Fault Reaction}
      (hstage : op.stage = .calling call) (hcall : call.cardinality = .repeatable)
      (hsession : session.callbacks = { w.session.callbacks with
        operations := w.session.operations.modify id fun _ => op.resumed }) :
      Turn w id op (.conclude id (.returned result)) { w with
        session, history := w.history ++ [.operation id (.returned (.returned result))] }
  | fired {session : Session F} {call : Calling F} {result : Except Fault Reaction}
      (hstage : op.stage = .calling call) (hcall : call.cardinality = .oneShot)
      (hends : Callbacks.Ends id op.resumed .oneShotFired w.session.callbacks session.callbacks) :
      Turn w id op (.conclude id (.returned result)) { w with session, history := w.history ++
        ([.operation id (.returned (.returned result))] ++ op.endpoints.map .closed ++
          [.operation id (.ended (op.resumed.report .oneShotFired))]) }
  | died {session : Session F} {call : Calling F} (hstage : op.stage = .calling call)
      (hends : Callbacks.Ends id op .aborted w.session.callbacks session.callbacks) :
      Turn w id op (.conclude id .died) { w with session, history := w.history ++
        [.operation id (.returned .died), .operation id (.ended (op.report .aborted))] }
  | stopped {session : Session F} (hstage : op.stage = .listening)
      (hends : Callbacks.Ends id op .reclaimed w.session.callbacks session.callbacks) :
      Turn w id op (.stop id) { w with session, history := w.history ++ (op.endpoints.map .closed ++
        [.operation id (.ended (op.report .reclaimed))]) }
  | exhausted {session : Session F} (hstage : op.stage = .listening)
      (hdeaf : ∀ listener ∈ op.listeners, listener.listening = false)
      (hends : Callbacks.Ends id op .endpointsClosed w.session.callbacks session.callbacks) :
      Turn w id op (.exhaust id) { w with session, history := w.history ++
        [.operation id (.ended (op.report .endpointsClosed))] }

variable {w : Scene F} {id : OperationId} {op : CallbackOperation F}

theorem turn_look (behave : Behaviour F) (slot : Nat) :
    Turn w id op (.look id slot) (w.look behave id op slot) := by
  unfold look
  split
  · rename_i listener hstage hget
    split
    · rename_i hlistening
      split
      · exact .idle
      · rename_i hover
        exact .deafened hstage hget hover rfl
      · rename_i payload hseen
        cases haccepts : listener.slot.accepts? payload with
        | none =>
          rw [takingDeeds, haccepts]
          exact .refused hstage hget hlistening hseen haccepts
            (Callbacks.deliver_refused behave w.session.spend id op haccepts)
        | some outcome =>
          obtain ⟨call, hcall, hsession⟩ :=
            Callbacks.deliver_accepted behave w.session.spend id op haccepts
          rw [takingDeeds, haccepts]
          exact .called hstage hget hlistening hseen haccepts hcall hsession
    · exact .idle
  · exact .idle

theorem turn_stop (hop : w.session.operations[id]? = some op) :
    Turn w id op (.stop id) (w.stop id op) := by
  unfold stop
  split
  · rename_i hstage
    split
    · rw [List.append_assoc]
      exact .stopped hstage (Callbacks.ends_closing hop _)
    · exact .idle
  · exact .idle

theorem turn_exhaust (hop : w.session.operations[id]? = some op) :
    Turn w id op (.exhaust id) (w.exhaust id op) := by
  unfold exhaust
  split
  · rename_i hstage
    split
    · rename_i hdeaf
      exact .exhausted hstage (by simpa using hdeaf) (Callbacks.ends_finish hop _)
    · exact .idle
  · exact .idle

theorem turn_conclude (hop : w.session.operations[id]? = some op) (verdict : Verdict) :
    Turn w id op (.conclude id verdict) (w.conclude id op verdict) := by
  unfold conclude
  split
  · rename_i call hstage
    split
    · cases verdict with
      | died =>
        rw [List.append_assoc]
        exact .died hstage (Callbacks.conclude_died hop call)
      | returned result =>
        cases hcall : call.cardinality with
        | repeatable =>
          rw [conclusion, List.append_nil]
          exact .resumed hstage hcall
            (Callbacks.conclude_repeatable w.session id op hcall result)
        | oneShot =>
          rw [conclusion, List.append_assoc]
          exact .fired hstage hcall (Callbacks.conclude_oneShot hop hcall result)
    · exact .idle
  · exact .idle

/-! ## Histories -/

theorem history_of_turn {w' : Scene F} {move : Move F} (hturn : Turn w id op move w') :
    w.history <+: w'.history := by
  cases hturn with
  | idle | deafened => exact List.prefix_rfl
  | refused | called | resumed | fired | died | stopped | exhausted => exact List.prefix_append ..

theorem history_act (behave : Behaviour F) (w : Scene F) (move : Move F) :
    w.history <+: (w.act behave move).history := by
  have turn : ∀ (id : OperationId) (f : CallbackOperation F → Scene F),
      (∀ op, w.session.operations[id]? = some op → Turn w id op move (f op)) →
      w.history <+: (w.withOperation id f).history := by
    intro id f hf
    exact withOperation_cases (P := fun w' => w.history <+: w'.history) List.prefix_rfl
      fun op hop => history_of_turn (hf op hop)
  cases move with
  | begin p service =>
    simp only [act, begin]
    split
    · exact List.prefix_append ..
    · exact List.prefix_rfl
  | go p =>
    simp only [act, go]
    split
    · exact List.prefix_rfl
    · exact List.prefix_append ..
    · split
      · exact List.prefix_rfl
      · exact List.prefix_append ..
  | abandon p =>
    simp only [act, abandon]
    split
    · exact List.prefix_append ..
    · exact List.prefix_rfl
  | fire token payload => exact List.prefix_append ..
  | addLineage | host | hangUp | reclaim => exact List.prefix_rfl
  | look id slot => exact turn id _ fun op _ => turn_look behave slot
  | stop id => exact turn id _ fun op hop => turn_stop hop
  | exhaust id => exact turn id _ fun op hop => turn_exhaust hop
  | conclude id verdict => exact turn id _ fun op hop => turn_conclude hop verdict

theorem history_run (behave : Behaviour F) (w : Scene F) (moves : List (Move F)) :
    w.history <+: (w.run behave moves).history := by
  induction moves generalizing w with
  | nil => exact List.prefix_rfl
  | cons move moves ih => exact (history_act behave w move).trans (ih (w.act behave move))

/-! ## The library's own dispatcher -/

/-- The first sighting is one at a listening slot, and all listening slots before it see nothing. -/
theorem firstSighting_eq_some {board : Board} {listeners : List (Listener F)} {i : Nat}
    {seen : Sighting} (h : Session.firstSighting board listeners = some (i, seen)) :
    (∃ listener, listeners[i]? = some listener ∧ listener.listening = true ∧
      board.sighting listener.opened.endpoint = seen ∧ seen ≠ .silent) ∧
    ∀ j < i, ∀ listener, listeners[j]? = some listener → listener.listening = true →
      board.sighting listener.opened.endpoint = .silent := by
  induction listeners generalizing i seen with
  | nil => cases h
  | cons first rest ih =>
    have later : ∀ {i seen}, (Session.firstSighting board rest).map
        (fun found => (found.1 + 1, found.2)) = some (i, seen) →
        (first.listening = true → board.sighting first.opened.endpoint = .silent) →
        (∃ listener, (first :: rest)[i]? = some listener ∧ listener.listening = true ∧
          board.sighting listener.opened.endpoint = seen ∧ seen ≠ .silent) ∧
        ∀ j < i, ∀ listener, (first :: rest)[j]? = some listener → listener.listening = true →
          board.sighting listener.opened.endpoint = .silent := by
      intro i seen hlater hfirst
      obtain ⟨⟨k, found⟩, hk, heq⟩ := Option.map_eq_some_iff.mp hlater
      cases heq
      obtain ⟨hfound, hbefore⟩ := ih hk
      refine ⟨by simpa using hfound, ?_⟩
      intro j hj listener hget hlistening
      cases j with
      | zero =>
        cases hget
        exact hfirst hlistening
      | succ j => exact hbefore j (by omega) listener (by simpa using hget) hlistening
    rw [Session.firstSighting] at h
    split at h
    · rename_i hlistening
      split at h
      · rename_i hsilent
        exact later h fun _ => hsilent
      · rename_i hseen
        cases h
        exact ⟨⟨first, rfl, hlistening, rfl, hseen⟩, by omega⟩
    · rename_i hdeaf
      exact later h fun hlistening => absurd hlistening hdeaf

theorem firstSighting_of_payload {board : Board} {listeners : List (Listener F)} {i : Nat}
    {listener : Listener F} {payload : Json} (hget : listeners[i]? = some listener)
    (hlistening : listener.listening = true)
    (hseen : board.sighting listener.opened.endpoint = .payload payload)
    (hbefore : ∀ j < i, ∀ other, listeners[j]? = some other →
      board.sighting other.opened.endpoint = .silent) :
    Session.firstSighting board listeners = some (i, .payload payload) := by
  induction listeners generalizing i with
  | nil => cases hget
  | cons first rest ih =>
    cases i with
    | zero =>
      cases hget
      simp [Session.firstSighting, hlistening, hseen]
    | succ i =>
      have hsilent := hbefore 0 (Nat.succ_pos i) first rfl
      have hlater := ih (i := i) hget fun j hj other hother =>
        hbefore (j + 1) (Nat.succ_lt_succ hj) other hother
      simp [Session.firstSighting, hsilent, hlater]

/-- What an operation that listens does next is one of the moves. -/
theorem listen_is_move {behave : Behaviour F} {w : Scene F} {id : OperationId}
    {op : CallbackOperation F} {s : Session F} (hop : w.session.operations[id]? = some op)
    (hstage : op.stage = .listening) (h : w.session.listen behave id op = some s) :
    (w.act behave (.exhaust id)).session = s ∨ (w.act behave (.stop id)).session = s ∨
      ∃ slot seen, Session.firstSighting w.session.board op.listeners = some (slot, seen) ∧
        (w.act behave (.look id slot)).session = s := by
  unfold Session.listen at h
  split at h
  · rename_i hdeaf
    left
    simpa [act, withOperation, hop, exhaust, hstage, hdeaf] using h
  · rename_i hlistening
    split at h
    · cases h
    · split at h
      · rename_i hstopping
        right; left
        have hany : op.listeners.any (·.listening) = true := by
          simpa [List.all_eq_not_any_not] using hlistening
        simpa [act, withOperation, hop, stop, hstage, hstopping, hany] using h
      · split at h
        · cases h
        · rename_i slot seen hseen
          right; right
          refine ⟨slot, seen, hseen, ?_⟩
          obtain ⟨⟨listener, hget, hlisten, hsight, hne⟩, -⟩ := firstSighting_eq_some hseen
          simp only [act, withOperation, hop, look, hstage, hget, hlisten, if_true, hsight]
          cases seen with
          | silent => exact absurd rfl hne
          | payload payload => simpa [hget] using h
          | _ => simpa using h

end Scene

end RemoteHost
