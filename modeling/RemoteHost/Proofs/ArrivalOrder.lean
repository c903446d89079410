import Mathlib.Data.Nat.Find
import RemoteHost.Catalogue.Panel
import RemoteHost.Proofs.ArrivalLines

/-!
# Arrival order

An operation calls its functions in the order in which payloads arrived, whoever runs when, exactly
if no payload up to the first one-shot one is followed by one for a lower slot. Otherwise a look
that comes late enough finds the later payload first.
-/

namespace RemoteHost

variable {F : Type}

namespace Scene

/-- An operation that listens at all its slots and has not been sent anything yet. -/
structure Ready (w : Scene F) (id : OperationId) (op : CallbackOperation F) : Prop where
  known : w.session.operations[id]? = some op
  stage : op.stage = .listening
  free : w.busy (.callback id) = none
  attentive : ∀ listener ∈ op.listeners, listener.listening = true ∧
    w.session.board.find listener.opened.token = some listener.opened.endpoint
  unused : ∀ e ∈ op.endpoints, arrivals w.history e = []

def isReady (w : Scene F) (id : OperationId) (op : CallbackOperation F) : Bool :=
  (match op.stage with
    | .listening => true
    | _ => false) && (w.busy (.callback id)).isNone &&
    (op.listeners.all fun listener => listener.listening &&
      w.session.board.find listener.opened.token = some listener.opened.endpoint) &&
    op.endpoints.all fun e => (arrivals w.history e).isEmpty

/-- Nothing is left for an operation to do. -/
def AtRest (w : Scene F) (id : OperationId) : Prop :=
  ∃ op, w.session.operations[id]? = some op ∧ (op.stage = .ended .oneShotFired ∨
    op.stage = .listening ∧ ∀ e ∈ op.endpoints, Board.inbox w.session.board e = [])

/-- An operation called its functions in the order in which payloads arrived. -/
structure InArrivalOrder (w : Scene F) (id : OperationId) (op : CallbackOperation F)
    (ps : List (Nat × Json)) : Prop where
  ordered : calls (story w.history id) <+: ps.filterMap (callFor op.lanes)
  /-- Payloads for repeatable slots and then one for a one-shot slot give one call each. -/
  counted : ∀ repeated last, ps = repeated ++ [last] →
    (∀ posting ∈ repeated, hasCardinality op.slots posting.1 .repeatable) →
    hasCardinality op.slots last.1 .oneShot → w.AtRest id →
      calls (story w.history id) = ps.filterMap (callFor op.lanes) ∧
        callCount (story w.history id) = repeated.length + 1

variable {behave : Behaviour F} {w : Scene F} {id : OperationId} {op : CallbackOperation F}
  {lanes : List (Slot F × EndpointId)}

theorem ready_of_isReady (hop : w.session.operations[id]? = some op)
    (h : w.isReady id op = true) : Ready w id op := by
  simp only [isReady, Bool.and_eq_true, List.all_eq_true, List.isEmpty_iff,
    Option.isNone_iff_eq_none, decide_eq_true_eq] at h
  obtain ⟨⟨⟨hlistening, hfree⟩, hattentive⟩, hunused⟩ := h
  have hstage : op.stage = .listening := by
    cases hcase : op.stage with
    | listening => rfl
    | calling | ended => simp [hcase] at hlistening
  exact ⟨hop, hstage, hfree, hattentive, hunused⟩

/-! ## Unhurried payloads -/

theorem Ready.postings_eq_nil (h : Ready w id op) : postings op.lanes w.history = [] := by
  refine List.filterMap_eq_nil_iff.mpr fun o ho => ?_
  cases o with
  | arrived e payload =>
    cases hslot : slotAt? op.lanes e with
    | none => simp [hslot]
    | some slot =>
      obtain ⟨lane, hlane, rfl⟩ := lane_of_slotAt? hslot
      obtain ⟨listener, hlistener, rfl⟩ := lanes_getElem?.mp hlane
      have hnone := h.unused _ (mem_endpoints (List.mem_of_getElem? hlistener))
      have hpayload : payload ∈ arrivals w.history listener.opened.endpoint :=
        List.mem_filterMap.mpr ⟨_, ho, if_pos rfl⟩
      rw [hnone] at hpayload
      cases hpayload
  | _ => rfl

theorem Ready.queued_eq_nil (h : Ready w id op) (hcoursing : Coursing w.session.callbacks w.history)
    {slot : Nat} {listener : Listener F} (hget : op.listeners[slot]? = some listener) :
    takings w.history listener.opened.endpoint = [] ∧
      Board.inbox w.session.board listener.opened.endpoint = [] := by
  have hnone := hcoursing.queued listener.opened.endpoint
  rw [h.unused _ (mem_endpoints (List.mem_of_getElem? hget))] at hnone
  exact List.append_eq_nil_iff.mp hnone.symm

theorem Ready.calls_eq_nil (h : Ready w id op)
    (hcoursing : Coursing w.session.callbacks w.history) : calls (story w.history id) = [] := by
  have hcourse := hcoursing.courses id op h.known
  refine List.filterMap_eq_nil_iff.mpr fun deed hdeed => ?_
  cases deed with
  | called slot outcome =>
    obtain ⟨cardinality, hslot⟩ := hcourse.tells.slot_of_mem hdeed
    obtain ⟨found, hfound, -⟩ := Option.map_eq_some_iff.mp hslot
    obtain ⟨listener, hlistener, -⟩ : ∃ listener, op.listeners[slot]? = some listener ∧
        listener.slot = found := by
      simpa [CallbackOperation.slots] using hfound
    have hcall : outcome ∈ callsAt slot (story w.history id) :=
      List.mem_filterMap.mpr ⟨_, hdeed, if_pos rfl⟩
    rw [hcourse.lanes slot listener hlistener, (h.queued_eq_nil hcoursing hlistener).1] at hcall
    cases hcall
  | returned | ended => rfl

theorem Ready.lined (h : Ready w id op) (hcoursing : Coursing w.session.callbacks w.history) :
    Lined w id op.lanes := by
  refine ⟨⟨op, h.known, rfl⟩, [], [], h.postings_eq_nil, h.calls_eq_nil hcoursing, ?_⟩
  intro slot lane hlane
  obtain ⟨listener, hlistener, rfl⟩ := lanes_getElem?.mp hlane
  exact (h.queued_eq_nil hcoursing hlistener).2

/-- The call of a one-shot slot that an operation has ended with. -/
theorem fired_call {history : List (Occurrence F)} {c : Callbacks F}
    (hcourse : Course c history id op) (hstage : op.stage = .ended .oneShotFired) :
    ∃ call ∈ calls (story history id), hasCardinality op.slots call.1 .oneShot := by
  obtain ⟨n, rounds, finale, -, hfinale, hstory⟩ := hcourse.tells
  rw [hstage] at hfinale
  cases hfinale with
  | @fired _ slot outcome result hcount hslot =>
    refine ⟨(slot, outcome), ?_, hslot⟩
    rw [hstory, calls_append]
    exact List.mem_append_right _ (by simp [calls])

theorem mem_of_call {taken : List (Nat × Json)} {call : Nat × Outcome}
    (h : call ∈ taken.filterMap (callFor lanes)) : ∃ posting ∈ taken, posting.1 = call.1 := by
  obtain ⟨posting, hmem, hcall⟩ := List.mem_filterMap.mp h
  obtain ⟨lane, -, hlane⟩ := Option.bind_eq_some_iff.mp hcall
  obtain ⟨outcome, -, rfl⟩ := Option.map_eq_some_iff.mp hlane
  exact ⟨posting, hmem, rfl⟩

theorem length_calls {ps : List (Nat × Json)}
    (haccepted : ∀ posting ∈ ps, (callFor lanes posting).isSome) :
    (ps.filterMap (callFor lanes)).length = ps.length := by
  rw [List.length_filterMap_eq_countP]
  exact List.countP_eq_length.mpr haccepted

/-- Once a one-shot slot has fired nothing waits, if the one-shot payload was the last to arrive. -/
theorem waiting_eq_nil_of_fired {taken waiting : List (Nat × Json)}
    (hcourse : Course w.session.callbacks w.history id op)
    (hline : InLine w.session.board w.history id op.lanes taken waiting)
    (hfired : op.stage = .ended .oneShotFired) {repeated : List (Nat × Json)} {last : Nat × Json}
    (hps : taken ++ waiting = repeated ++ [last])
    (hrepeated : ∀ posting ∈ repeated, hasCardinality op.slots posting.1 .repeatable) :
    waiting = [] := by
  obtain ⟨call, hcall, honeShot⟩ := fired_call hcourse hfired
  rw [hline.calls] at hcall
  obtain ⟨posting, hmem, hslot⟩ := mem_of_call hcall
  rw [← hslot] at honeShot
  rcases List.eq_nil_or_concat waiting with hnil | ⟨others, final, rfl⟩
  · exact hnil
  · rw [List.concat_eq_append, ← List.append_assoc] at hps
    obtain ⟨rfl, -⟩ := List.append_inj' hps rfl
    have hrepeatable := hrepeated posting (List.mem_append_left _ hmem)
    rw [hasCardinality, honeShot] at hrepeatable
    cases hrepeatable

theorem waiting_eq_nil_of_empty {taken waiting : List (Nat × Json)}
    (hline : InLine w.session.board w.history id op.lanes taken waiting)
    (hempty : ∀ e ∈ op.endpoints, Board.inbox w.session.board e = []) : waiting = [] := by
  cases waiting with
  | nil => rfl
  | cons posting others =>
    have hposted : posting ∈ postings op.lanes w.history := by
      rw [hline.postings]
      simp
    obtain ⟨lane, hlane⟩ := lane_of_posting hposted
    have hinbox := hline.inboxes posting.1 lane hlane
    obtain ⟨listener, hlistener, rfl⟩ := lanes_getElem?.mp hlane
    have hnothing := hempty _ (mem_endpoints (List.mem_of_getElem? hlistener))
    dsimp only at hinbox
    rw [hnothing] at hinbox
    simp [waitingFor] at hinbox

/-- An operation that keeps its line calls in the order of arrival. -/
theorem inArrivalOrder_of_lined (hcoursing : Coursing w.session.callbacks w.history)
    (h : Lined w id op.lanes)
    (haccepted : ∀ posting ∈ postings op.lanes w.history, (callFor op.lanes posting).isSome) :
    InArrivalOrder w id op (postings op.lanes w.history) := by
  obtain ⟨⟨now, hnow, hlanes⟩, taken, waiting, hline⟩ := h
  have hslots : now.slots = op.slots := by
    rw [← now.lanes_slots, ← op.lanes_slots, hlanes]
  rw [hline.postings] at haccepted ⊢
  have hcalls : calls (story w.history id) = taken.filterMap (callFor op.lanes) := hline.calls
  refine ⟨?_, fun repeated last hps hrepeated hlast hrest => ?_⟩
  · rw [hcalls, List.filterMap_append]
    exact List.prefix_append ..
  · rw [← hslots] at hrepeated
    rw [← hlanes] at hline
    have hall : waiting = [] := by
      obtain ⟨settled, hsettled, hdone⟩ := hrest
      rw [hnow] at hsettled
      cases hsettled
      rcases hdone with hfired | ⟨-, hempty⟩
      · exact waiting_eq_nil_of_fired (hcoursing.courses id now hnow) hline hfired hps hrepeated
      · exact waiting_eq_nil_of_empty hline hempty
    subst hall
    rw [List.append_nil] at haccepted hps ⊢
    refine ⟨hcalls, ?_⟩
    rw [callCount_eq_length, hcalls, length_calls haccepted, hps, List.length_append,
      List.length_singleton]

/-! ## Hurried payloads -/

/-- An operation that can be sent to and looks when it is told to, with what waits for it. It may
have called functions before. -/
structure Attentive (w : Scene F) (id : OperationId) (op : CallbackOperation F)
    (waiting : List (Nat × Json)) : Prop where
  known : ∃ now, w.session.operations[id]? = some now ∧ now.listeners = op.listeners ∧
    now.stage = .listening
  free : w.busy (.callback id) = none
  attentive : ∀ listener ∈ op.listeners, listener.listening = true ∧
    w.session.board.find listener.opened.token = some listener.opened.endpoint
  isOpen : ∀ e ∈ op.endpoints, w.session.board.isOpen e = true
  apart : op.endpoints.Nodup
  inboxes : ∀ (slot : Nat) (listener : Listener F), op.listeners[slot]? = some listener →
    Board.inbox w.session.board listener.opened.endpoint = waitingFor slot waiting

theorem Ready.attends (h : Ready w id op) (howned : Owned w.session.callbacks w.busy)
    (hcoursing : Coursing w.session.callbacks w.history) : Attentive w id op [] where
  known := ⟨op, h.known, rfl, h.stage⟩
  free := h.free
  attentive := h.attentive
  isOpen e he := ((hcoursing.courses id op h.known).running (by simp [h.stage]) e he).1
  apart := howned.endpoints_nodup h.known
  inboxes slot listener hget := (h.queued_eq_nil hcoursing hget).2

variable {waiting : List (Nat × Json)}

theorem Attentive.fire (h : Attentive w id op waiting) {slot : Nat} {listener : Listener F}
    (hget : op.listeners[slot]? = some listener) (payload : Json) :
    Attentive (w.fire listener.opened.token payload) id op (waiting ++ [(slot, payload)]) ∧
      (w.fire listener.opened.token payload).history =
        w.history ++ [.arrived listener.opened.endpoint payload] := by
  have hmem := List.mem_of_getElem? hget
  have hopen := h.isOpen _ (mem_endpoints hmem)
  have hsend := Board.send_of_find (h.attentive listener hmem).2 hopen payload
  have hsession := Session.callbacks_of_holdings
    (Callbacks.holdings_fire w.session listener.opened.token payload)
  rw [hsend] at hsession
  have hoperations : (w.session.fire listener.opened.token payload).2.operations =
      w.session.operations := congrArg Callbacks.operations hsession
  have hboard : (w.session.fire listener.opened.token payload).2.board =
      w.session.board.modify listener.opened.endpoint
        fun e => { e with inbox := e.inbox ++ [payload] } := congrArg Callbacks.board hsession
  refine ⟨⟨?_, h.free, fun other hother => ⟨(h.attentive other hother).1, ?_⟩, fun e he => ?_,
    h.apart, fun i other hi => ?_⟩, ?_⟩
  · simpa [Scene.fire, hoperations] using h.known
  · dsimp only [Scene.fire]
    rw [hboard, Board.find_append]
    exact (h.attentive other hother).2
  · dsimp only [Scene.fire]
    rw [hboard, Board.isOpen_append]
    exact h.isOpen e he
  · dsimp only [Scene.fire]
    rw [hboard, Board.inbox_append (Board.lt_length_of_isOpen hopen), h.inboxes i other hi,
      waitingFor_append]
    by_cases hslot : slot = i
    · subst hslot
      rw [hget] at hi
      cases hi
      simp [waitingFor]
    · have hne : listener.opened.endpoint ≠ other.opened.endpoint := fun heq =>
        hslot (slot_eq h.apart hget hi heq)
      simp [waitingFor, hslot, hne]
  · simp [Scene.fire, hsend]

/-- What an operation sees first is the first payload that waits for the lowest slot. -/
theorem Attentive.firstSighting (h : Attentive w id op waiting) {slot : Nat} {listener : Listener F}
    (hget : op.listeners[slot]? = some listener) {payload : Json} {later : List Json}
    (hwaits : waitingFor slot waiting = payload :: later)
    (hlowest : ∀ i < slot, waitingFor i waiting = []) :
    w.session.board.sighting listener.opened.endpoint = .payload payload ∧
      Session.firstSighting w.session.board op.listeners = some (slot, .payload payload) := by
  have hmem := List.mem_of_getElem? hget
  have hseen : w.session.board.sighting listener.opened.endpoint = .payload payload := by
    have hinbox := h.inboxes slot listener hget
    rw [hwaits] at hinbox
    exact Board.sighting_of_inbox hinbox
  refine ⟨hseen, firstSighting_of_payload hget (h.attentive listener hmem).1 hseen ?_⟩
  intro i hi other hother
  have hother' := List.mem_of_getElem? hother
  have hnothing : Board.inbox w.session.board other.opened.endpoint = [] := by
    rw [h.inboxes i other hother, hlowest i hi]
  obtain ⟨e, he, -, hconnected⟩ := Board.find_eq_some (h.attentive other hother').2
  refine Board.sighting_eq_silent hnothing ?_ (h.isOpen _ (mem_endpoints hother'))
  rw [Board.isConnected, he]
  exact hconnected

/-- An operation that looks calls the function of the lowest slot that something waits for. -/
theorem Attentive.look (h : Attentive w id op waiting) (behave : Behaviour F) {slot : Nat}
    {listener : Listener F} (hget : op.listeners[slot]? = some listener) {payload : Json}
    {later : List Json} (hwaits : waitingFor slot waiting = payload :: later)
    (hlowest : ∀ i < slot, waitingFor i waiting = []) {outcome : Outcome}
    (haccepted : listener.slot.accepts? payload = some outcome) :
    w.isOrderly (.look id slot) = true ∧ ∃ (session : Session F) (call : Calling F)
      (now : CallbackOperation F), now.listeners = op.listeners ∧
      w.act behave (.look id slot) = ⟨session, w.busy, w.history ++
        takingOf id listener.opened.endpoint payload [.called slot outcome]⟩ ∧
      call.cardinality = listener.slot.cardinality ∧
      session.operations[id]? = some { now with stage := .calling call } ∧
      session.board = w.session.board.take listener.opened.endpoint := by
  obtain ⟨now, hnow, hlisteners, hstage⟩ := h.known
  obtain ⟨hseen, hfirst⟩ := h.firstSighting hget hwaits hlowest
  have hlistening := (h.attentive listener (List.mem_of_getElem? hget)).1
  obtain ⟨call, hcall, hsession⟩ :=
    Callbacks.deliver_accepted behave w.session.spend id now haccepted
  have hoperations : (w.session.spend.deliver behave id now listener payload).operations =
      w.session.operations.modify id ({ · with stage := .calling call }) :=
    congrArg Callbacks.operations hsession
  have hboard : (w.session.spend.deliver behave id now listener payload).board =
      w.session.board.take listener.opened.endpoint := congrArg Callbacks.board hsession
  refine ⟨by simp [isOrderly, hnow, hlisteners, hfirst], _, call, now, hlisteners, ?_, hcall, ?_,
    hboard⟩
  · simp [act, withOperation, hnow, Scene.look, hstage, hlisteners, hget, hlistening, hseen,
      takingDeeds, haccepted, takingOf]
  · simp [hoperations, hnow]

/-- The moves of an operation that calls a function once and goes on listening. -/
def oneCall (id : OperationId) (slot : Nat) : List (Move F) :=
  [.look id slot, .conclude id (.returned (.ok .nothing))]

theorem Attentive.answer {slot : Nat} {payload : Json}
    (h : Attentive w id op [(slot, payload)]) (behave : Behaviour F) {listener : Listener F}
    (hget : op.listeners[slot]? = some listener)
    (hrepeatable : listener.slot.cardinality = .repeatable) {outcome : Outcome}
    (haccepted : listener.slot.accepts? payload = some outcome) :
    w.isOrderlyRun behave (oneCall id slot) = true ∧
      Attentive (w.run behave (oneCall id slot)) id op [] ∧
      (w.run behave (oneCall id slot)).history = w.history ++
        takingOf id listener.opened.endpoint payload
          [.called slot outcome, .returned (.returned (.ok .nothing))] := by
  have hwaits : waitingFor slot [(slot, payload)] = [payload] := by simp [waitingFor]
  have hothers : ∀ i, i ≠ slot → waitingFor i [(slot, payload)] = [] := fun i hi => by
    simp [waitingFor, Ne.symm hi]
  obtain ⟨horderly, session, call, now, hlisteners, hact, hcall, hnow, hboard⟩ :=
    h.look behave hget hwaits (fun i hi => hothers i (Nat.ne_of_lt hi)) haccepted
  rw [hrepeatable] at hcall
  have hconclude : w.run behave (oneCall id slot) =
      ⟨session.conclude id { now with stage := .calling call } call (.returned (.ok .nothing)),
        w.busy, w.history ++ takingOf id listener.opened.endpoint payload
          [.called slot outcome, .returned (.returned (.ok .nothing))]⟩ := by
    change ((w.act behave (.look id slot)).act behave
      (.conclude id (.returned (.ok .nothing)))) = _
    rw [hact]
    simp [act, withOperation, hnow, conclude, h.free, conclusion, hcall, takingOf]
  have hsession := Callbacks.conclude_repeatable session id
    { now with stage := .calling call } hcall (.ok .nothing)
  have hoperations := congrArg Callbacks.operations hsession
  have hsame : (session.conclude id { now with stage := .calling call } call
      (.returned (.ok .nothing))).board = w.session.board.take listener.opened.endpoint :=
    (congrArg Callbacks.board hsession).trans hboard
  rw [hconclude]
  have hrun : w.isOrderlyRun behave (oneCall id slot) = true := by
    rw [oneCall, isOrderlyRun, horderly]
    rfl
  refine ⟨hrun, ⟨?_, h.free, ?_, ?_, h.apart, ?_⟩, rfl⟩
  · refine ⟨({ now with stage := .calling call } : CallbackOperation F).resumed, ?_, hlisteners,
      rfl⟩
    refine (congrArg (·[id]?) hoperations).trans ?_
    simp [hnow]
  · intro other hother
    dsimp only
    rw [hsame, Board.find_take]
    exact h.attentive other hother
  · intro e he
    dsimp only
    rw [hsame, Board.isOpen_take]
    exact h.isOpen e he
  · intro i other hi
    dsimp only
    rw [hsame, Board.inbox_take, h.inboxes i other hi]
    split
    · rename_i heq
      obtain rfl := slot_eq h.apart hget hi heq
      rw [hwaits]
      rfl
    · rename_i hne
      refine hothers i fun heq => hne ?_
      rw [heq, hget] at hi
      cases hi
      rfl

theorem isOrderlyRun_append (behave : Behaviour F) (w : Scene F) (moves moves' : List (Move F)) :
    w.isOrderlyRun behave (moves ++ moves') =
      (w.isOrderlyRun behave moves && (w.run behave moves).isOrderlyRun behave moves') := by
  induction moves generalizing w with
  | nil => rfl
  | cons move moves ih =>
    rw [List.cons_append, isOrderlyRun, ih (w.act behave move), isOrderlyRun, Bool.and_assoc]
    rfl

theorem listener_of_callFor {posting : Nat × Json} (h : (callFor op.lanes posting).isSome) :
    ∃ listener outcome, op.listeners[posting.1]? = some listener ∧
      listener.slot.accepts? posting.2 = some outcome ∧
      callFor op.lanes posting = some (posting.1, outcome) := by
  obtain ⟨call, hcall⟩ := Option.isSome_iff_exists.mp h
  obtain ⟨lane, hlane, haccepts⟩ := Option.bind_eq_some_iff.mp hcall
  obtain ⟨listener, hlistener, rfl⟩ := lanes_getElem?.mp hlane
  obtain ⟨outcome, houtcome, rfl⟩ := Option.map_eq_some_iff.mp haccepts
  exact ⟨listener, outcome, hlistener, houtcome, hcall⟩

theorem posting_of_fire (h : Attentive w id op waiting) {slot : Nat} {listener : Listener F}
    (hget : op.listeners[slot]? = some listener) (payload : Json) :
    postings op.lanes [(.arrived listener.opened.endpoint payload : Occurrence F)] =
      [(slot, payload)] := by
  have hslot := slotAt?_eq_some (op.lanes_nodup h.apart) (lanes_getElem?.mpr ⟨listener, hget, rfl⟩)
  dsimp only at hslot
  simp [postings, hslot]

/-- All payloads can be fired before an operation looks for the first time. -/
theorem Attentive.fireAll (h : Attentive w id op waiting) (behave : Behaviour F)
    {ps : List (Nat × Json)} (haccepted : ∀ posting ∈ ps, (callFor op.lanes posting).isSome) :
    ∃ moves, w.isOrderlyRun behave moves = true ∧
      Attentive (w.run behave moves) id op (waiting ++ ps) ∧
      postings op.lanes (w.run behave moves).history = postings op.lanes w.history ++ ps ∧
      story (w.run behave moves).history id = story w.history id := by
  induction ps generalizing w waiting with
  | nil =>
    rw [List.append_nil, List.append_nil]
    exact ⟨[], rfl, h, rfl, rfl⟩
  | cons first ps ih =>
    obtain ⟨listener, outcome, hget, -, -⟩ :=
      listener_of_callFor (haccepted first List.mem_cons_self)
    obtain ⟨hfired, hhistory⟩ := h.fire hget first.2
    obtain ⟨moves, horderly, hattentive, hpostings, hstory⟩ :=
      ih hfired fun posting hmem => haccepted posting (List.mem_cons_of_mem _ hmem)
    refine ⟨.fire listener.opened.token first.2 :: moves, horderly, ?_, ?_, ?_⟩
    · rw [List.append_cons]
      exact hattentive
    · refine hpostings.trans ?_
      rw [hhistory, postings_append, posting_of_fire h hget, List.append_assoc]
      rfl
    · refine hstory.trans ?_
      rw [hhistory, story_append]
      simp [story]

/-- The lowest slot that something waits for. -/
theorem exists_lowest {ps : List (Nat × Json)} {posting : Nat × Json} (h : posting ∈ ps) :
    ∃ slot payload later, slot ≤ posting.1 ∧ waitingFor slot ps = payload :: later ∧
      (slot, payload) ∈ ps ∧ ∀ i < slot, waitingFor i ps = [] := by
  classical
  have hwaits : ∃ slot, waitingFor slot ps ≠ [] := by
    refine ⟨posting.1, List.ne_nil_of_mem (a := posting.2) ?_⟩
    exact List.mem_filterMap.mpr ⟨posting, h, if_pos rfl⟩
  obtain ⟨payload, later, hlowest⟩ := List.exists_cons_of_ne_nil (Nat.find_spec hwaits)
  refine ⟨Nat.find hwaits, payload, later, Nat.find_min' hwaits ?_, hlowest, ?_, fun i hi => ?_⟩
  · exact List.ne_nil_of_mem (List.mem_filterMap.mpr ⟨posting, h, if_pos rfl⟩)
  · exact mem_of_waitingFor (by simp [hlowest])
  · exact not_not.mp (Nat.find_min hwaits hi)

/-- If all payloads arrive before the operation looks, one for a lower slot overtakes the first. -/
theorem Attentive.overtaken (h : Attentive w id op []) (behave : Behaviour F)
    {first posting : Nat × Json} {later : List (Nat × Json)} (hmem : posting ∈ later)
    (hlt : posting.1 < first.1)
    (haccepted : ∀ posting ∈ first :: later, (callFor op.lanes posting).isSome) :
    ∃ moves new, w.isOrderlyRun behave moves = true ∧
      postings op.lanes (w.run behave moves).history =
        postings op.lanes w.history ++ first :: later ∧
      calls (story (w.run behave moves).history id) = calls (story w.history id) ++ new ∧
      ¬new <+: (first :: later).filterMap (callFor op.lanes) := by
  obtain ⟨_, outcome, -, -, hcall⟩ := listener_of_callFor (haccepted first List.mem_cons_self)
  obtain ⟨moves, hmoves, hattentive, hpostings, hstory⟩ := h.fireAll behave haccepted
  rw [List.nil_append] at hattentive
  obtain ⟨slot, payload, others, hle, hwaits, hposted, hlowest⟩ :=
    exists_lowest (List.mem_cons_of_mem first hmem)
  obtain ⟨lower, found, hlistener, haccepts, -⟩ := listener_of_callFor (haccepted _ hposted)
  obtain ⟨hlook, session, call, now, -, hact, -⟩ :=
    hattentive.look behave hlistener hwaits hlowest haccepts
  have hrun : w.run behave (moves ++ [.look id slot]) = _ :=
    (run_append behave w moves [.look id slot]).trans hact
  refine ⟨moves ++ [.look id slot], [(slot, found)], ?_, ?_, ?_, ?_⟩
  · rw [isOrderlyRun_append, hmoves, isOrderlyRun, hlook]
    rfl
  · rw [hrun, postings_append, hpostings, postings_takingOf, List.append_nil]
  · rw [hrun, story_append, hstory, story_takingOf, calls_append]
    rfl
  · rw [List.filterMap_cons, hcall]
    intro hprefix
    obtain ⟨heq, -⟩ := List.cons_prefix_cons.mp hprefix
    have hslot : slot = first.1 := congrArg Prod.fst heq
    omega

/-- If a payload for a lower slot is behind another, there is a run in which it overtakes. -/
theorem Attentive.overtaking (behave : Behaviour F) {ps : List (Nat × Json)}
    (haccepted : ∀ posting ∈ ps, (callFor op.lanes posting).isSome)
    (hhurried : ¬Unhurried op.slots ps) (h : Attentive w id op []) :
    ∃ moves new, w.isOrderlyRun behave moves = true ∧
      postings op.lanes (w.run behave moves).history = postings op.lanes w.history ++ ps ∧
      calls (story (w.run behave moves).history id) =
        calls (story w.history id) ++ new ∧
      ¬new <+: ps.filterMap (callFor op.lanes) := by
  induction ps generalizing w with
  | nil => exact absurd trivial hhurried
  | cons first later ih =>
    by_cases hlater : ∀ posting ∈ later, first.1 ≤ posting.1
    · -- The first payload is answered, and another one is overtaken later on.
      obtain ⟨listener, outcome, hget, haccepts, hcall⟩ :=
        listener_of_callFor (haccepted first List.mem_cons_self)
      obtain ⟨hrepeatable, hrest⟩ :=
        Classical.not_imp.mp fun hunhurried => hhurried ⟨hlater, hunhurried⟩
      have hcardinality : listener.slot.cardinality = .repeatable := by
        simpa [hasCardinality, CallbackOperation.slots, hget] using hrepeatable
      obtain ⟨hfired, hhistory⟩ := h.fire hget first.2
      obtain ⟨horderly, hattentive, hcalled⟩ := hfired.answer behave hget hcardinality haccepts
      obtain ⟨moves, new, hmoves, hpostings, hcalls, hnot⟩ :=
        ih (fun posting hmem => haccepted posting (List.mem_cons_of_mem _ hmem)) hrest hattentive
      have hrun : w.run behave (.fire listener.opened.token first.2 ::
          (oneCall id first.1 ++ moves)) = ((w.fire listener.opened.token first.2).run behave
            (oneCall id first.1)).run behave moves :=
        run_append behave (w.fire listener.opened.token first.2) (oneCall id first.1) moves
      refine ⟨.fire listener.opened.token first.2 :: (oneCall id first.1 ++ moves),
        (first.1, outcome) :: new, ?_, ?_, ?_, ?_⟩
      · exact (isOrderlyRun_append behave (w.fire listener.opened.token first.2) _ moves).trans
          (by rw [horderly, hmoves]; rfl)
      · rw [hrun, hpostings, hcalled, hhistory, postings_append, postings_append,
          posting_of_fire h hget, postings_takingOf, List.append_nil, List.append_assoc]
        rfl
      · rw [hrun, hcalls, hcalled, hhistory, story_append, story_append, story_takingOf,
          calls_append, calls_append]
        simp [story, calls]
      · rw [List.filterMap_cons, hcall]
        exact fun hprefix => hnot (List.cons_prefix_cons.mp hprefix).2
    · have hlower : ∃ posting ∈ later, posting.1 < first.1 := by
        simpa using hlater
      obtain ⟨posting, hmem, hlt⟩ := hlower
      exact h.overtaken behave hmem hlt haccepted

/-- An operation that has not been sent anything yet keeps the order in which payloads arrive,
whoever runs when, exactly if they are unhurried. -/
theorem arrival_order_iff (behave : Behaviour F) (settings : Settings) (host : Host)
    (earlier : List (Move F)) (hready : Ready ((start settings host).run behave earlier) id op)
    {ps : List (Nat × Json)} (haccepted : ∀ posting ∈ ps, (callFor op.lanes posting).isSome) :
    (∀ moves, ((start settings host).run behave earlier).isOrderlyRun behave moves = true →
      postings op.lanes (((start settings host).run behave earlier).run behave moves).history = ps →
      InArrivalOrder (((start settings host).run behave earlier).run behave moves) id op ps) ↔
    Unhurried op.slots ps := by
  have howned : Owned ((start settings host).run behave earlier).session.callbacks
      ((start settings host).run behave earlier).busy := owned_run settings host earlier
  have hcoursing := coursing_run behave settings host earlier
  generalize (start settings host).run behave earlier = w at *
  have hlined := hready.lined hcoursing
  have hattentive := hready.attends howned hcoursing
  constructor
  · intro hordered
    by_contra hhurried
    obtain ⟨moves, new, horderly, hpostings, hcalls, hnot⟩ :=
      hattentive.overtaking behave haccepted hhurried
    rw [hready.postings_eq_nil, List.nil_append] at hpostings
    rw [hready.calls_eq_nil hcoursing, List.nil_append] at hcalls
    have hprefix := (hordered moves horderly hpostings).ordered
    rw [hcalls] at hprefix
    exact hnot hprefix
  · rintro hunhurried moves horderly rfl
    rw [← op.lanes_slots] at hunhurried
    obtain ⟨hlater, hline⟩ := lined_run howned hcoursing hlined horderly hunhurried haccepted
    exact inArrivalOrder_of_lined hlater hline haccepted

/-! ## A panel -/

/-- A panel that asks for a name and says when the text changes. -/
def namePanel : InputPanel Unit :=
  { caption := "Name", initialText := "", onDone := (), onChange := some () }

def panelHost : Host := .replaying
  { replies := [.json (Envelope.handle "panel").toJson], tokens := [some "done", some "change"] }

/-- The panel is shown, and nothing was entered yet. -/
def panelShown : Scene Unit := (start {} panelHost).run returning
  (.begin .foreground (.invoke "panel" (namePanel.template {} (.resolved "window")) .handle
    namePanel.slots 0) :: List.replicate 9 (.go .foreground))

def typed : Json := (Envelope.primitive (.string "Ada")).toJson

/-- The text changes and is entered at once, before the operation looks. -/
def entering : List (Move Unit) := [.fire "change" typed, .fire "done" typed, .look 0 0]

/-- The change arrived first, but its function is not called: that of the one-shot slot is. -/
theorem done_overtakes_change : ∃ op, Ready panelShown 0 op ∧
    op.slots.map (·.cardinality) = [.oneShot, .repeatable] ∧
    panelShown.isOrderlyRun returning entering = true ∧
    (∀ posting ∈ postings op.lanes (panelShown.run returning entering).history,
      (callFor op.lanes posting).isSome) ∧
    (postings op.lanes (panelShown.run returning entering).history).map (·.1) = [1, 0] ∧
    (calls (story (panelShown.run returning entering).history 0)).map (·.1) = [0] ∧
    ¬InArrivalOrder (panelShown.run returning entering) 0 op
      (postings op.lanes (panelShown.run returning entering).history) := by
  have hshown : panelShown.session.operations[0]?.any (fun op => panelShown.isReady 0 op &&
      decide (op.slots.map (·.cardinality) = [.oneShot, .repeatable]) &&
      panelShown.isOrderlyRun returning entering &&
      ((postings op.lanes (panelShown.run returning entering).history).all
        fun posting => (callFor op.lanes posting).isSome) &&
      decide ((postings op.lanes (panelShown.run returning entering).history).map (·.1) = [1, 0]) &&
      decide ((calls (story (panelShown.run returning entering).history 0)).map (·.1) = [0]) &&
      decide (((postings op.lanes (panelShown.run returning entering).history).filterMap
        (callFor op.lanes)).map (·.1) = [1, 0])) = true := by
    decide +kernel
  obtain ⟨op, hop, hall⟩ := (Option.any_eq_true ..).mp hshown
  simp only [Bool.and_eq_true, decide_eq_true_eq, List.all_eq_true] at hall
  obtain ⟨⟨⟨⟨⟨⟨hready, hslots⟩, horderly⟩, haccepted⟩, hpostings⟩, hcalls⟩, hposted⟩ := hall
  refine ⟨op, ready_of_isReady hop hready, hslots, horderly, haccepted, hpostings, hcalls, ?_⟩
  intro horder
  have hprefix := horder.ordered.map (·.1)
  rw [hcalls, hposted] at hprefix
  exact absurd hprefix (by decide)

/-- While the text only changes, every change is answered in its turn. -/
theorem changes_in_order : ∃ op, Ready panelShown 0 op ∧ ∀ moves,
    panelShown.isOrderlyRun returning moves = true →
      postings op.lanes (panelShown.run returning moves).history = [(1, typed), (1, typed)] →
        InArrivalOrder (panelShown.run returning moves) 0 op [(1, typed), (1, typed)] := by
  have hshown : panelShown.session.operations[0]?.any (fun op => panelShown.isReady 0 op &&
      [(1, typed), (1, typed)].all fun posting => (callFor op.lanes posting).isSome) = true := by
    decide +kernel
  obtain ⟨op, hop, hall⟩ := (Option.any_eq_true ..).mp hshown
  simp only [Bool.and_eq_true, List.all_eq_true] at hall
  obtain ⟨hready, haccepted⟩ := hall
  have hready := ready_of_isReady hop hready
  have hunhurried : Unhurried op.slots [(1, typed), (1, typed)] :=
    ⟨by simp, fun _ => ⟨by simp, fun _ => trivial⟩⟩
  exact ⟨op, hready, (arrival_order_iff returning {} panelHost _ hready haccepted).mpr hunhurried⟩

end Scene

end RemoteHost
