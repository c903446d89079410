import RemoteHost.Proofs.CallbackLifeCycle

/-!
# Lines

The payloads that arrive for an operation, in the order of arrival, whatever their slots. They wait
in different places, one for each slot, and the lowest slot goes first; so what is taken next is
known to be the head of the line only if no payload for a lower slot is behind it.
-/

namespace RemoteHost

variable {F : Type}

/-! ## What was posted -/

/-- The slots of an operation with their endpoints. -/
def CallbackOperation.lanes (op : CallbackOperation F) : List (Slot F × EndpointId) :=
  op.listeners.map fun listener => (listener.slot, listener.opened.endpoint)

def slotAt? (lanes : List (Slot F × EndpointId)) (e : EndpointId) : Option Nat :=
  lanes.findIdx? fun lane => lane.2 = e

/-- The payloads that arrived for an operation, each with its slot. -/
def postings (lanes : List (Slot F × EndpointId)) (history : List (Occurrence F)) :
    List (Nat × Json) :=
  history.filterMap fun
    | .arrived e payload => (slotAt? lanes e).map fun slot => (slot, payload)
    | _ => none

/-- The calls of an operation, each with its slot. -/
def calls (deeds : List Deed) : List (Nat × Outcome) :=
  deeds.filterMap fun
    | .called slot outcome => some (slot, outcome)
    | _ => none

/-- The call that a payload is to lead to. -/
def callFor (lanes : List (Slot F × EndpointId)) (posting : Nat × Json) : Option (Nat × Outcome) :=
  lanes[posting.1]?.bind fun lane => (lane.1.accepts? posting.2).map fun outcome =>
    (posting.1, outcome)

/-- The payloads that wait for one slot. -/
def waitingFor (slot : Nat) (waiting : List (Nat × Json)) : List Json :=
  waiting.filterMap fun posting => if posting.1 = slot then some posting.2 else none

/-- No payload up to the first one-shot one is followed by one for a lower slot. -/
def Unhurried (slots : List (Slot F)) : List (Nat × Json) → Prop
  | [] => True
  | first :: later => (∀ posting ∈ later, first.1 ≤ posting.1) ∧
      (hasCardinality slots first.1 .repeatable → Unhurried slots later)

section Postings

variable {lanes : List (Slot F × EndpointId)}

@[simp] theorem postings_append (h h' : List (Occurrence F)) :
    postings lanes (h ++ h') = postings lanes h ++ postings lanes h' := List.filterMap_append

@[simp] theorem calls_append (ds ds' : List Deed) :
    calls (ds ++ ds') = calls ds ++ calls ds' := List.filterMap_append

@[simp] theorem waitingFor_append (slot : Nat) (ps qs : List (Nat × Json)) :
    waitingFor slot (ps ++ qs) = waitingFor slot ps ++ waitingFor slot qs :=
  List.filterMap_append

theorem postings_eq_nil {occurrences : List (Occurrence F)}
    (h : ∀ o ∈ occurrences, ∀ e payload, o ≠ .arrived e payload) :
    postings lanes occurrences = [] := by
  refine List.filterMap_eq_nil_iff.mpr fun o ho => ?_
  cases o with
  | arrived e payload => exact absurd rfl (h _ ho e payload)
  | _ => rfl

theorem postings_takingOf (id : OperationId) (e : EndpointId) (payload : Json)
    (deeds : List Deed) :
    postings lanes (takingOf id e payload deeds : List (Occurrence F)) = [] := by
  refine postings_eq_nil fun o ho i other heq => ?_
  subst heq
  simp [takingOf] at ho

theorem callCount_eq_length (deeds : List Deed) : callCount deeds = (calls deeds).length := by
  induction deeds with
  | nil => rfl
  | cons deed deeds ih =>
    cases deed with
    | called slot outcome =>
      rw [callCount, List.countP_cons_of_pos rfl]
      exact congrArg (· + 1) ih
    | returned | ended =>
      rw [callCount, List.countP_cons_of_neg (by simp [Deed.isCall])]
      exact ih

/-! ## Unhurried sequences -/

variable {slots : List (Slot F)}

theorem Unhurried.of_append {ps qs : List (Nat × Json)} (h : Unhurried slots (ps ++ qs)) :
    Unhurried slots ps := by
  induction ps with
  | nil => trivial
  | cons first ps ih =>
    obtain ⟨hlater, hrest⟩ := h
    exact ⟨fun p hp => hlater p (List.mem_append_left _ hp), fun hrepeatable =>
      ih (hrest hrepeatable)⟩

/-- Behind repeatable ones the rest is unhurried as well. -/
theorem Unhurried.rest {ps qs : List (Nat × Json)} (h : Unhurried slots (ps ++ qs))
    (hps : ∀ posting ∈ ps, hasCardinality slots posting.1 .repeatable) : Unhurried slots qs := by
  induction ps with
  | nil => exact h
  | cons first ps ih =>
    refine ih (h.2 (hps first List.mem_cons_self)) fun posting hmem => ?_
    exact hps posting (List.mem_cons_of_mem _ hmem)

end Postings

/-! ## Lines -/

/-- What an operation has taken and what it has not taken yet, in the order of arrival. -/
structure InLine (board : Board) (history : List (Occurrence F)) (id : OperationId)
    (lanes : List (Slot F × EndpointId)) (taken waiting : List (Nat × Json)) : Prop where
  postings : postings lanes history = taken ++ waiting
  calls : calls (story history id) = taken.filterMap (callFor lanes)
  inboxes : ∀ slot lane, lanes[slot]? = some lane →
    Board.inbox board lane.2 = waitingFor slot waiting

section InLine

variable {board board' : Board} {history : List (Occurrence F)} {id : OperationId}
  {lanes : List (Slot F × EndpointId)} {taken waiting : List (Nat × Json)}

/-- Where nothing arrives, is called or is taken, the line stays as it is. -/
theorem InLine.kept (h : InLine board history id lanes taken waiting)
    {history' : List (Occurrence F)}
    (hpostings : RemoteHost.postings lanes history' = RemoteHost.postings lanes history)
    (hcalls : RemoteHost.calls (story history' id) = RemoteHost.calls (story history id))
    (hinboxes : ∀ lane ∈ lanes, Board.inbox board' lane.2 = Board.inbox board lane.2) :
    InLine board' history' id lanes taken waiting where
  postings := hpostings.trans h.postings
  calls := hcalls.trans h.calls
  inboxes slot lane hlane := by
    rw [hinboxes lane (List.mem_of_getElem? hlane)]
    exact h.inboxes slot lane hlane

theorem lane_of_slotAt? {e : EndpointId} {slot : Nat} (h : slotAt? lanes e = some slot) :
    ∃ lane, lanes[slot]? = some lane ∧ lane.2 = e := by
  obtain ⟨hlt, hfound, -⟩ := List.findIdx?_eq_some_iff_getElem.mp h
  exact ⟨lanes[slot], List.getElem?_eq_getElem hlt, of_decide_eq_true hfound⟩

theorem slotAt?_eq_some (hnodup : (lanes.map (·.2)).Nodup) {slot : Nat}
    {lane : Slot F × EndpointId} (h : lanes[slot]? = some lane) :
    slotAt? lanes lane.2 = some slot := by
  have hmem := List.mem_of_getElem? h
  cases hfound : slotAt? lanes lane.2 with
  | none =>
    have hnone := List.findIdx?_eq_none_iff.mp hfound lane hmem
    simp at hnone
  | some other =>
    obtain ⟨found, hget, heq⟩ := lane_of_slotAt? hfound
    have hlt : other < (lanes.map (·.2)).length := by
      rw [List.length_map]
      exact (List.getElem?_eq_some_iff.mp hget).1
    have hsame : other = slot := by
      refine (List.getElem?_inj hlt hnodup).mp ?_
      rw [List.getElem?_map, List.getElem?_map, hget, h]
      exact congrArg some heq
    rw [hsame]

/-- A payload that arrives goes to the end of the line, if it is for the operation at all. -/
theorem InLine.arrived (h : InLine board history id lanes taken waiting)
    (hnodup : (lanes.map (·.2)).Nodup) {e : EndpointId} (he : e < board.length) (payload : Json) :
    InLine (board.modify e fun e => { e with inbox := e.inbox ++ [payload] })
      (history ++ [.arrived e payload]) id lanes taken
      (waiting ++ ((slotAt? lanes e).map fun slot => (slot, payload)).toList) where
  postings := by
    rw [postings_append, h.postings, List.append_assoc]
    cases hslot : slotAt? lanes e <;> simp [RemoteHost.postings, hslot]
  calls := by
    rw [story_append, calls_append, h.calls]
    simp [story, RemoteHost.calls]
  inboxes slot lane hlane := by
    rw [Board.inbox_append he, h.inboxes slot lane hlane, waitingFor_append]
    by_cases heq : e = lane.2
    · rw [if_pos heq, heq, slotAt?_eq_some hnodup hlane]
      simp [waitingFor]
    · rw [if_neg heq]
      cases hslot : slotAt? lanes e with
      | none => simp [waitingFor]
      | some other =>
        have hne : other ≠ slot := by
          rintro rfl
          obtain ⟨found, hget, hfound⟩ := lane_of_slotAt? hslot
          rw [hlane] at hget
          cases hget
          exact heq hfound.symm
        simp [waitingFor, hne]

theorem InLine.headTaken {posting : Nat × Json}
    (h : InLine board history id lanes taken (posting :: waiting))
    (hnodup : (lanes.map (·.2)).Nodup) {lane : Slot F × EndpointId}
    (hlane : lanes[posting.1]? = some lane) (deeds : List Deed)
    (hdeeds : RemoteHost.calls deeds = (callFor lanes posting).toList) :
    InLine (board.take lane.2) (history ++ takingOf id lane.2 posting.2 deeds) id lanes
      (taken ++ [posting]) waiting where
  postings := by
    rw [postings_append, postings_takingOf, h.postings, List.append_nil, List.append_assoc]
    rfl
  calls := by
    rw [story_append, story_takingOf, calls_append, hdeeds, h.calls, List.filterMap_append]
    cases hcall : callFor lanes posting <;> simp [hcall]
  inboxes slot other hother := by
    rw [Board.inbox_take, h.inboxes slot other hother]
    by_cases hslot : posting.1 = slot
    · rw [← hslot, hlane] at hother
      cases hother
      simp [waitingFor, hslot]
    · have hne : lane.2 ≠ other.2 := fun heq => by
        have hsome := slotAt?_eq_some hnodup hother
        rw [← heq, slotAt?_eq_some hnodup hlane] at hsome
        exact hslot (Option.some.inj hsome)
      simp [waitingFor, hslot, hne]

end InLine

/-! ## The head of the line -/

section Head

variable {c : Callbacks F} {history : List (Occurrence F)} {id : OperationId}
  {op : CallbackOperation F} {lanes : List (Slot F × EndpointId)}
  {taken waiting : List (Nat × Json)}

theorem lane_of_posting {posting : Nat × Json} (h : posting ∈ postings lanes history) :
    ∃ lane, lanes[posting.1]? = some lane := by
  obtain ⟨o, -, ho⟩ := List.mem_filterMap.mp h
  cases o with
  | arrived e payload =>
    obtain ⟨slot, hslot, rfl⟩ := Option.map_eq_some_iff.mp ho
    obtain ⟨lane, hlane, -⟩ := lane_of_slotAt? hslot
    exact ⟨lane, hlane⟩
  | _ => cases ho

theorem lanes_getElem? {slot : Nat} {lane : Slot F × EndpointId} :
    op.lanes[slot]? = some lane ↔ ∃ listener, op.listeners[slot]? = some listener ∧
      lane = (listener.slot, listener.opened.endpoint) := by
  rw [CallbackOperation.lanes, List.getElem?_map, Option.map_eq_some_iff]
  exact exists_congr fun listener => and_congr_right fun _ => eq_comm

theorem CallbackOperation.lanes_slots (op : CallbackOperation F) :
    op.lanes.map (·.1) = op.slots := by
  simp [CallbackOperation.lanes, CallbackOperation.slots]

theorem CallbackOperation.lanes_nodup (op : CallbackOperation F) (h : op.endpoints.Nodup) :
    (op.lanes.map (·.2)).Nodup := by
  have hendpoints : op.lanes.map (·.2) = op.endpoints := by
    simp [CallbackOperation.lanes, CallbackOperation.endpoints]
  rwa [hendpoints]

theorem mem_of_waitingFor {slot : Nat} {payload : Json} (h : payload ∈ waitingFor slot waiting) :
    (slot, payload) ∈ waiting := by
  obtain ⟨posting, hmem, hposting⟩ := List.mem_filterMap.mp h
  split at hposting
  · rename_i hslot
    cases hposting
    rwa [← hslot]
  · cases hposting

/-- An operation that listens has called functions of repeatable slots only. -/
theorem repeatable_of_taken (hcourse : Course c history id op) (hstage : op.stage = .listening)
    (hcalls : calls (story history id) = taken.filterMap (callFor lanes))
    (haccepted : ∀ posting ∈ taken, (callFor lanes posting).isSome) :
    ∀ posting ∈ taken, hasCardinality op.slots posting.1 .repeatable := by
  intro posting hmem
  obtain ⟨call, hcall⟩ := Option.isSome_iff_exists.mp (haccepted posting hmem)
  have hin : call ∈ calls (story history id) := by
    rw [hcalls]
    exact List.mem_filterMap.mpr ⟨posting, hmem, hcall⟩
  obtain ⟨deed, hdeed, heq⟩ := List.mem_filterMap.mp hin
  cases deed with
  | called slot outcome =>
    cases heq
    obtain ⟨lane, -, hlane⟩ := Option.bind_eq_some_iff.mp hcall
    obtain ⟨accepted, -, hpair⟩ := Option.map_eq_some_iff.mp hlane
    cases hpair
    obtain ⟨before, after, hsplit⟩ := List.append_of_mem hdeed
    exact ((hcourse.tells.rounds hstage).after_call hsplit).1
  | returned | ended => cases heq

/-- The first payload that an operation sees is the head of its line, if the line is unhurried. -/
theorem head_of_firstSighting (hcourse : Course c history id op)
    (hline : InLine c.board history id op.lanes taken waiting) (hstage : op.stage = .listening)
    {slot : Nat} {payload : Json}
    (hseen : Session.firstSighting c.board op.listeners = some (slot, .payload payload))
    (hunhurried : Unhurried op.slots (postings op.lanes history))
    (haccepted : ∀ posting ∈ postings op.lanes history, (callFor op.lanes posting).isSome) :
    ∃ rest, waiting = (slot, payload) :: rest := by
  obtain ⟨⟨listener, hget, -, hsighting, -⟩, hbefore⟩ := Scene.firstSighting_eq_some hseen
  obtain ⟨later, hinbox⟩ := Board.sighting_eq_payload hsighting
  have hfor : waitingFor slot waiting = payload :: later := by
    rw [← hline.inboxes slot _ (lanes_getElem?.mpr ⟨listener, hget, rfl⟩), hinbox]
  have hmem : (slot, payload) ∈ waiting := mem_of_waitingFor (by rw [hfor]; simp)
  rw [hline.postings] at hunhurried haccepted
  have htaken := repeatable_of_taken hcourse hstage hline.calls
    fun posting hp => haccepted posting (List.mem_append_left _ hp)
  have hrest := hunhurried.rest htaken
  cases waiting with
  | nil => cases hmem
  | cons head rest =>
    have hle : head.1 ≤ slot := by
      rcases List.mem_cons.mp hmem with heq | hmem
      · exact Nat.le_of_eq (congrArg Prod.fst heq).symm
      · exact hrest.1 _ hmem
    have hge : ¬head.1 < slot := fun hlt => by
      have hposted : head ∈ postings op.lanes history := by
        rw [hline.postings]
        simp
      obtain ⟨lane, hlane⟩ := lane_of_posting hposted
      obtain ⟨other, hother, rfl⟩ := lanes_getElem?.mp hlane
      have hwaits : Board.inbox c.board other.opened.endpoint ≠ [] := by
        have hinboxes := hline.inboxes head.1 _ hlane
        dsimp only at hinboxes
        rw [hinboxes]
        simp [waitingFor]
      cases hlistens : other.listening with
      | false => exact hwaits (hcourse.deaf other (List.mem_of_getElem? hother) hlistens).1
      | true => exact hwaits (Board.inbox_of_silent (hbefore head.1 hlt other hother hlistens))
    have heq : head.1 = slot := by omega
    have hhead : head.2 = payload := by
      simp only [waitingFor, List.filterMap_cons, heq, if_true, List.cons.injEq] at hfor
      exact hfor.1
    exact ⟨rest, by rw [← heq, ← hhead]⟩

end Head

/-! ## Orderly runs -/

namespace Scene

/-- An operation looks at the first endpoint that has something to see. -/
def isOrderly (w : Scene F) : Move F → Bool
  | .look id slot =>
    match w.session.operations[id]? with
    | some op => (Session.firstSighting w.session.board op.listeners).map (·.1) = some slot
    | none => true
  | _ => true

def isOrderlyRun (behave : Behaviour F) (w : Scene F) : List (Move F) → Bool
  | [] => true
  | move :: moves => w.isOrderly move && (w.act behave move).isOrderlyRun behave moves

variable {behave : Behaviour F} {w w' : Scene F} {move : Move F} {id : OperationId}
  {op : CallbackOperation F} {lanes : List (Slot F × EndpointId)}

@[simp] theorem lanes_deafen (op : CallbackOperation F) (slot : Nat) :
    (op.deafen slot).lanes = op.lanes :=
  op.map_deafen _ (fun _ => rfl) slot

structure Lined (w : Scene F) (id : OperationId) (lanes : List (Slot F × EndpointId)) : Prop where
  known : ∃ op, w.session.operations[id]? = some op ∧ op.lanes = lanes
  line : ∃ taken waiting, InLine w.session.board w.history id lanes taken waiting

/-- What an operation does is no arrival. -/
theorem postings_of_turn (lanes : List (Slot F × EndpointId)) (hturn : Turn w id op move w') :
    postings lanes w'.history = postings lanes w.history := by
  cases hturn with
  | idle | deafened => rfl
  | refused | called | resumed | died | exhausted => simp [postings]
  | fired | stopped => simp [postings]

/-- What one operation does is of no concern to another. -/
theorem others_of_turn (howned : Owned w.session.callbacks w.busy)
    (hop : w.session.operations[id]? = some op) {i : OperationId} {other : CallbackOperation F}
    (hother : w.session.operations[i]? = some other) (hne : i ≠ id)
    (hturn : Turn w i other move w') :
    w'.session.callbacks.operations[id]? = some op ∧ story w'.history id = story w.history id ∧
      ∀ e ∈ op.endpoints,
        Board.inbox w'.session.callbacks.board e = Board.inbox w.session.board e := by
  have hmodify : ∀ f : CallbackOperation F → CallbackOperation F,
      (w.session.operations.modify i f)[id]? = some op := fun f => by
    simp [hne, hop]
  have htake : ∀ {slot : Nat} {listener : Listener F}, other.listeners[slot]? = some listener →
      ∀ e ∈ op.endpoints, Board.inbox (w.session.board.take listener.opened.endpoint) e =
        Board.inbox w.session.board e := by
    intro slot listener hget e he
    rw [Board.inbox_take, if_neg]
    rintro rfl
    exact hne (howned.operation_eq hother hop (mem_endpoints (List.mem_of_getElem? hget)) he)
  cases hturn with
  | idle => exact ⟨hop, rfl, fun _ _ => rfl⟩
  | deafened hstage hget hover hsession =>
    rw [hsession]
    exact ⟨hmodify _, rfl, fun _ _ => rfl⟩
  | refused hstage hget hlistening hseen hrefused hsession =>
    rw [hsession]
    exact ⟨hop, by simp [story], htake hget⟩
  | called hstage hget hlistening hseen haccepted hcall hsession =>
    rw [hsession]
    exact ⟨hmodify _, by simp [story, hne], htake hget⟩
  | resumed hstage hcall hsession =>
    rw [hsession]
    exact ⟨hmodify _, by simp [story, hne], fun _ _ => rfl⟩
  | fired hstage hcall hends | died hstage hends | stopped hstage hends
  | exhausted hstage hdeaf hends =>
    exact ⟨(hends.others (Ne.symm hne)).trans hop, by simp [story, hne], fun e _ => hends.inbox e⟩

/-- Where nothing arrives, is called or is taken, an operation keeps its line. -/
theorem Lined.kept (h : Lined w id lanes)
    (hknown : ∃ op, w'.session.callbacks.operations[id]? = some op ∧ op.lanes = lanes)
    (hpostings : postings lanes w'.history = postings lanes w.history)
    (hcalls : calls (story w'.history id) = calls (story w.history id))
    (hinboxes : ∀ lane ∈ lanes,
      Board.inbox w'.session.callbacks.board lane.2 = Board.inbox w.session.board lane.2) :
    Lined w' id lanes := by
  obtain ⟨-, taken, waiting, hline⟩ := h
  exact ⟨hknown, taken, waiting, hline.kept hpostings hcalls hinboxes⟩

/-- In an orderly run, what an unhurried operation looks at is the head of its line. -/
theorem head_of_look (hcourse : Course w.session.callbacks w.history id op)
    (hop : w.session.operations[id]? = some op) {taken waiting : List (Nat × Json)}
    (hline : InLine w.session.board w.history id op.lanes taken waiting)
    (hstage : op.stage = .listening) {slot : Nat} {listener : Listener F} {payload : Json}
    (hget : op.listeners[slot]? = some listener)
    (hseen : w.session.board.sighting listener.opened.endpoint = .payload payload)
    (horderly : w.isOrderly (.look id slot) = true)
    (hunhurried : Unhurried op.slots (postings op.lanes w.history))
    (haccepted : ∀ posting ∈ postings op.lanes w.history, (callFor op.lanes posting).isSome) :
    ∃ rest, waiting = (slot, payload) :: rest := by
  have hfirst : (Session.firstSighting w.session.board op.listeners).map (·.1) = some slot := by
    simpa [isOrderly, hop] using horderly
  obtain ⟨⟨i, seen⟩, hsighted, rfl⟩ := Option.map_eq_some_iff.mp hfirst
  obtain ⟨⟨found, hfound, -, hsame, -⟩, -⟩ := firstSighting_eq_some hsighted
  have hsighting : seen = .payload payload := by
    rw [hget] at hfound
    cases hfound
    exact hsame.symm.trans hseen
  rw [hsighting] at hsighted
  exact head_of_firstSighting hcourse hline hstage hsighted hunhurried haccepted

/-- An operation whose line is unhurried takes from the head of it only. -/
theorem lined_of_turn (howned : Owned w.session.callbacks w.busy)
    (hcoursing : Coursing w.session.callbacks w.history)
    (hop : w.session.operations[id]? = some op) (hturn : Turn w id op move w')
    (horderly : w.isOrderly move = true)
    (hunhurried : Unhurried op.slots (postings op.lanes w.history))
    (haccepted : ∀ posting ∈ postings op.lanes w.history, (callFor op.lanes posting).isSome)
    (h : Lined w id op.lanes) : Lined w' id op.lanes := by
  have hpostings := postings_of_turn op.lanes hturn
  have hcourse := hcoursing.courses id op hop
  have hnodup := op.lanes_nodup (howned.endpoints_nodup hop)
  have hmodify : ∀ f : CallbackOperation F → CallbackOperation F,
      (w.session.operations.modify id f)[id]? = some (f op) := fun f => by
    simp [hop]
  obtain ⟨taken, waiting, hline⟩ := h.line
  cases hturn with
  | idle => exact h
  | @deafened session slot listener hstage hget hover hsession =>
    have hknown : session.callbacks.operations[id]? = some (op.deafen slot) := by
      rw [hsession]
      exact hmodify _
    refine h.kept ⟨_, hknown, lanes_deafen op slot⟩ rfl rfl fun lane _ => ?_
    exact congrArg (fun c : Callbacks F => Board.inbox c.board lane.2) hsession
  | @refused session slot listener payload hstage hget hlistening hseen hrefused hsession =>
    have hlane := lanes_getElem?.mpr ⟨listener, hget, rfl⟩
    obtain ⟨rest, rfl⟩ :=
      head_of_look hcourse hop hline hstage hget hseen horderly hunhurried haccepted
    have hknown : session.callbacks.operations[id]? = some op := by
      rw [hsession]
      exact hop
    have hboard : session.board = w.session.board.take listener.opened.endpoint :=
      congrArg Callbacks.board hsession
    have htaken := hline.headTaken hnodup hlane [] (by simp [calls, callFor, hlane, hrefused])
    rw [← hboard] at htaken
    exact ⟨⟨op, hknown, rfl⟩, _, rest, htaken⟩
  | @called session slot listener payload outcome call hstage hget hlistening hseen haccepts hcall
      hsession =>
    have hlane := lanes_getElem?.mpr ⟨listener, hget, rfl⟩
    obtain ⟨rest, rfl⟩ :=
      head_of_look hcourse hop hline hstage hget hseen horderly hunhurried haccepted
    have hknown : session.callbacks.operations[id]? =
        some { op with stage := .calling call } := by
      rw [hsession]
      exact hmodify _
    have hboard : session.board = w.session.board.take listener.opened.endpoint :=
      congrArg Callbacks.board hsession
    have htaken := hline.headTaken hnodup hlane [.called slot outcome]
      (by simp [calls, callFor, hlane, haccepts])
    rw [← hboard] at htaken
    exact ⟨⟨_, hknown, rfl⟩, _, rest, htaken⟩
  | @resumed session call result hstage hcall hsession =>
    have hknown : session.callbacks.operations[id]? = some op.resumed := by
      rw [hsession]
      exact hmodify _
    refine h.kept ⟨_, hknown, rfl⟩ hpostings (by simp [story, calls]) fun lane _ => ?_
    exact congrArg (fun c : Callbacks F => Board.inbox c.board lane.2) hsession
  | fired hstage hcall hends | died hstage hends | stopped hstage hends
  | exhausted hstage hdeaf hends =>
    exact h.kept ⟨_, hends.found hop, rfl⟩ hpostings (by simp [story, calls])
      fun lane _ => hends.inbox lane.2

/-- What parties do is no arrival and no call. -/
theorem Lined.ofParties (h : Lined w id lanes) {session : Session F}
    {busy : Party → Option (Engagement F)} {occurrences : List (Occurrence F)}
    (hparties : ∀ o ∈ occurrences, o.isOfParty = true)
    (hknown : ∀ op, w.session.operations[id]? = some op →
      session.callbacks.operations[id]? = some op)
    (hinboxes : ∀ e, Board.inbox session.callbacks.board e = Board.inbox w.session.board e) :
    Lined ⟨session, busy, w.history ++ occurrences⟩ id lanes := by
  obtain ⟨op, hop, hlanes⟩ := h.known
  refine h.kept ⟨op, hknown op hop, hlanes⟩ ?_ ?_ fun lane _ => hinboxes lane.2
  · have hpostings : postings lanes occurrences = [] := by
      refine postings_eq_nil fun o ho e payload heq => ?_
      subst heq
      cases hparties _ ho
    rw [postings_append, hpostings, List.append_nil]
  · rw [story_append, story_ofParties hparties, List.append_nil]

theorem lined_of_moved (howned : Owned w.session.callbacks w.busy)
    (hcoursing : Coursing w.session.callbacks w.history) (hmoved : Moved w move w')
    (horderly : w.isOrderly move = true)
    (hunhurried : Unhurried (lanes.map (·.1)) (postings lanes w.history))
    (haccepted : ∀ posting ∈ postings lanes w.history, (callFor lanes posting).isSome)
    (h : Lined w id lanes) : Lined w' id lanes := by
  obtain ⟨op, hop, rfl⟩ := h.known
  cases hmoved with
  | calm hsame hcalm hkeeps =>
    refine h.ofParties (fun o ho => Occurrence.isOfParty_of_isCalm (hcalm o ho)) ?_ ?_
    · rw [hsame]
      exact fun _ hop => hop
    · rw [hsame]
      exact fun _ => rfl
  | opened hsession hcalm hkeeps =>
    refine h.ofParties (fun o ho => Occurrence.isOfParty_of_isCalm (hcalm o ho)) ?_ ?_
    · rw [hsession]
      exact fun _ hop => hop
    · intro e
      rw [hsession, Board.inbox_openLine, Board.inbox_disown]
  | closed hheld hsession hclosing hkeeps =>
    refine h.ofParties (fun o ho => ?_) ?_ hsession.inbox
    · rcases hclosing o ho with hcalm | ⟨e, -, rfl⟩
      · exact Occurrence.isOfParty_of_isCalm hcalm
      · rfl
    · rw [hsession.operations]
      exact fun _ hop => hop
  | launched hheld hlength hsession hcalm hkeeps =>
    refine h.ofParties (fun o ho => Occurrence.isOfParty_of_isCalm (hcalm o ho)) ?_ ?_
    · intro op hop
      rw [hsession, List.getElem?_append_left (List.getElem?_eq_some_iff.mp hop).1]
      exact hop
    · rw [hsession]
      exact fun _ => rfl
  | @arrived session e payload hopen hconnected hsession =>
    obtain ⟨taken, waiting, hline⟩ := h.line
    have hknown : session.callbacks.operations[id]? = some op := by
      rw [hsession]
      exact hop
    have hboard : session.board =
        w.session.board.modify e fun e => { e with inbox := e.inbox ++ [payload] } :=
      congrArg Callbacks.board hsession
    have harrived := hline.arrived (op.lanes_nodup (howned.endpoints_nodup hop))
      (Board.lt_length_of_isOpen hopen) payload
    rw [← hboard] at harrived
    exact ⟨⟨op, hknown, rfl⟩, taken, _, harrived⟩
  | @disconnected session e hsession =>
    refine h.kept ⟨op, ?_, rfl⟩ rfl rfl fun lane _ => ?_
    · rw [hsession]
      exact hop
    · rw [hsession, Board.inbox_disconnect]
  | @told session operations htold hsession =>
    have hknown : ∃ op', session.callbacks.operations[id]? = some op' ∧ op'.lanes = op.lanes := by
      rw [hsession]
      rcases htold id with hsame | hstopped
      · exact ⟨op, hsame.trans hop, rfl⟩
      · exact ⟨op.stopped, hstopped.trans (congrArg (Option.map _) hop), rfl⟩
    refine h.kept hknown rfl rfl fun lane _ => ?_
    exact congrArg (fun c : Callbacks F => Board.inbox c.board lane.2) hsession
  | @turned i other _ hother hturn =>
    by_cases hi : i = id
    · subst hi
      rw [hop] at hother
      cases hother
      exact lined_of_turn howned hcoursing hop hturn horderly (op.lanes_slots ▸ hunhurried)
        haccepted h
    · obtain ⟨hstill, hstory, hinboxes⟩ := others_of_turn howned hop hother hi hturn
      refine h.kept ⟨op, hstill, rfl⟩ (postings_of_turn op.lanes hturn) (congrArg calls hstory)
        fun lane hlane => hinboxes lane.2 ?_
      obtain ⟨listener, hlistener, rfl⟩ := List.mem_map.mp hlane
      exact mem_endpoints hlistener

/-- An operation keeps its line through an orderly run, if all that arrives until the end of the run
is unhurried. -/
theorem lined_run {moves : List (Move F)} (howned : Owned w.session.callbacks w.busy)
    (hcoursing : Coursing w.session.callbacks w.history) (h : Lined w id lanes)
    (horderly : w.isOrderlyRun behave moves = true)
    (hunhurried : Unhurried (lanes.map (·.1)) (postings lanes (w.run behave moves).history))
    (haccepted : ∀ posting ∈ postings lanes (w.run behave moves).history,
      (callFor lanes posting).isSome) :
    Coursing (w.run behave moves).session.callbacks (w.run behave moves).history ∧
      Lined (w.run behave moves) id lanes := by
  induction moves generalizing w with
  | nil => exact ⟨hcoursing, h⟩
  | cons move moves ih =>
    obtain ⟨hmove, hmoves⟩ := Bool.and_eq_true_iff.mp horderly
    have hmoved : Moved w move (w.act behave move) := moved_act howned move
    obtain ⟨later, hlater⟩ := history_run behave w (move :: moves)
    have hsplit : postings lanes w.history ++ postings lanes later =
        postings lanes (w.run behave (move :: moves)).history := by
      rw [← hlater, postings_append]
    have hkept : Lined (w.act behave move) id lanes := by
      refine lined_of_moved howned hcoursing hmoved hmove ?_ (fun posting hmem => ?_) h
      · rw [← hsplit] at hunhurried
        exact hunhurried.of_append
      · refine haccepted posting ?_
        rw [← hsplit]
        exact List.mem_append_left _ hmem
    exact ih (owned_of_moved howned hmoved) (coursing_of_moved hcoursing howned hmoved) hkept hmoves
      hunhurried haccepted

end Scene

end RemoteHost
