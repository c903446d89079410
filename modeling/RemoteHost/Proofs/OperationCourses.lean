import Mathlib.Data.List.Nodup
import RemoteHost.Proofs.OperationStories

/-!
# Courses of operations

What an operation did, what became of its endpoints and what stage it is at fit together. They still
do after whatever the operation does next, and after whatever others do.
-/

namespace RemoteHost

variable {F : Type}

/-- What is true of an operation at any time. -/
structure Course (c : Callbacks F) (history : List (Occurrence F)) (id : OperationId)
    (op : CallbackOperation F) : Prop where
  lanes : ∀ (slot : Nat) (listener : Listener F), op.listeners[slot]? = some listener →
    callsAt slot (story history id) =
      (takings history listener.opened.endpoint).filterMap listener.slot.accepts?
  deaf : ∀ listener ∈ op.listeners, listener.listening = false →
    Board.inbox c.board listener.opened.endpoint = [] ∧
      Board.isConnected c.board listener.opened.endpoint = false
  tells : Tells op (story history id)
  running : (∀ ending, op.stage ≠ .ended ending) → ∀ e ∈ op.endpoints,
    c.board.isOpen e = true ∧ closings history e = 0
  closed : ∀ ending, op.stage = .ended ending → ∀ e ∈ op.endpoints, c.board.isOpen e = false
  tornDown : ∀ ending, op.stage = .ended ending → ending.tornDown = true →
    op.registered = false ∧ ∀ e ∈ op.endpoints, closings history e = 1
  exhausted : op.stage = .ended .endpointsClosed →
    ∀ listener ∈ op.listeners, listener.listening = false
  reported : ∀ report, .ended report ∈ story history id → report ∈ c.endings

/-- What an endpoint's owner can rely on while others do something. -/
structure Steady (c c' : Callbacks F) (history history' : List (Occurrence F)) (e : EndpointId) :
    Prop where
  isOpen : c'.board.isOpen e = c.board.isOpen e
  lost : Board.inbox c.board e = [] → Board.isConnected c.board e = false →
    Board.inbox c'.board e = [] ∧ Board.isConnected c'.board e = false
  takings : takings history' e = takings history e
  closings : closings history' e = closings history e

variable {c c' : Callbacks F} {history history' : List (Occurrence F)} {id : OperationId}
  {op : CallbackOperation F}

theorem mem_endpoints {listener : Listener F} (h : listener ∈ op.listeners) :
    listener.opened.endpoint ∈ op.endpoints :=
  List.mem_map_of_mem h

theorem Course.steady (h : Course c history id op)
    (hsteady : ∀ e ∈ op.endpoints, Steady c c' history history' e)
    (hstory : story history' id = story history id) (hendings : c.endings ⊆ c'.endings) :
    Course c' history' id op where
  lanes slot listener hget := by
    rw [hstory, (hsteady _ (mem_endpoints (List.mem_of_getElem? hget))).takings]
    exact h.lanes slot listener hget
  deaf listener hmem hdeaf := by
    obtain ⟨hinbox, hconnected⟩ := h.deaf listener hmem hdeaf
    exact (hsteady _ (mem_endpoints hmem)).lost hinbox hconnected
  tells := by
    rw [hstory]
    exact h.tells
  running hstage e he := by
    rw [(hsteady e he).isOpen, (hsteady e he).closings]
    exact h.running hstage e he
  closed ending hstage e he := by
    rw [(hsteady e he).isOpen]
    exact h.closed ending hstage e he
  tornDown ending hstage htorn := by
    obtain ⟨hregistered, hclosings⟩ := h.tornDown ending hstage htorn
    refine ⟨hregistered, fun e he => ?_⟩
    rw [(hsteady e he).closings]
    exact hclosings e he
  exhausted := h.exhausted
  reported report hmem := by
    rw [hstory] at hmem
    exact hendings (h.reported report hmem)

/-- To be told to end changes nothing that an operation did. -/
theorem Course.stopped (h : Course c history id op) : Course c history id op.stopped where
  lanes := h.lanes
  deaf := h.deaf
  tells := h.tells.congr rfl rfl rfl rfl
  running := h.running
  closed := h.closed
  tornDown ending hstage htorn := ⟨rfl, (h.tornDown ending hstage htorn).2⟩
  exhausted := h.exhausted
  reported := h.reported

theorem mem_started {label : String} {slots : List (Slot F)} {endpoints : List Opened}
    {parent : LineageId} {listener : Listener F}
    (h : listener ∈ (CallbackOperation.started label endpoints slots parent).listeners) :
    listener.listening = true ∧ listener.opened ∈ endpoints := by
  obtain ⟨⟨slot, opened⟩, hmem, rfl⟩ := List.mem_map.mp h
  exact ⟨rfl, (List.of_mem_zip hmem).2⟩

theorem mem_deafen {slot : Nat} {listener : Listener F}
    {i : Nat} (h : (op.deafen slot).listeners[i]? = some listener) :
    ∃ old, op.listeners[i]? = some old ∧ listener.slot = old.slot ∧ listener.opened = old.opened ∧
      (i ≠ slot → listener = old) := by
  rw [CallbackOperation.deafen, List.getElem?_modify] at h
  obtain ⟨old, hold, hlistener⟩ := Option.map_eq_some_iff.mp h
  refine ⟨old, hold, ?_⟩
  by_cases hi : slot = i
  · simp only [hi, if_true] at hlistener
    subst hlistener
    exact ⟨rfl, rfl, fun hne => absurd hi.symm hne⟩
  · simp only [hi, if_false] at hlistener
    subst hlistener
    exact ⟨rfl, rfl, fun _ => rfl⟩

/-- An operation that has seen that nothing can arrive at an endpoint any more. -/
theorem Course.deafened (h : Course c history id op) {slot : Nat} {listener : Listener F}
    (hstage : op.stage = .listening) (hget : op.listeners[slot]? = some listener)
    (hover : c.board.sighting listener.opened.endpoint = .over) :
    Course c history id (op.deafen slot) where
  lanes i new hnew := by
    obtain ⟨old, hold, hslot, hopened, -⟩ := mem_deafen hnew
    rw [hslot, hopened]
    exact h.lanes i old hold
  deaf new hmem hdeaf := by
    obtain ⟨i, hi⟩ := List.mem_iff_getElem?.mp hmem
    obtain ⟨old, hold, hslot, hopened, hothers⟩ := mem_deafen hi
    by_cases hne : i = slot
    · obtain rfl : old = listener := by simpa [hne, hget] using hold.symm
      obtain ⟨hinbox, hlost⟩ := Board.sighting_eq_over hover
      rw [hopened]
      refine ⟨hinbox, hlost.resolve_right fun hclosed => ?_⟩
      have hopen := (h.running (by simp [hstage]) _
        (mem_endpoints (List.mem_of_getElem? hget))).1
      rw [hclosed] at hopen
      cases hopen
    · rw [hothers hne] at hdeaf ⊢
      exact h.deaf old (List.mem_of_getElem? hold) hdeaf
  tells := h.tells.congr (op.slots_deafen slot) rfl rfl rfl
  running hrunning e he := h.running hrunning e (by simpa using he)
  closed ending hended := by simp [CallbackOperation.deafen, hstage] at hended
  tornDown ending hended := by simp [CallbackOperation.deafen, hstage] at hended
  exhausted hended := by simp [CallbackOperation.deafen, hstage] at hended
  reported := h.reported

/-- The endpoints of an operation's slots are different. -/
theorem slot_eq (hnodup : op.endpoints.Nodup) {i j : Nat} {listener other : Listener F}
    (hi : op.listeners[i]? = some listener) (hj : op.listeners[j]? = some other)
    (h : listener.opened.endpoint = other.opened.endpoint) : i = j := by
  have hlt : i < op.endpoints.length := by
    rw [CallbackOperation.endpoints, List.length_map]
    exact (List.getElem?_eq_some_iff.mp hi).1
  refine (List.getElem?_inj hlt hnodup).mp ?_
  simp [CallbackOperation.endpoints, hi, hj, h]

/-- What an operation does when it takes a payload. -/
def takingOf (id : OperationId) (e : EndpointId) (payload : Json) (deeds : List Deed) :
    List (Occurrence F) :=
  .taken e payload :: deeds.map (.operation id)

theorem takings_takingOf (id : OperationId) (e : EndpointId) (payload : Json) (deeds : List Deed)
    (i : EndpointId) : takings (takingOf id e payload deeds : List (Occurrence F)) i =
      if e = i then [payload] else [] := by
  have hdeeds := takings_deeds (F := F) deeds id i
  unfold takingOf takings at *
  split <;> simp_all

theorem closings_takingOf (id : OperationId) (e : EndpointId) (payload : Json)
    (deeds : List Deed) (i : EndpointId) :
    closings (takingOf id e payload deeds : List (Occurrence F)) i = 0 :=
  (List.countP_cons_of_neg (by simp [Occurrence.closes])).trans (closings_deeds deeds id i)

theorem arrivals_takingOf (id : OperationId) (e : EndpointId) (payload : Json)
    (deeds : List Deed) (i : EndpointId) :
    arrivals (takingOf id e payload deeds : List (Occurrence F)) i = [] :=
  arrivals_deeds deeds id i

theorem story_takingOf_of_ne {i id : OperationId} (e : EndpointId) (payload : Json)
    (deeds : List Deed) (h : i ≠ id) :
    story (takingOf id e payload deeds : List (Occurrence F)) i = [] :=
  story_deeds_of_ne deeds id h

theorem story_takingOf (id : OperationId) (e : EndpointId) (payload : Json) (deeds : List Deed) :
    story (takingOf id e payload deeds : List (Occurrence F)) id = deeds :=
  story_deeds deeds id

/-- An operation takes a payload, and may call a function for it. -/
theorem Course.taken (h : Course c history id op) (hnodup : op.endpoints.Nodup) {slot : Nat}
    {listener : Listener F} {payload : Json} (hstage : op.stage = .listening)
    (hget : op.listeners[slot]? = some listener) (hlistening : listener.listening = true)
    {op' : CallbackOperation F} (hlisteners : op'.listeners = op.listeners)
    (hrunning : ∀ ending, op'.stage ≠ .ended ending)
    (hboard : c'.board = c.board.take listener.opened.endpoint) (hendings : c'.endings = c.endings)
    {deeds : List Deed} (hcalls : ∀ i, callsAt i deeds =
      if slot = i then (listener.slot.accepts? payload).toList else [])
    (hnone : ∀ report, .ended report ∉ deeds) (htells : Tells op' (story history id ++ deeds)) :
    Course c' (history ++ takingOf id listener.opened.endpoint payload deeds) id op' where
  lanes i other hi := by
    rw [hlisteners] at hi
    rw [story_append, story_takingOf, callsAt_append, takings_append, takings_takingOf,
      List.filterMap_append, ← h.lanes i other hi, hcalls]
    congr 1
    by_cases hslot : slot = i
    · subst hslot
      obtain rfl : listener = other := by simpa [hget] using hi
      cases haccepts : listener.slot.accepts? payload <;> simp [haccepts]
    · have hne : listener.opened.endpoint ≠ other.opened.endpoint := fun heq =>
        hslot (slot_eq hnodup hget hi heq)
      simp [hslot, hne]
  deaf other hmem hdeaf := by
    rw [hlisteners] at hmem
    obtain ⟨i, hi⟩ := List.mem_iff_getElem?.mp hmem
    have hne : listener.opened.endpoint ≠ other.opened.endpoint := fun heq => by
      have hslot := slot_eq hnodup hget hi heq
      rw [hslot, hi] at hget
      cases hget
      rw [hlistening] at hdeaf
      cases hdeaf
    rw [hboard, Board.inbox_take, if_neg hne, Board.isConnected_take]
    exact h.deaf other hmem hdeaf
  tells := by
    rw [story_append, story_takingOf]
    exact htells
  running _ e he := by
    have he : e ∈ op.endpoints := by rwa [CallbackOperation.endpoints, hlisteners] at he
    obtain ⟨hopen, hclosings⟩ := h.running (by simp [hstage]) e he
    refine ⟨by rw [hboard, Board.isOpen_take, hopen], ?_⟩
    rw [closings_append, hclosings, closings_takingOf]
  closed ending hended := absurd hended (hrunning ending)
  tornDown ending hended := absurd hended (hrunning ending)
  exhausted hended := absurd hended (hrunning _)
  reported report hmem := by
    rw [story_append, story_takingOf, List.mem_append] at hmem
    rw [hendings]
    exact h.reported report (hmem.resolve_right (hnone report))

theorem Course.resumed (h : Course c history id op) {call : Calling F}
    {result : Except Fault Reaction} (hstage : op.stage = .calling call)
    (hcall : call.cardinality = .repeatable) (hboard : c'.board = c.board)
    (hendings : c'.endings = c.endings) :
    Course c' (history ++ [.operation id (.returned (.returned result))]) id op.resumed := by
  have htakings : ∀ e, takings (history ++ [.operation id (.returned (.returned result))]) e =
      takings history e := fun e => by simp [takings]
  have hstory : story (history ++ [.operation id (.returned (.returned result))]) id =
      story history id ++ [.returned (.returned result)] := by simp [story]
  exact {
    lanes := fun i listener hi => by
      rw [htakings, hstory, callsAt_append, ← h.lanes i listener hi]
      simp [callsAt]
    deaf := fun listener hmem hdeaf => by
      rw [hboard]
      exact h.deaf listener hmem hdeaf
    tells := by
      rw [hstory]
      exact h.tells.resumed hstage hcall result
    running := fun _ e he => by
      obtain ⟨hopen, hclosings⟩ := h.running (by simp [hstage]) e he
      rw [hboard]
      exact ⟨hopen, by simpa [closings, Occurrence.closes] using hclosings⟩
    closed := fun _ hended => by cases hended
    tornDown := fun _ hended => by cases hended
    exhausted := fun hended => by cases hended
    reported := fun report hmem => by
      rw [hstory] at hmem
      rw [hendings]
      exact h.reported report (by simpa using hmem) }

theorem Course.ended (h : Course c history id op) (hnodup : op.endpoints.Nodup)
    (hrunning : ∀ ending, op.stage ≠ .ended ending) {last : CallbackOperation F}
    (hlisteners : last.listeners = op.listeners) {ending : Ending}
    (hends : Callbacks.Ends id last ending c c') {occurrences : List (Occurrence F)}
    (htakings : ∀ e, takings occurrences e = [])
    (hclosings : ∀ e, closings occurrences e = if ending.tornDown then op.endpoints.count e else 0)
    (hcalls : ∀ slot, callsAt slot (story occurrences id) = [])
    (hdeaf : ending = .endpointsClosed → ∀ listener ∈ op.listeners, listener.listening = false)
    (hreports : ∀ report, .ended report ∈ story occurrences id → report = last.report ending)
    (htells : Tells (last.finished ending) (story history id ++ story occurrences id)) :
    Course c' (history ++ occurrences) id (last.finished ending) := by
  obtain ⟨c₁, hshut, rfl⟩ := hends
  have hendpoints : (last.finished ending).endpoints = op.endpoints := by
    rw [CallbackOperation.endpoints, CallbackOperation.endpoints, ← hlisteners]
    rfl
  exact {
    lanes := fun i listener hi => by
      rw [story_append, callsAt_append, hcalls, List.append_nil, takings_append, htakings,
        List.append_nil]
      exact h.lanes i listener (hlisteners ▸ hi)
    deaf := fun listener hmem hlost => by
      obtain ⟨hinbox, hconnected⟩ := h.deaf listener (hlisteners ▸ hmem) hlost
      refine ⟨(hshut.inbox _).trans hinbox, Bool.eq_false_iff.mpr fun hc => ?_⟩
      rw [hshut.isConnected _ hc] at hconnected
      cases hconnected
    tells := by
      rw [story_append]
      exact htells
    running := fun hnot => absurd rfl (hnot ending)
    closed := fun _ _ e he => by
      have he : e ∈ last.endpoints := he
      simp [hshut.isOpen, he]
    tornDown := fun final hfinal htorn => by
      cases hfinal
      refine ⟨?_, fun e he => ?_⟩
      · cases ending with
        | oneShotFired | reclaimed => simp [CallbackOperation.finished]
        | endpointsClosed | aborted => cases htorn
      · rw [hendpoints] at he
        rw [closings_append, (h.running hrunning e he).2, hclosings, htorn,
          List.count_eq_one_of_mem hnodup he]
        rfl
    exhausted := fun hfinal => by
      cases hfinal
      exact fun listener hmem => hdeaf rfl listener (hlisteners ▸ hmem)
    reported := fun report hmem => by
      rw [story_append, List.mem_append] at hmem
      refine List.mem_append.mpr (hmem.imp (h.reported report) fun hnew => ?_)
      rw [hreports report hnew]
      exact List.mem_singleton_self _ }

theorem Course.started {label : String} {slots : List (Slot F)} {endpoints : List Opened}
    {parent : LineageId} (hnew : ∀ opened ∈ endpoints, c.board.isOpen opened.endpoint = true ∧
      takings history opened.endpoint = [] ∧ closings history opened.endpoint = 0)
    (hstory : story history id = []) :
    Course c history id (.started label endpoints slots parent) where
  lanes slot listener hget := by
    have hmem := (mem_started (List.mem_of_getElem? hget)).2
    rw [hstory, (hnew _ hmem).2.1]
    rfl
  deaf listener hmem hdeaf := by
    rw [(mem_started hmem).1] at hdeaf
    cases hdeaf
  tells := by
    rw [hstory]
    exact ⟨0, [], [], .none, .listening, rfl⟩
  running hstage e he := by
    obtain ⟨listener, hmem, rfl⟩ := List.mem_map.mp he
    obtain ⟨hopen, -, hclosings⟩ := hnew _ (mem_started hmem).2
    exact ⟨hopen, hclosings⟩
  closed ending hstage := nomatch hstage
  tornDown ending hstage := nomatch hstage
  exhausted hstage := nomatch hstage
  reported report hmem := by simp [hstory] at hmem

/-- Boards with the same endpoints are all that matters. -/
theorem Steady.nothing {board : Board} {u u' : List (Party × EndpointId)}
    {ops ops' : List (CallbackOperation F)} {endings endings' : List OperationReport}
    {e : EndpointId} :
    Steady ⟨board, u, ops, endings⟩ ⟨board, u', ops', endings'⟩ history history e :=
  ⟨rfl, fun hinbox hlost => ⟨hinbox, hlost⟩, rfl, rfl⟩

theorem Steady.shut {endpoints : List EndpointId} (hshut : Callbacks.Shut endpoints c c')
    {e : EndpointId} (he : e ∉ endpoints) {occurrences : List (Occurrence F)}
    (htakings : RemoteHost.takings occurrences e = [])
    (hclosings : RemoteHost.closings occurrences e = 0) :
    Steady c c' history (history ++ occurrences) e where
  isOpen := by simp [hshut.isOpen, he]
  lost hinbox hconnected := by
    refine ⟨(hshut.inbox e).trans hinbox, Bool.eq_false_iff.mpr fun hc => ?_⟩
    rw [hshut.isConnected e hc] at hconnected
    cases hconnected
  takings := by rw [takings_append, htakings, List.append_nil]
  closings := by rw [closings_append, hclosings, Nat.add_zero]

theorem Steady.arrived {i : EndpointId} (hlength : i < c.board.length)
    (hconnected : Board.isConnected c.board i = true) (payload : Json) (e : EndpointId) :
    Steady c { c with board := c.board.modify i fun e => { e with inbox := e.inbox ++ [payload] } }
      history (history ++ [.arrived i payload]) e where
  isOpen := Board.isOpen_append ..
  lost hinbox hlost := by
    have hne : i ≠ e := fun heq => by
      rw [heq, hlost] at hconnected
      cases hconnected
    refine ⟨?_, (Board.isConnected_append ..).trans hlost⟩
    rw [Board.inbox_append hlength, if_neg hne, hinbox]
  takings := by simp [RemoteHost.takings]
  closings := by simp [RemoteHost.closings, Occurrence.closes]

theorem Steady.disconnected (i e : EndpointId) :
    Steady c { c with board := c.board.modify i fun e => { e with connected := false } }
      history history e where
  isOpen := Board.isOpen_disconnect ..
  lost hinbox hlost := by
    refine ⟨(Board.inbox_disconnect ..).trans hinbox, ?_⟩
    rw [Board.isConnected_disconnect, hlost, Bool.false_and]
  takings := rfl
  closings := rfl

end RemoteHost
