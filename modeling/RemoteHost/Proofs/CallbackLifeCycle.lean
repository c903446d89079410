import RemoteHost.Proofs.EndpointOwnership
import RemoteHost.Proofs.OperationCourses

/-!
# The life of a callback operation

Whatever happens in a session, an operation goes through its life in one way: it calls one function
after another, each slot's in the order in which its payloads came, ends at most once, and leaves
nothing open behind.
-/

namespace RemoteHost

variable {F : Type}

/-- What is true of all endpoints and operations at any time. -/
structure Coursing (c : Callbacks F) (history : List (Occurrence F)) : Prop where
  queued : ∀ e, arrivals history e = takings history e ++ Board.inbox c.board e
  fresh : ∀ e, c.board.length ≤ e → takings history e = [] ∧ closings history e = 0
  unclaimed : ∀ e ∈ c.unclaimed.map (·.2),
    c.board.isOpen e = true ∧ takings history e = [] ∧ closings history e = 0
  courses : ∀ (id : OperationId) (op : CallbackOperation F), c.operations[id]? = some op →
    Course c history id op
  silent : ∀ id : OperationId, c.operations.length ≤ id → story history id = []

variable {c c' : Callbacks F} {history history' : List (Occurrence F)} {id : OperationId}
  {op : CallbackOperation F} {busy : Party → Option (Engagement F)}

/-! ## One move -/

namespace Coursing

theorem keep (h : Coursing c history) (hoperations : c'.operations = c.operations)
    (hendings : c'.endings = c.endings)
    (hsteady : ∀ e ∈ c.operations.flatMap (·.endpoints), Steady c c' history history' e)
    (hstory : ∀ id, story history' id = story history id) (id : OperationId)
    (op : CallbackOperation F) (hop : c'.operations[id]? = some op) :
    Course c' history' id op := by
  rw [hoperations] at hop
  refine (h.courses id op hop).steady (fun e he => hsteady e ?_) (hstory id) (by simp [hendings])
  exact List.mem_flatMap.mpr ⟨op, List.mem_of_getElem? hop, he⟩

/-- What parties do changes nothing but that they may close endpoints that are theirs. -/
theorem ofParties (h : Coursing c history) (howned : Owned c busy) {endpoints : List EndpointId}
    (hshut : Callbacks.Shut endpoints c c') (hmem : ∀ e ∈ endpoints, e ∈ c.unclaimed.map (·.2))
    {occurrences : List (Occurrence F)} (hparty : ∀ o ∈ occurrences, o.isOfParty = true)
    (hclosings : ∀ e, e ∉ endpoints → closings occurrences e = 0) :
    Coursing c' (history ++ occurrences) where
  queued e := by
    rw [arrivals_append, takings_append, arrivals_ofParties hparty, takings_ofParties hparty,
      List.append_nil, List.append_nil, hshut.inbox]
    exact h.queued e
  fresh e he := by
    rw [hshut.length] at he
    have hne : e ∉ endpoints := fun hin =>
      Nat.not_lt.mpr he (howned.bounded e (List.mem_append_left _ (hmem e hin)))
    rw [takings_append, closings_append, takings_ofParties hparty, hclosings e hne,
      List.append_nil]
    exact h.fresh e he
  unclaimed e he := by
    rw [hshut.unclaimed] at he
    obtain ⟨u, hu, rfl⟩ := List.mem_map.mp he
    obtain ⟨hu, hne⟩ := List.mem_filter.mp hu
    have hne : u.2 ∉ endpoints := of_decide_eq_true hne
    rw [hshut.isOpen, takings_append, closings_append, takings_ofParties hparty,
      hclosings _ hne, List.append_nil]
    simpa [hne] using h.unclaimed _ (List.mem_map_of_mem hu)
  courses := h.keep hshut.operations hshut.endings (fun e he => by
    have hne : e ∉ endpoints := fun hin =>
      (List.nodup_append.mp howned.nodup).2.2 e (hmem e hin) e he rfl
    exact .shut hshut hne (takings_ofParties hparty e) (hclosings e hne)) fun id => by
    rw [story_append, story_ofParties hparty, List.append_nil]
  silent id hid := by
    rw [hshut.operations] at hid
    rw [story_append, story_ofParties hparty, List.append_nil]
    exact h.silent id hid

theorem calm (h : Coursing c history) (howned : Owned c busy) {occurrences : List (Occurrence F)}
    (hcalm : ∀ o ∈ occurrences, o.isCalm = true) : Coursing c (history ++ occurrences) :=
  h.ofParties howned (.nothing c) (by simp)
    (fun o ho => Occurrence.isOfParty_of_isCalm (hcalm o ho))
    fun e _ => closings_eq_zero fun o ho => Occurrence.closes_of_isCalm (hcalm o ho) e

theorem opened (h : Coursing c history) (howned : Owned c busy) (p : Party) (token : String) :
    Coursing { c with
      board := ((c.board.disown token).openLine token).2
      unclaimed := c.unclaimed ++ [(p, c.board.length)] } history where
  queued e := by
    rw [Board.inbox_openLine, Board.inbox_disown]
    exact h.queued e
  fresh e he := by
    refine h.fresh e ?_
    simp only [Board.length_openLine, Board.length_disown] at he
    omega
  unclaimed e he := by
    rw [Board.isOpen_openLine, Board.isOpen_disown, Board.length_disown]
    simp only [List.map_append, List.mem_append, List.map_cons, List.map_nil,
      List.mem_singleton] at he
    rcases he with he | rfl
    · obtain ⟨hopen, htold⟩ := h.unclaimed e he
      exact ⟨by simp [hopen], htold⟩
    · exact ⟨by simp, h.fresh _ (Nat.le_refl _)⟩
  courses := h.keep rfl rfl (fun e he => by
    have hne : e ≠ c.board.length :=
      Nat.ne_of_lt (howned.bounded e (List.mem_append_right _ he))
    refine ⟨?_, fun hinbox hconnected => ⟨?_, ?_⟩, rfl, rfl⟩
    · simp [Board.isOpen_openLine, hne]
    · simpa using hinbox
    · rw [Board.isConnected_openLine, Board.length_disown]
      have hlost : Board.isConnected (c.board.disown token) e ≠ true := fun hc => by
        rw [Board.isConnected_of_disown hc] at hconnected
        cases hconnected
      simp [hne, hlost]) fun _ => rfl
  silent := h.silent

theorem launched (h : Coursing c history) {label : String} {endpoints : List Opened}
    {slots : List (Slot F)} {parent : LineageId}
    (hmem : ∀ opened ∈ endpoints, opened.endpoint ∈ c.unclaimed.map (·.2)) :
    Coursing { c with
      unclaimed := c.unclaimed.filter fun u => u.2 ∉ endpoints.map (·.endpoint)
      operations := c.operations ++ [.started label endpoints slots parent] } history where
  queued := h.queued
  fresh := h.fresh
  unclaimed e he := h.unclaimed e ((List.filter_sublist.map _).subset he)
  courses id op hop := by
    rw [List.getElem?_append] at hop
    split at hop
    · exact (h.courses id op hop).steady (fun e _ => .nothing) rfl (List.Subset.refl _)
    · rename_i hid
      obtain ⟨hget, rfl⟩ : id - c.operations.length = 0 ∧
          CallbackOperation.started label endpoints slots parent = op := by
        simpa [List.getElem?_singleton] using hop
      refine .started (fun opened hopened => h.unclaimed _ (hmem opened hopened)) ?_
      exact h.silent id (Nat.le_of_not_lt hid)
  silent id hid := h.silent id (by
    rw [List.length_append] at hid
    omega)

theorem arrived (h : Coursing c history) {e : EndpointId} (payload : Json)
    (hlength : e < c.board.length) (hconnected : Board.isConnected c.board e = true) :
    Coursing { c with
      board := c.board.modify e fun e => { e with inbox := e.inbox ++ [payload] } }
      (history ++ [.arrived e payload]) where
  queued i := by
    rw [arrivals_append, takings_append, Board.inbox_append hlength, h.queued i]
    by_cases hi : e = i
    · simp [arrivals, takings, hi]
    · simp [arrivals, takings, hi]
  fresh i hi := by
    rw [List.length_modify] at hi
    simpa [takings, closings, Occurrence.closes] using h.fresh i hi
  unclaimed i hi := by
    rw [Board.isOpen_append]
    simpa [takings, closings, Occurrence.closes] using h.unclaimed i hi
  courses := h.keep rfl rfl (fun i _ => .arrived hlength hconnected payload i)
    fun id => by simp [story]
  silent id hid := by simpa [story] using h.silent id hid

theorem disconnected (h : Coursing c history) (e : EndpointId) :
    Coursing { c with board := c.board.modify e fun e => { e with connected := false } }
      history where
  queued i := by
    rw [Board.inbox_disconnect]
    exact h.queued i
  fresh i hi := h.fresh i (by simpa using hi)
  unclaimed i hi := by
    rw [Board.isOpen_disconnect]
    exact h.unclaimed i hi
  courses := h.keep rfl rfl (fun i _ => .disconnected e i) fun id => rfl
  silent := h.silent

theorem told (h : Coursing c history) {operations : List (CallbackOperation F)}
    (htold : Callbacks.Told c.operations operations) :
    Coursing { c with operations } history where
  queued := h.queued
  fresh := h.fresh
  unclaimed := h.unclaimed
  courses id op hop := by
    have hop : operations[id]? = some op := hop
    rcases htold id with hsame | hstopped
    · rw [hop] at hsame
      exact (h.courses id op hsame.symm).steady (fun e _ => .nothing) rfl (List.Subset.refl _)
    · rw [hop] at hstopped
      obtain ⟨old, hold, rfl⟩ := Option.map_eq_some_iff.mp hstopped.symm
      have hcourse : Course { c with operations } history id old :=
        (h.courses id old hold).steady (fun e _ => .nothing) rfl (List.Subset.refl _)
      exact hcourse.stopped
  silent id hid := by
    refine h.silent id (List.getElem?_eq_none_iff.mp ?_)
    have hnone : operations[id]? = none := List.getElem?_eq_none_iff.mpr hid
    rcases htold id with hsame | hstopped
    · rw [← hsame, hnone]
    · rw [hnone] at hstopped
      exact Option.map_eq_none_iff.mp hstopped.symm

/-- It is enough to know what became of the operation whose turn it was. -/
theorem turned (h : Coursing c history) (howned : Owned c busy)
    (hop : c.operations[id]? = some op) {op' : CallbackOperation F}
    (hoperations : c'.operations = c.operations.modify id fun _ => op')
    (hunclaimed : c'.unclaimed.map (·.2) ⊆ c.unclaimed.map (·.2))
    (hlength : c'.board.length = c.board.length) (hendings : c.endings ⊆ c'.endings)
    (hsteady : ∀ e, e ∉ op.endpoints → Steady c c' history history' e)
    (hstory : ∀ i, i ≠ id → story history' i = story history i)
    (hqueued : ∀ e, arrivals history' e = takings history' e ++ Board.inbox c'.board e)
    (hcourse : Course c' history' id op') : Coursing c' history' where
  queued := hqueued
  fresh e he := by
    rw [hlength] at he
    have hne : e ∉ op.endpoints := fun hmem => Nat.not_lt.mpr he (howned.bounded e
      (List.mem_append_right _ (List.mem_flatMap.mpr ⟨op, List.mem_of_getElem? hop, hmem⟩)))
    rw [(hsteady e hne).takings, (hsteady e hne).closings]
    exact h.fresh e he
  unclaimed e he := by
    have hne : e ∉ op.endpoints := fun hmem => howned.not_held hop hmem (hunclaimed he)
    rw [(hsteady e hne).isOpen, (hsteady e hne).takings, (hsteady e hne).closings]
    exact h.unclaimed e (hunclaimed he)
  courses i other hother := by
    rw [hoperations, List.getElem?_modify] at hother
    by_cases hi : id = i
    · subst hi
      obtain rfl : op' = other := by simpa [hop] using hother
      exact hcourse
    · have hold : c.operations[i]? = some other := by simpa [hi] using hother
      refine (h.courses i other hold).steady (fun e he => hsteady e fun hmem => hi ?_)
        (hstory i (Ne.symm hi)) hendings
      exact howned.operation_eq hop hold hmem he
  silent i hi := by
    rw [hoperations, List.length_modify] at hi
    have hne : i ≠ id := fun heq => by
      rw [heq] at hi
      rw [List.getElem?_eq_none hi] at hop
      cases hop
    rw [hstory i hne]
    exact h.silent i hi

theorem takes (h : Coursing c history) (howned : Owned c busy) (hop : c.operations[id]? = some op)
    {slot : Nat} {listener : Listener F} {payload : Json} (hstage : op.stage = .listening)
    (hget : op.listeners[slot]? = some listener) (hlistening : listener.listening = true)
    (hseen : c.board.sighting listener.opened.endpoint = .payload payload)
    (op' : CallbackOperation F) (hlisteners : op'.listeners = op.listeners)
    (hrunning : ∀ ending, op'.stage ≠ .ended ending) (deeds : List Deed)
    (hcalls : ∀ i, callsAt i deeds =
      if slot = i then (listener.slot.accepts? payload).toList else [])
    (hnone : ∀ report, .ended report ∉ deeds) (htells : Tells op' (story history id ++ deeds)) :
    Coursing { c with
        board := c.board.take listener.opened.endpoint
        operations := c.operations.modify id fun _ => op' }
      (history ++ takingOf id listener.opened.endpoint payload deeds) := by
  have hmem : listener.opened.endpoint ∈ op.endpoints :=
    mem_endpoints (List.mem_of_getElem? hget)
  have hcourse : Course { c with
        board := c.board.take listener.opened.endpoint
        operations := c.operations.modify id fun _ => op' }
      (history ++ takingOf id listener.opened.endpoint payload deeds) id op' :=
    (h.courses id op hop).taken (howned.endpoints_nodup hop) hstage hget hlistening hlisteners
      hrunning (by rfl) (by rfl) hcalls hnone htells
  refine h.turned howned hop rfl (List.Subset.refl _) (Board.length_take ..) (List.Subset.refl _)
    (fun e he => ?_) (fun i hi => ?_) (fun e => ?_) hcourse
  · have hne : listener.opened.endpoint ≠ e := fun heq => he (heq ▸ hmem)
    refine ⟨Board.isOpen_take .., fun hinbox hlost => ⟨?_, ?_⟩, ?_, ?_⟩
    · rw [Board.inbox_take, if_neg hne, hinbox]
    · rw [Board.isConnected_take, hlost]
    · rw [takings_append, takings_takingOf, if_neg hne, List.append_nil]
    · rw [closings_append, closings_takingOf, Nat.add_zero]
  · rw [story_append, story_takingOf_of_ne _ _ _ hi, List.append_nil]
  · obtain ⟨later, hinbox⟩ := Board.sighting_eq_payload hseen
    rw [arrivals_append, arrivals_takingOf, takings_append, takings_takingOf, Board.inbox_take,
      h.queued e]
    by_cases he : listener.opened.endpoint = e
    · simp [← he, hinbox]
    · simp [he]

def endingOf (id : OperationId) (before : List Deed) (closed : List EndpointId)
    (report : OperationReport) : List (Occurrence F) :=
  before.map (.operation id) ++ closed.map .closed ++ [Deed.ended report].map (.operation id)

section EndingOf

variable (id : OperationId) (before : List Deed) (closed : List EndpointId)
  (report : OperationReport) (e : EndpointId)

theorem arrivals_endingOf :
    arrivals (endingOf id before closed report : List (Occurrence F)) e = [] := by
  simp [endingOf, -List.map_cons, -List.map_nil]

theorem takings_endingOf :
    takings (endingOf id before closed report : List (Occurrence F)) e = [] := by
  simp [endingOf, -List.map_cons, -List.map_nil]

theorem closings_endingOf :
    closings (endingOf id before closed report : List (Occurrence F)) e = closed.count e := by
  simp [endingOf, -List.map_cons, -List.map_nil]

theorem story_endingOf : story (endingOf id before closed report : List (Occurrence F)) id =
    before ++ [.ended report] := by
  simp [endingOf, -List.map_cons, -List.map_nil]

end EndingOf

theorem ends (h : Coursing c history) (howned : Owned c busy) (hop : c.operations[id]? = some op)
    (hrunning : ∀ ending, op.stage ≠ .ended ending) (last : CallbackOperation F)
    (hlisteners : last.listeners = op.listeners) {ending : Ending}
    (hends : Callbacks.Ends id last ending c c') (before : List Deed)
    (hbefore : ∀ deed ∈ before, ∃ verdict, deed = .returned verdict)
    (hdeaf : ending = .endpointsClosed → ∀ listener ∈ op.listeners, listener.listening = false)
    (htells : Tells (last.finished ending)
      (story history id ++ (before ++ [.ended (last.report ending)]))) :
    Coursing c' (history ++ endingOf id before (if ending.tornDown then op.endpoints else [])
      (last.report ending)) := by
  have hendpoints : last.endpoints = op.endpoints := by
    rw [CallbackOperation.endpoints, hlisteners]
    rfl
  generalize hclosed : (if ending.tornDown then op.endpoints else []) = closed
  have harrivals := arrivals_endingOf (F := F) id before closed (last.report ending)
  have htakings := takings_endingOf (F := F) id before closed (last.report ending)
  have hclosings := closings_endingOf (F := F) id before closed (last.report ending)
  have hstory := story_endingOf (F := F) id before closed (last.report ending)
  have hcourse := (h.courses id op hop).ended (howned.endpoints_nodup hop) hrunning hlisteners hends
    htakings (fun e => by rw [hclosings, ← hclosed]; split <;> simp)
    (fun slot => by
      rw [hstory, callsAt_append, callsAt_of_returns hbefore]
      rfl) hdeaf (fun report hmem => by
      rw [hstory, List.mem_append, List.mem_singleton] at hmem
      rcases hmem with hmem | hmem
      · obtain ⟨verdict, hverdict⟩ := hbefore _ hmem
        cases hverdict
      · cases hmem
        rfl)
    (hstory ▸ htells)
  obtain ⟨c₁, hshut, rfl⟩ := hends
  refine h.turned howned hop rfl ?_ hshut.length (List.subset_append_left ..) (fun e he => ?_)
    (fun i hi => ?_) (fun e => ?_) hcourse
  · dsimp only
    rw [hshut.unclaimed]
    exact (List.filter_sublist.map _).subset
  · have hne : e ∉ last.endpoints := hendpoints ▸ he
    have hnot : closed.count e = 0 := by
      rw [← hclosed]
      split
      · exact List.count_eq_zero.mpr he
      · rfl
    have hsteady : Steady c c₁ history _ e :=
      .shut hshut hne (htakings e) ((hclosings e).trans hnot)
    exact ⟨hsteady.isOpen, hsteady.lost, hsteady.takings, hsteady.closings⟩
  · rw [story_append, endingOf, story_append, story_append, story_deeds_of_ne _ _ hi,
      story_deeds_of_ne _ _ hi, story_closed]
    simp
  · rw [arrivals_append, takings_append, harrivals, htakings, List.append_nil, List.append_nil]
    exact (h.queued e).trans (congrArg _ (hshut.inbox e).symm)

end Coursing

/-! ## Turns -/

namespace Scene

variable {w w' : Scene F} {move : Move F}

theorem coursing_of_turn (h : Coursing w.session.callbacks w.history)
    (howned : Owned w.session.callbacks w.busy) (hop : w.session.operations[id]? = some op)
    (hturn : Turn w id op move w') : Coursing w'.session.callbacks w'.history := by
  have hcourse := h.courses id op hop
  have hnodup := howned.endpoints_nodup hop
  cases hturn with
  | idle => exact h
  | deafened hstage hget hover hsession =>
    rw [hsession, Callbacks.modify_eq_of_getElem? hop]
    refine h.turned howned hop rfl (List.Subset.refl _) rfl (List.Subset.refl _)
      (fun _ _ => .nothing) (fun _ _ => rfl) h.queued ?_
    exact (hcourse.deafened hstage hget hover).steady (fun _ _ => .nothing) rfl
      (List.Subset.refl _)
  | @refused session slot listener payload hstage hget hlistening hseen hrefused hsession =>
    rw [hsession]
    have htakes := h.takes howned hop hstage hget hlistening hseen op rfl (by simp [hstage]) []
      (by simp [hrefused, callsAt]) (by simp) (by simpa using hcourse.tells)
    have hsame : w.session.callbacks.operations.modify id (fun _ => op) =
        w.session.callbacks.operations :=
      (Callbacks.modify_eq_of_getElem? hop fun op => op).symm.trans (List.modify_id ..)
    rw [hsame] at htakes
    exact htakes
  | @called session slot listener payload outcome call hstage hget hlistening hseen haccepted hcall
      hsession =>
    rw [hsession, Callbacks.modify_eq_of_getElem? hop]
    refine h.takes howned hop hstage hget hlistening hseen { op with stage := .calling call } rfl
      (by simp) [.called slot outcome] (fun i => ?_) (by simp)
      (hcourse.tells.called hstage outcome ?_)
    · by_cases hi : slot = i <;> simp [callsAt, hi, haccepted]
    · simp [hasCardinality, CallbackOperation.slots, hget, hcall]
  | resumed hstage hcall hsession =>
    rw [hsession]
    refine h.turned howned hop rfl (List.Subset.refl _) rfl (List.Subset.refl _)
      (fun _ _ => ?_) (fun i hi => ?_) (fun e => ?_) (hcourse.resumed hstage hcall rfl rfl)
    · exact ⟨rfl, fun hinbox hlost => ⟨hinbox, hlost⟩, by simp [takings],
        by simp [closings, Occurrence.closes]⟩
    · simp [story, Ne.symm hi]
    · simpa [arrivals, takings] using h.queued e
  | @fired session call result hstage hcall hends =>
    exact h.ends howned hop (by simp [hstage]) op.resumed rfl hends [.returned (.returned result)]
      (by simp) (by simp) (hcourse.tells.fired hstage hcall result)
  | died hstage hends =>
    exact h.ends howned hop (by simp [hstage]) op rfl hends [.returned .died] (by simp) (by simp)
      (hcourse.tells.died hstage)
  | stopped hstage hends =>
    exact h.ends howned hop (by simp [hstage]) op rfl hends [] (by simp) (by simp)
      (hcourse.tells.reclaimed hstage)
  | exhausted hstage hdeaf hends =>
    exact h.ends howned hop (by simp [hstage]) op rfl hends [] (by simp) (fun _ => hdeaf)
      (hcourse.tells.exhausted hstage)

theorem coursing_of_moved (h : Coursing w.session.callbacks w.history)
    (howned : Owned w.session.callbacks w.busy) (hmoved : Moved w move w') :
    Coursing w'.session.callbacks w'.history := by
  cases hmoved with
  | calm hsame hcalm hkeeps =>
    rw [hsame]
    exact h.calm howned hcalm
  | opened hsession hcalm hkeeps =>
    rw [hsession]
    exact (h.calm howned hcalm).opened howned _ _
  | closed hheld hsession hclosing hkeeps =>
    refine h.ofParties howned hsession
      (fun e he => List.mem_map_of_mem (mem_heldBy.mp (hheld e he))) (fun o ho => ?_)
      fun e he => closings_eq_zero fun o ho => ?_
    · rcases hclosing o ho with hcalm | ⟨e, -, rfl⟩
      · exact Occurrence.isOfParty_of_isCalm hcalm
      · rfl
    · rcases hclosing o ho with hcalm | ⟨e', he', rfl⟩
      · exact Occurrence.closes_of_isCalm hcalm e
      · exact beq_false_of_ne fun heq => he (heq ▸ he')
  | launched hheld hlength hsession hcalm hkeeps =>
    rw [hsession]
    refine (h.calm howned hcalm).launched fun opened hopened => ?_
    have hmem := List.mem_map_of_mem (f := (·.endpoint)) hopened
    rw [hheld] at hmem
    exact List.mem_map_of_mem (mem_heldBy.mp hmem)
  | arrived hopen hconnected hsession =>
    rw [hsession]
    exact h.arrived _ (Board.lt_length_of_isOpen hopen) hconnected
  | disconnected hsession =>
    rw [hsession]
    exact h.disconnected _
  | told htold hsession =>
    rw [hsession]
    exact h.told htold
  | turned hop hturn => exact coursing_of_turn h howned hop hturn

theorem coursing_start (settings : Settings) (host : Host) :
    Coursing (start settings host : Scene F).session.callbacks
      (start settings host : Scene F).history where
  queued _ := rfl
  fresh _ _ := ⟨rfl, rfl⟩
  unclaimed _ he := nomatch he
  courses _ _ hop := nomatch hop
  silent _ _ := rfl

theorem coursing_run (behave : Behaviour F) (settings : Settings) (host : Host)
    (moves : List (Move F)) :
    Coursing ((start settings host).run behave moves).session.callbacks
      ((start settings host).run behave moves).history := by
  have hboth : Owned ((start settings host).run behave moves).session.callbacks
      ((start settings host).run behave moves).busy ∧
      Coursing ((start settings host).run behave moves).session.callbacks
        ((start settings host).run behave moves).history :=
    run_induction
      (P := fun w => Owned w.session.callbacks w.busy ∧ Coursing w.session.callbacks w.history)
      ⟨owned_start settings host, coursing_start settings host⟩
      (fun w move h => ⟨owned_of_moved h.1 (moved_act h.1 move),
        coursing_of_moved h.2 h.1 (moved_act h.1 move)⟩) moves
  exact hboth.2

end Scene

/-! ## The life cycle -/

/-- The life of an operation whose functions return. -/
structure LifeCycle (w : Scene F) (id : OperationId) (op : CallbackOperation F) : Prop where
  /-- Nothing follows a call but its return. -/
  oneAtATime : ∀ before after slot outcome,
    story w.history id = before ++ .called slot outcome :: after →
      after = [] ∨ ∃ verdict rest, after = .returned verdict :: rest
  /-- Every call is for a slot, with the next payload that the slot accepts. -/
  inOrder : ∀ slot,
    (∀ listener, op.listeners[slot]? = some listener →
      callsAt slot (story w.history id) <+:
        (arrivals w.history listener.opened.endpoint).filterMap listener.slot.accepts?) ∧
    (op.listeners[slot]? = none → callsAt slot (story w.history id) = [])
  /-- The call of a one-shot slot is the last one, and the end comes with its return. -/
  oneShotLast : ∀ before after slot outcome,
    story w.history id = before ++ .called slot outcome :: after →
      hasCardinality op.slots slot .oneShot →
        after = [] ∨ ∃ result report, after = [.returned (.returned result), .ended report] ∧
          report.ending = .oneShotFired
  nothingAfter : ∀ before after report,
    story w.history id = before ++ .ended report :: after → after = []
  counted : ∀ report, .ended report ∈ story w.history id →
    report.invocations = callCount (story w.history id) ∧ report ∈ w.session.journal.endings
  /-- Until its end every endpoint of an operation stays open. -/
  listening : (∀ report, .ended report ∉ story w.history id) → ∀ e ∈ op.endpoints,
    w.session.board.isOpen e = true ∧ closings w.history e = 0
  tornDown : ∀ report, .ended report ∈ story w.history id → report.ending.tornDown = true →
    op ∉ w.session.pending ∧ ∀ e ∈ op.endpoints,
      w.session.board.isOpen e = false ∧ closings w.history e = 1
  /-- An operation gives up when the host has let go of all its endpoints and everything that they
  received was taken. -/
  exhausted : ∀ report, .ended report ∈ story w.history id → report.ending = .endpointsClosed →
    ∀ slot listener, op.listeners[slot]? = some listener →
      Board.isConnected w.session.board listener.opened.endpoint = false ∧
      callsAt slot (story w.history id) =
        (arrivals w.history listener.opened.endpoint).filterMap listener.slot.accepts?

theorem callback_lifeCycle (behave : Behaviour F) (settings : Settings) (host : Host)
    (moves : List (Move F)) {id : OperationId} {op : CallbackOperation F}
    (hop : ((Scene.start settings host).run behave moves).session.operations[id]? = some op)
    (hreturn : .returned .died ∉ story ((Scene.start settings host).run behave moves).history id) :
    LifeCycle ((Scene.start settings host).run behave moves) id op := by
  have hcoursing := Scene.coursing_run behave settings host moves
  generalize (Scene.start settings host).run behave moves = w at *
  have hcourse := hcoursing.courses id op hop
  have hended : ∀ report, .ended report ∈ story w.history id → ∃ ending,
      op.stage = .ended ending ∧ report.ending = ending := by
    intro report hmem
    obtain ⟨before, after, hsplit⟩ := List.append_of_mem hmem
    obtain ⟨-, ending, hstage, rfl, -⟩ := hcourse.tells.ended hsplit
    exact ⟨ending, hstage, rfl⟩
  constructor
  case oneAtATime =>
    intro before after slot outcome hsplit
    rcases hcourse.tells.after_call hsplit with rfl | ⟨-, result, rest, rfl⟩ | ⟨result, rfl⟩ | rfl
    · exact .inl rfl
    · exact .inr ⟨_, _, rfl⟩
    · exact .inr ⟨_, _, rfl⟩
    · exact .inr ⟨_, _, rfl⟩
  case inOrder =>
    intro slot
    constructor
    · intro listener hget
      rw [hcourse.lanes slot listener hget, hcoursing.queued, List.filterMap_append]
      exact List.prefix_append ..
    · intro hget
      refine List.filterMap_eq_nil_iff.mpr fun deed hdeed => ?_
      cases deed with
      | called i outcome =>
        obtain ⟨cardinality, hslot⟩ := hcourse.tells.slot_of_mem hdeed
        have hne : i ≠ slot := by
          rintro rfl
          simp [hasCardinality, CallbackOperation.slots, hget] at hslot
        simp [hne]
      | returned | ended => rfl
  case oneShotLast =>
    intro before after slot outcome hsplit honeShot
    rcases hcourse.tells.after_call hsplit with rfl | ⟨hrepeatable, -⟩ | ⟨result, rfl⟩ | rfl
    · exact .inl rfl
    · rw [hasCardinality, honeShot] at hrepeatable
      cases hrepeatable
    · exact .inr ⟨result, _, rfl, rfl⟩
    · exact absurd (by simp [hsplit]) hreturn
  case nothingAfter =>
    intro before after report hsplit
    exact (hcourse.tells.ended hsplit).1
  case counted =>
    intro report hmem
    obtain ⟨before, after, hsplit⟩ := List.append_of_mem hmem
    obtain ⟨-, ending, -, -, hcount⟩ := hcourse.tells.ended hsplit
    exact ⟨hcount.resolve_left hreturn, hcourse.reported report hmem⟩
  case listening =>
    intro hnone
    exact hcourse.running fun ending hstage => hnone _ (hcourse.tells.ended_of_stage hstage)
  case tornDown =>
    intro report hmem htorn
    obtain ⟨ending, hstage, hending⟩ := hended report hmem
    obtain ⟨hregistered, hclosings⟩ := hcourse.tornDown ending hstage (hending ▸ htorn)
    refine ⟨fun hpending => ?_, fun e he => ⟨hcourse.closed ending hstage e he, hclosings e he⟩⟩
    have hstill := (List.mem_filter.mp hpending).2
    rw [hregistered] at hstill
    cases hstill
  case exhausted =>
    intro report hmem hending slot listener hget
    obtain ⟨ending, hstage, heq⟩ := hended report hmem
    rw [hending] at heq
    subst heq
    have hlistener := List.mem_of_getElem? hget
    obtain ⟨hinbox, hlost⟩ := hcourse.deaf listener hlistener (hcourse.exhausted hstage _ hlistener)
    refine ⟨hlost, ?_⟩
    rw [hcourse.lanes slot listener hget, hcoursing.queued]
    have hinbox : Board.inbox w.session.board listener.opened.endpoint = [] := hinbox
    simp [Session.callbacks, hinbox]

/-- A host that has one reply and one endpoint to give. -/
def briefHost : Host := .replaying
  { replies := [.json Envelope.none.toJson], tokens := [some "panel"] }

/-- A panel is shown, and what was entered in it arrives twice. -/
def answeredOnce : List (Move Unit) :=
  .begin .foreground (.invoke "panel" Program.placeholder .value [⟨.oneShot, .value, ()⟩] 0) ::
    List.replicate 7 (.go .foreground) ++
    [.fire "panel" Envelope.none.toJson, .fire "panel" Envelope.none.toJson, .look 0 0,
      .conclude 0 (.returned (.ok .nothing))]

theorem lifeCycle_answeredOnce :
    ∃ op, ((Scene.start {} briefHost).run returning answeredOnce).session.operations[0]? = some op ∧
      LifeCycle ((Scene.start {} briefHost).run returning answeredOnce) 0 op := by
  have hlaunched : (((Scene.start {} briefHost).run returning
      answeredOnce).session.operations[0]?).isSome = true := by decide
  have halive : (story ((Scene.start {} briefHost).run returning answeredOnce).history 0).any
      Deed.isDeath = false := by decide
  obtain ⟨op, hop⟩ := Option.isSome_iff_exists.mp hlaunched
  exact ⟨op, hop, callback_lifeCycle returning {} briefHost answeredOnce hop
    fun hdied => absurd rfl (List.any_eq_false.mp halive _ hdied)⟩

end RemoteHost
