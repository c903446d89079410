import RemoteHost.Proofs.CallbackLifeCycle

/-!
# What becomes of every endpoint

An endpoint that was opened is held by the party that opened it, or belongs to an operation, or it
was closed once, by request or because its party was abandoned, and nothing was ever taken out of
it.
-/

namespace RemoteHost

variable {F : Type}

/-- An endpoint that no party holds and that belongs to no operation. -/
def Callbacks.Ownerless (c : Callbacks F) (e : EndpointId) : Prop :=
  e ∉ c.unclaimed.map (·.2) ∧ e ∉ c.operations.flatMap (·.endpoints)

/-- What is true of all endpoints, given those that went with abandoned parties. -/
structure Fates (c : Callbacks F) (history : List (Occurrence F)) (gone : List EndpointId) :
    Prop where
  settled : ∀ e < c.board.length, c.Ownerless e → c.board.isOpen e = false ∧
    takings history e = [] ∧ closings history e + gone.count e = 1
  gone : ∀ e ∈ gone, e < c.board.length ∧ e ∉ c.unclaimed.map (·.2)

/-- Endpoints stay with whom they belong to. -/
structure SameOwners (c c' : Callbacks F) : Prop where
  unclaimed : c'.unclaimed = c.unclaimed
  operations : c'.operations.map (·.endpoints) = c.operations.map (·.endpoints)
  length : c'.board.length = c.board.length

theorem SameOwners.ownerless {c c' : Callbacks F} {e : EndpointId} (h : SameOwners c c') :
    c'.Ownerless e ↔ c.Ownerless e := by
  simp only [Callbacks.Ownerless, List.flatMap_def, h.unclaimed, h.operations]

/-- Nothing was opened, closed or launched, and what nobody has stays as it is. -/
theorem Fates.frame {c c' : Callbacks F} {history history' : List (Occurrence F)}
    {gone : List EndpointId} (h : Fates c history gone) (hsame : SameOwners c c')
    (hsteady : ∀ e, c.Ownerless e → Steady c c' history history' e) : Fates c' history' gone where
  settled e hlength he := by
    have hold : c.Ownerless e := hsame.ownerless.mp he
    obtain ⟨hopen, htakings, hclosings⟩ := h.settled e (hsame.length ▸ hlength) hold
    have hsteady := hsteady e hold
    refine ⟨hsteady.isOpen.trans hopen, hsteady.takings.trans htakings, ?_⟩
    rw [hsteady.closings]
    exact hclosings
  gone e he := by
    rw [hsame.unclaimed, hsame.length]
    exact h.gone e he

/-- Held endpoints were closed, by request or because their party is gone, each of them once. -/
theorem Fates.shut {c c' : Callbacks F} {busy : Party → Option (Engagement F)}
    {history occurrences : List (Occurrence F)} {es gone more : List EndpointId}
    (h : Fates c history gone) (howned : Owned c busy) (hcoursing : Coursing c history)
    (hshut : Callbacks.Shut es c c') (hheld : ∀ e ∈ es, e ∈ c.unclaimed.map (·.2))
    (hparty : ∀ o ∈ occurrences, o.isOfParty = true) (hmore : ∀ e ∈ more, e ∈ es)
    (honce : ∀ e ∈ es, closings occurrences e + more.count e = 1)
    (hnever : ∀ e, e ∉ es → closings occurrences e = 0) :
    Fates c' (history ++ occurrences) (gone ++ more) where
  settled e hlength he := by
    have htakings : takings (history ++ occurrences) e = takings history e := by
      rw [takings_append, takings_ofParties hparty, List.append_nil]
    rw [hshut.isOpen, htakings, closings_append, List.count_append]
    by_cases hmem : e ∈ es
    · obtain ⟨-, hnothing, hclosings⟩ := hcoursing.unclaimed e (hheld e hmem)
      have hkept : gone.count e = 0 :=
        List.count_eq_zero.mpr fun hgone => (h.gone e hgone).2 (hheld e hmem)
      refine ⟨by simp [hmem], hnothing, ?_⟩
      rw [hclosings, hkept, Nat.zero_add, Nat.zero_add]
      exact honce e hmem
    · have hold : c.Ownerless e := by
        refine ⟨fun hin => he.1 ?_, hshut.operations ▸ he.2⟩
        obtain ⟨u, hu, rfl⟩ := List.mem_map.mp hin
        rw [hshut.unclaimed]
        exact List.mem_map_of_mem (List.mem_filter.mpr ⟨hu, decide_eq_true hmem⟩)
      have hlater : more.count e = 0 := List.count_eq_zero.mpr fun hin => hmem (hmore e hin)
      obtain ⟨hopen, hnothing, honce⟩ := h.settled e (hshut.length ▸ hlength) hold
      refine ⟨by simp [hopen], hnothing, ?_⟩
      rw [hnever e hmem, hlater, Nat.add_zero, Nat.add_zero]
      exact honce
  gone e he := by
    rw [hshut.length, hshut.unclaimed]
    rcases List.mem_append.mp he with he | he
    · obtain ⟨hlength, hunclaimed⟩ := h.gone e he
      exact ⟨hlength, fun hin => hunclaimed ((List.filter_sublist.map _).subset hin)⟩
    · have hmem := hmore e he
      refine ⟨howned.bounded e (List.mem_append_left _ (hheld e hmem)), fun hin => ?_⟩
      obtain ⟨u, hu, rfl⟩ := List.mem_map.mp hin
      exact of_decide_eq_true (List.mem_filter.mp hu).2 hmem

/-- A new endpoint belongs to whoever opened it. -/
theorem Fates.opened {c : Callbacks F} {history : List (Occurrence F)} {gone : List EndpointId}
    (h : Fates c history gone) (p : Party) (token : String) :
    Fates { c with
      board := ((c.board.disown token).openLine token).2
      unclaimed := c.unclaimed ++ [(p, c.board.length)] } history gone where
  settled e hlength he := by
    obtain ⟨hunclaimed, hoperations⟩ := he
    rw [List.map_append, List.mem_append, not_or] at hunclaimed
    have hne : e ≠ c.board.length := fun heq => hunclaimed.2 (List.mem_singleton.mpr heq)
    have hlength : e < c.board.length + 1 := by simpa using hlength
    obtain ⟨hopen, htold⟩ := h.settled e (by omega) ⟨hunclaimed.1, hoperations⟩
    refine ⟨?_, htold⟩
    rw [Board.isOpen_openLine, Board.isOpen_disown, Board.length_disown, hopen]
    exact beq_false_of_ne hne
  gone e he := by
    obtain ⟨hlength, hunclaimed⟩ := h.gone e he
    refine ⟨?_, ?_⟩
    · rw [Board.length_openLine, Board.length_disown]
      exact Nat.lt_succ_of_lt hlength
    · rw [List.map_append, List.mem_append, not_or]
      exact ⟨hunclaimed, fun hin => Nat.ne_of_lt hlength (List.mem_singleton.mp hin)⟩

/-- What was launched belongs to the operation. -/
theorem Fates.launched {c : Callbacks F} {history : List (Occurrence F)} {gone : List EndpointId}
    (h : Fates c history gone) (op : CallbackOperation F) :
    Fates { c with
      unclaimed := c.unclaimed.filter fun u => u.2 ∉ op.endpoints
      operations := c.operations ++ [op] } history gone where
  settled e hlength he := by
    obtain ⟨hunclaimed, hoperations⟩ := he
    rw [List.flatMap_append, List.flatMap_singleton, List.mem_append, not_or] at hoperations
    refine h.settled e hlength ⟨fun hin => hunclaimed ?_, hoperations.1⟩
    obtain ⟨u, hu, rfl⟩ := List.mem_map.mp hin
    exact List.mem_map_of_mem (List.mem_filter.mpr ⟨hu, decide_eq_true hoperations.2⟩)
  gone e he := by
    obtain ⟨hlength, hunclaimed⟩ := h.gone e he
    exact ⟨hlength, fun hin => hunclaimed ((List.filter_sublist.map _).subset hin)⟩

namespace Scene

/-- The endpoints that go with a party that is abandoned. -/
def drops (w : Scene F) : Move F → List EndpointId
  | .abandon p => if (w.busy p).isSome then heldBy w.session.unclaimed p else []
  | _ => []

/-- The endpoints that are dropped in the course of some moves. -/
def dropped (behave : Behaviour F) : Scene F → List (Move F) → List EndpointId
  | _, [] => []
  | w, move :: moves => w.drops move ++ dropped behave (w.act behave move) moves

variable {w w' : Scene F} {move : Move F} {id : OperationId} {op : CallbackOperation F}
  {e : EndpointId}

/-! ## Turns of operations -/

/-- An operation leaves endpoints of others alone. -/
theorem steady_of_turn (hturn : Turn w id op move w') (he : e ∉ op.endpoints) :
    Steady w.session.callbacks w'.session.callbacks w.history w'.history e := by
  have elsewhere : ∀ {slot : Nat} {listener : Listener F},
      op.listeners[slot]? = some listener → listener.opened.endpoint ≠ e := by
    rintro slot listener hget rfl
    exact he (mem_endpoints (List.mem_of_getElem? hget))
  have taken : ∀ {session : Session F} {slot : Nat} {listener : Listener F} {payload : Json}
      {operations : List (CallbackOperation F)} (deeds : List Deed),
      op.listeners[slot]? = some listener →
      session.callbacks = { w.session.callbacks with
        board := w.session.board.take listener.opened.endpoint, operations } →
      Steady w.session.callbacks session.callbacks w.history
        (w.history ++ takingOf id listener.opened.endpoint payload deeds) e := by
    intro session slot listener payload operations deeds hget hsession
    have hne := elsewhere hget
    rw [hsession]
    refine ⟨Board.isOpen_take .., fun hinbox hlost => ⟨?_, ?_⟩, ?_, ?_⟩
    · exact (Board.inbox_take ..).trans ((if_neg hne).trans hinbox)
    · exact (Board.isConnected_take ..).trans hlost
    · rw [takings_append, takings_takingOf, if_neg hne, List.append_nil]
    · rw [closings_append, closings_takingOf, Nat.add_zero]
  have ended : ∀ {session : Session F} {ending : Ending} {report : OperationReport}
      (last : CallbackOperation F) (before : List Deed) (closed : List EndpointId),
      last.endpoints = op.endpoints → (∀ e ∈ closed, e ∈ op.endpoints) →
      Callbacks.Ends id last ending w.session.callbacks session.callbacks →
      Steady w.session.callbacks session.callbacks w.history
        (w.history ++ Coursing.endingOf id before closed report) e := by
    rintro session ending report last before closed hsame hclosed ⟨c, hshut, hsession⟩
    have hnot : closed.count e = 0 := List.count_eq_zero.mpr fun hmem => he (hclosed e hmem)
    have hsteady : Steady w.session.callbacks c w.history
        (w.history ++ Coursing.endingOf id before closed report) e :=
      .shut hshut (hsame ▸ he) (Coursing.takings_endingOf ..)
        ((Coursing.closings_endingOf ..).trans hnot)
    rw [hsession]
    exact ⟨hsteady.isOpen, hsteady.lost, hsteady.takings, hsteady.closings⟩
  cases hturn with
  | idle => exact ⟨rfl, fun hinbox hlost => ⟨hinbox, hlost⟩, rfl, rfl⟩
  | deafened hstage hget hover hsession =>
    rw [hsession]
    exact .nothing
  | refused hstage hget hlistening hseen hrefused hsession => exact taken [] hget hsession
  | @called session slot listener payload outcome call hstage hget hlistening hseen haccepted hcall
      hsession => exact taken [.called slot outcome] hget hsession
  | resumed hstage hcall hsession =>
    rw [hsession]
    exact ⟨rfl, fun hinbox hlost => ⟨hinbox, hlost⟩, by simp [takings],
      by simp [closings, Occurrence.closes]⟩
  | @fired session call result hstage hcall hends =>
    exact ended op.resumed [.returned (.returned result)] op.endpoints rfl (fun _ h => h) hends
  | died hstage hends => exact ended op [.returned .died] [] rfl (by simp) hends
  | stopped hstage hends => exact ended op [] op.endpoints rfl (fun _ h => h) hends
  | exhausted hstage hdeaf hends => exact ended op [] [] rfl (by simp) hends

theorem sameOwners_of_turn (h : Owned w.session.callbacks w.busy)
    (hop : w.session.operations[id]? = some op) (hturn : Turn w id op move w') :
    SameOwners w.session.callbacks w'.session.callbacks := by
  have ended : ∀ {c' : Callbacks F} {ending : Ending} (last : CallbackOperation F),
      last.endpoints = op.endpoints → Callbacks.Ends id last ending w.session.callbacks c' →
      SameOwners w.session.callbacks c' := by
    rintro c' ending last hsame ⟨c, hshut, rfl⟩
    refine ⟨hshut.unclaimed.trans ?_, Callbacks.map_modify hop hsame, hshut.length⟩
    refine List.filter_eq_self.mpr fun u hu => decide_eq_true fun hmem => ?_
    exact h.not_held hop (hsame ▸ hmem) (List.mem_map_of_mem hu)
  cases hturn with
  | idle => exact ⟨rfl, rfl, rfl⟩
  | deafened hstage hget hover hsession =>
    rw [hsession]
    exact ⟨rfl, Callbacks.map_modify hop (op.endpoints_deafen _), rfl⟩
  | refused hstage hget hlistening hseen hrefused hsession =>
    rw [hsession]
    exact ⟨rfl, rfl, Board.length_take ..⟩
  | called hstage hget hlistening hseen haccepted hcall hsession =>
    rw [hsession]
    exact ⟨rfl, Callbacks.map_modify hop rfl, Board.length_take ..⟩
  | resumed hstage hcall hsession =>
    rw [hsession]
    exact ⟨rfl, Callbacks.map_modify hop rfl, rfl⟩
  | fired hstage hcall hends => exact ended op.resumed rfl hends
  | died hstage hends => exact ended op rfl hends
  | stopped hstage hends => exact ended op rfl hends
  | exhausted hstage hdeaf hends => exact ended op rfl hends

/-! ## Moves -/

/-- Nobody can get hold of an endpoint that nobody has. -/
theorem ownerless_of_moved (h : Owned w.session.callbacks w.busy) (hmoved : Moved w move w')
    (he : w.session.callbacks.Ownerless e) (hlength : e < w.session.board.length) :
    w'.session.callbacks.Ownerless e := by
  cases hmoved with
  | calm hsame => exact hsame ▸ he
  | opened hsession =>
    rw [hsession]
    refine ⟨?_, he.2⟩
    rw [List.map_append, List.mem_append]
    rintro (hmem | hmem)
    · exact he.1 hmem
    · exact Nat.ne_of_lt hlength (List.mem_singleton.mp hmem)
  | closed hheld hshut =>
    refine ⟨fun hmem => he.1 ?_, hshut.operations ▸ he.2⟩
    rw [hshut.unclaimed] at hmem
    exact (List.filter_sublist.map _).subset hmem
  | @launched session p engagement label endpoints slots parent occurrences hheld hlength
      hsession =>
    rw [hsession]
    refine ⟨fun hmem => he.1 ((List.filter_sublist.map _).subset hmem), fun hmem => ?_⟩
    rw [List.flatMap_append, List.flatMap_singleton, endpoints_started label parent hlength,
      hheld] at hmem
    rcases List.mem_append.mp hmem with hmem | hmem
    · exact he.2 hmem
    · exact he.1 (List.mem_map_of_mem (mem_heldBy.mp hmem))
  | arrived hopen hconnected hsession =>
    rw [hsession]
    exact he
  | disconnected hsession =>
    rw [hsession]
    exact he
  | @told session operations htold hsession =>
    have hsame : SameOwners w.session.callbacks { w.session.callbacks with operations } :=
      ⟨rfl, htold.map fun _ => rfl, rfl⟩
    rw [hsession]
    exact hsame.ownerless.mpr he
  | turned hop hturn => exact (sameOwners_of_turn h hop hturn).ownerless.mpr he

theorem length_of_moved (h : Owned w.session.callbacks w.busy) (hmoved : Moved w move w') :
    w.session.board.length ≤ w'.session.board.length := by
  have of_eq : ∀ {c' : Callbacks F}, w'.session.callbacks = c' →
      w.session.board.length ≤ c'.board.length →
      w.session.board.length ≤ w'.session.board.length := fun hsame hlength =>
    Nat.le_trans hlength
      (Nat.le_of_eq (congrArg (fun c : Callbacks F => c.board.length) hsame.symm))
  cases hmoved with
  | calm hsame => exact of_eq hsame (Nat.le_refl _)
  | opened hsession => exact of_eq hsession (by simp)
  | closed hheld hshut => exact Nat.le_of_eq hshut.length.symm
  | launched hheld hlength hsession => exact of_eq hsession (Nat.le_refl _)
  | arrived hopen hconnected hsession => exact of_eq hsession (by simp)
  | disconnected hsession => exact of_eq hsession (by simp)
  | told htold hsession => exact of_eq hsession (Nat.le_refl _)
  | turned hop hturn => exact Nat.le_of_eq (sameOwners_of_turn h hop hturn).length.symm

/-- An endpoint that its party has lost has nobody else. -/
theorem ownerless_of_shut {c c' : Callbacks F} {busy : Party → Option (Engagement F)}
    {es : List EndpointId} (h : Owned c busy) (hshut : Callbacks.Shut es c c') (he : e ∈ es)
    (hheld : e ∈ c.unclaimed.map (·.2)) : c'.Ownerless e := by
  refine ⟨fun hin => ?_, fun hin => ?_⟩
  · rw [hshut.unclaimed] at hin
    obtain ⟨u, hu, rfl⟩ := List.mem_map.mp hin
    exact of_decide_eq_true (List.mem_filter.mp hu).2 he
  · rw [hshut.operations] at hin
    exact (List.nodup_append.mp h.nodup).2.2 e hheld e hin rfl

/-- Occurrences that have to do with no endpoint. -/
theorem steady_of_calm {c c' : Callbacks F} {history occurrences : List (Occurrence F)}
    (hboard : c'.board = c.board) (hcalm : ∀ o ∈ occurrences, o.isCalm = true) :
    Steady c c' history (history ++ occurrences) e where
  isOpen := by rw [hboard]
  lost hinbox hlost := by
    rw [hboard]
    exact ⟨hinbox, hlost⟩
  takings := by
    rw [takings_append, takings_ofParties (fun o ho => Occurrence.isOfParty_of_isCalm (hcalm o ho)),
      List.append_nil]
  closings := by
    rw [closings_append,
      closings_eq_zero (fun o ho => Occurrence.closes_of_isCalm (hcalm o ho) e), Nat.add_zero]

theorem drops_eq_nil (h : ∀ p, move = .abandon p → w.busy p = none) : w.drops move = [] := by
  cases move with
  | abandon p => simp [drops, h p rfl]
  | _ => rfl

theorem heldBy_nodup {c : Callbacks F} {busy : Party → Option (Engagement F)} (h : Owned c busy)
    (p : Party) : (heldBy c.unclaimed p).Nodup :=
  (List.nodup_append.mp h.nodup).1.sublist (List.filter_sublist.map _)

variable {gone : List EndpointId}

theorem fates_of_asked (h : Fates w.session.callbacks w.history gone)
    (howned : Owned w.session.callbacks w.busy)
    (hcoursing : Coursing w.session.callbacks w.history) {p : Party} {service : Service F}
    {request : Request F} {next : request.Reply → Routine F (Except Fault service.Result)}
    {reply : request.Reply} {c' : Callbacks F}
    (hbusy : w.busy p = some ⟨service, .ask request next⟩)
    (hanswered : Answered w.session.callbacks p request reply c') :
    Fates c' (w.history ++ [.asked p request reply]) gone := by
  have hallowed := howned.keeps p
  rw [hbusy] at hallowed
  have hallowed := hallowed.1
  have plain : c' = w.session.callbacks →
      (∀ o ∈ [Occurrence.asked p request reply], o.isCalm = true) →
      Fates c' (w.history ++ [.asked p request reply]) gone := by
    rintro rfl hcalm
    exact h.frame ⟨rfl, rfl, rfl⟩ fun e _ => steady_of_calm rfl hcalm
  cases request with
  | openEndpoint =>
    cases reply with
    | error fault => exact plain hanswered (by simp [Occurrence.isCalm])
    | ok opened =>
      obtain ⟨-, rfl⟩ := hanswered
      exact (h.opened p opened.token).frame ⟨rfl, rfl, rfl⟩
        fun e _ => steady_of_calm rfl (by simp [Occurrence.isCalm])
  | closeEndpoint endpoint =>
    have hmem : endpoint ∈ w.session.callbacks.unclaimed.map (·.2) :=
      List.mem_map_of_mem (mem_heldBy.mp hallowed)
    rw [← List.append_nil gone]
    refine h.shut howned hcoursing hanswered ?_ (by simp [Occurrence.isOfParty]) (by simp) ?_ ?_
    · rintro e he
      rwa [List.mem_singleton.mp he]
    · rintro e he
      simp [closings, Occurrence.closes, List.mem_singleton.mp he]
    · rintro e he
      have hne : endpoint ≠ e := fun heq => he (List.mem_singleton.mpr heq.symm)
      simp [closings, Occurrence.closes, hne]
  | launch label endpoints slots parent =>
    obtain ⟨-, rfl⟩ := hanswered
    rw [← endpoints_started label parent hallowed.2]
    exact (h.launched (.started label endpoints slots parent)).frame ⟨rfl, rfl, rfl⟩
      fun e _ => steady_of_calm rfl (by simp [Occurrence.isCalm])
  | _ => exact plain hanswered (by simp [Occurrence.isCalm])

theorem fates_of_acted (h : Fates w.session.callbacks w.history gone)
    (howned : Owned w.session.callbacks w.busy)
    (hcoursing : Coursing w.session.callbacks w.history) (hacted : Acted w move w') :
    Fates w'.session.callbacks w'.history (gone ++ w.drops move) := by
  have untouched : ∀ {c' : Callbacks F} {history' : List (Occurrence F)},
      (∀ p, move = .abandon p → w.busy p = none) → SameOwners w.session.callbacks c' →
      (∀ e, w.session.callbacks.Ownerless e →
        Steady w.session.callbacks c' w.history history' e) →
      Fates c' history' (gone ++ w.drops move) := by
    intro c' history' hmove hsame hsteady
    rw [drops_eq_nil hmove, List.append_nil]
    exact h.frame hsame hsteady
  cases hacted with
  | still hmove hsame =>
    rw [hsame]
    exact untouched hmove ⟨rfl, rfl, rfl⟩ fun e _ => .nothing
  | began hfree =>
    exact untouched (by simp) ⟨rfl, rfl, rfl⟩
      fun e _ => steady_of_calm rfl (by simp [Occurrence.isCalm])
  | gained hbusy =>
    exact untouched (by simp) ⟨rfl, rfl, rfl⟩
      fun e _ => steady_of_calm rfl (by simp [Occurrence.isCalm])
  | @asked p service request next reply session hbusy hanswered =>
    have hdrops : gone ++ w.drops (.go p) = gone := List.append_nil gone
    rw [hdrops]
    exact fates_of_asked h howned hcoursing hbusy hanswered
  | @abandoned p session hbusy hshut =>
    have hdrops : w.drops (.abandon p) = heldBy w.session.unclaimed p := by simp [drops, hbusy]
    have hmem : ∀ e ∈ heldBy w.session.unclaimed p, e ∈ w.session.unclaimed.map (·.2) :=
      fun e he => List.mem_map_of_mem (mem_heldBy.mp he)
    rw [hdrops]
    refine h.shut howned hcoursing hshut hmem (by simp [Occurrence.isOfParty])
      (fun _ he => he) ?_ ?_
    · intro e he
      exact congrArg (0 + ·) (List.count_eq_one_of_mem (heldBy_nodup howned p) he)
    · exact fun e _ => rfl
  | arrived hopen hconnected hsession =>
    rw [hsession]
    exact untouched (by simp) ⟨rfl, rfl, List.length_modify ..⟩
      fun e _ => .arrived (Board.lt_length_of_isOpen hopen) hconnected _ e
  | disconnected hsession =>
    rw [hsession]
    exact untouched (by simp) ⟨rfl, rfl, List.length_modify ..⟩ fun e _ => .disconnected _ e
  | @told expired session operations htold hsession =>
    have hsame : SameOwners w.session.callbacks { w.session.callbacks with operations } :=
      ⟨rfl, htold.map fun _ => rfl, rfl⟩
    rw [hsession]
    exact untouched (by simp) hsame fun e _ => .nothing
  | turned hmove hop hturn =>
    refine untouched (fun p hp => absurd hp (hmove p)) (sameOwners_of_turn howned hop hturn)
      fun e he => steady_of_turn hturn fun hmem => he.2 ?_
    exact List.mem_flatMap.mpr ⟨_, List.mem_of_getElem? hop, hmem⟩

theorem fates_run (behave : Behaviour F) (settings : Settings) (host : Host)
    (moves : List (Move F)) : Fates ((start settings host).run behave moves).session.callbacks
      ((start settings host).run behave moves).history
      (dropped behave (start settings host) moves) := by
  have more : ∀ (moves : List (Move F)) (w : Scene F) (gone : List EndpointId),
      Owned w.session.callbacks w.busy → Coursing w.session.callbacks w.history →
      Fates w.session.callbacks w.history gone →
      Fates (w.run behave moves).session.callbacks (w.run behave moves).history
        (gone ++ dropped behave w moves) := by
    intro moves
    induction moves with
    | nil =>
      intro w gone _ _ h
      rwa [dropped, List.append_nil]
    | cons move moves ih =>
      intro w gone howned hcoursing h
      have hmoved : Moved w move (w.act behave move) := moved_act howned move
      rw [dropped, ← List.append_assoc]
      exact ih (w.act behave move) _ (owned_of_moved howned hmoved)
        (coursing_of_moved hcoursing howned hmoved)
        (fates_of_acted h howned hcoursing (acted_act behave w move))
  have hstart : Fates (start settings host : Scene F).session.callbacks
      (start settings host : Scene F).history [] :=
    ⟨fun e he => absurd he (Nat.not_lt_zero e), by simp⟩
  exact more moves _ [] (owned_start settings host) (coursing_start settings host) hstart

end Scene

end RemoteHost
