import RemoteHost.Proofs.ArrivalLines

/-!
# What an operation notices of others

Between its turns an operation may be told to end, and its endpoints may receive something or lose
their connection. Nothing else that happens has to do with it.
-/

namespace RemoteHost

variable {F : Type}

/-- Whether a move is a turn of an operation. -/
def Move.isTurnOf (id : OperationId) : Move F → Bool
  | .look i _ | .stop i | .exhaust i | .conclude i _ => i == id
  | _ => false

/-- Whether a move is something that the host does at an endpoint. -/
def Move.isOfHost : Move F → Bool
  | .fire _ _ | .hangUp _ => true
  | _ => false

/-- Callbacks go on, and what was there is left alone. -/
structure Callbacks.Passes (c c' : Callbacks F) : Prop where
  operations : ∀ (id : OperationId) (op : CallbackOperation F), c.operations[id]? = some op →
    c'.operations[id]? = some op
  inbox : ∀ e, Board.inbox c'.board e = Board.inbox c.board e
  lost : ∀ e < c.board.length, Board.isConnected c.board e = false →
    Board.isConnected c'.board e = false

namespace Callbacks

variable {c c' : Callbacks F}

theorem Passes.refl (c : Callbacks F) : Passes c c :=
  ⟨fun _ _ hop => hop, fun _ => rfl, fun _ _ hlost => hlost⟩

theorem Shut.lost {es : List EndpointId} (h : Shut es c c') {e : EndpointId}
    (hlost : Board.isConnected c.board e = false) : Board.isConnected c'.board e = false :=
  Bool.eq_false_iff.mpr fun hconnected => by
    rw [h.isConnected e hconnected] at hlost
    cases hlost

theorem Shut.passes {es : List EndpointId} (h : Shut es c c') : Passes c c' where
  operations id op hop := by
    rw [h.operations]
    exact hop
  inbox := h.inbox
  lost _ _ hlost := h.lost hlost

theorem passes_opened (c : Callbacks F) (token : String) (unclaimed : List (Party × EndpointId)) :
    Passes c { c with board := ((c.board.disown token).openLine token).2, unclaimed } where
  operations _ _ hop := hop
  inbox e := by rw [Board.inbox_openLine, Board.inbox_disown]
  lost e hlt hlost := by
    have hstill : Board.isConnected (c.board.disown token) e = false :=
      Bool.eq_false_iff.mpr fun hconnected => by
        rw [Board.isConnected_of_disown hconnected] at hlost
        cases hlost
    rw [Board.isConnected_openLine, hstill, Board.length_disown]
    simpa using Nat.ne_of_lt hlt

end Callbacks

theorem Answered.passes {c c' : Callbacks F} {p : Party} {request : Request F}
    {reply : request.Reply} (h : Answered c p request reply c') : Callbacks.Passes c c' := by
  cases request with
  | openEndpoint =>
    cases reply with
    | error fault => exact h ▸ .refl c
    | ok opened =>
      obtain ⟨-, rfl⟩ := h
      exact Callbacks.passes_opened c opened.token _
  | closeEndpoint endpoint => exact Callbacks.Shut.passes h
  | launch label endpoints slots parent =>
    obtain ⟨-, rfl⟩ := h
    refine ⟨fun id op hop => ?_, fun _ => rfl, fun _ _ hlost => hlost⟩
    exact (List.getElem?_append_left (List.getElem?_eq_some_iff.mp hop).1).trans hop
  | _ => exact h ▸ .refl c

namespace Session

theorem operation_of_callbacks {s : Session F} {c : Callbacks F} (h : s.callbacks = c)
    (id : OperationId) : s.operations[id]? = c.operations[id]? :=
  congrArg (fun c : Callbacks F => c.operations[id]?) h

theorem isConnected_of_callbacks {s : Session F} {c : Callbacks F} (h : s.callbacks = c)
    (e : EndpointId) : Board.isConnected s.board e = Board.isConnected c.board e :=
  congrArg (fun c : Callbacks F => Board.isConnected c.board e) h

theorem operations_stops (stopping : List (CallbackOperation F × OperationId)) (s : Session F)
    (id : OperationId) :
    (stopping.foldl (fun s (_, id) => s.stop id) s).operations[id]? =
      s.operations[id]?.map fun op =>
        if id ∈ stopping.map (·.2) then op.stopped else op := by
  induction stopping generalizing s with
  | nil => simp
  | cons first rest ih =>
    have hstop : (s.stop first.2).operations =
        s.operations.modify first.2 CallbackOperation.stopped :=
      congrArg Callbacks.operations (callbacks_of_holdings (holdings_wake _ _))
    rw [List.foldl_cons, ih, hstop, List.getElem?_modify, Option.map_eq_map, Option.map_map]
    refine congrArg (Option.map · s.operations[id]?) (funext fun op => ?_)
    by_cases hfirst : first.2 = id
    · simp [hfirst, CallbackOperation.stopped]
    · have hmem : id ∈ (first :: rest).map (·.2) ↔ id ∈ rest.map (·.2) := by
        rw [List.map_cons, List.mem_cons, or_iff_right (Ne.symm hfirst)]
      simp only [Function.comp_apply, hfirst, if_false, hmem]

/-- Exactly the operations that supervision knows and that have expired are told to end. -/
theorem operations_reclaim (s : Session F) (expired : OperationId → Bool) (id : OperationId) :
    (s.reclaim expired).2.operations[id]? = s.operations[id]?.map fun op =>
      if op.registered && expired id then op.stopped else op := by
  rw [reclaim, operations_stops]
  change (s.operations[id]?.map fun op =>
    if id ∈ (s.operations.zipIdx.filter fun entry => entry.1.registered && expired entry.2).map
      (·.2) then op.stopped else op) = _
  cases hop : s.operations[id]? with
  | none => rfl
  | some op =>
    have hmem : id ∈ (s.operations.zipIdx.filter fun entry =>
        entry.1.registered && expired entry.2).map (·.2) ↔
          (op.registered && expired id) = true := by
      simp only [List.mem_map, List.mem_filter, List.mem_zipIdx_iff_getElem?]
      constructor
      · rintro ⟨⟨op', id'⟩, ⟨hop', htold⟩, rfl⟩
        rw [hop] at hop'
        exact Option.some.inj hop' ▸ htold
      · exact fun htold => ⟨(op, id), ⟨hop, htold⟩, rfl⟩
    simp only [Option.map_some, hmem]

end Session

namespace Scene

variable {w w' : Scene F} {move : Move F} {id : OperationId} {op : CallbackOperation F}

/-- An operation that nobody told to end does not stop. -/
theorem stop_of_not_stopping (hstopping : op.stopping = false) : w.stop id op = w := by
  unfold stop
  split
  · simp [hstopping]
  · rfl

/-- What an operation notices of moves of others that are not the host's. -/
structure PassedBy (w w' : Scene F) (id : OperationId) (op : CallbackOperation F) : Prop where
  operation : w'.session.operations[id]? = some op
  story : story w'.history id = story w.history id
  inbox : ∀ e ∈ op.endpoints,
    Board.inbox w'.session.board e = Board.inbox w.session.board e

/-- An operation does nothing in moves that are no turns of it, or after its end. -/
theorem idle_of_turn (hmove : move.isTurnOf id = false ∨ ∃ ending, op.stage = .ended ending)
    (hturn : Turn w id op move w') : w' = w := by
  rcases hmove with hmove | ⟨ending, hended⟩
  · cases hturn with
    | idle => rfl
    | _ => simp [Move.isTurnOf] at hmove
  · cases hturn with
    | idle => rfl
    | deafened hstage | refused hstage | called hstage | resumed hstage | fired hstage
    | died hstage | stopped hstage | exhausted hstage =>
      rw [hended] at hstage
      cases hstage

theorem passedBy_of_passes (hop : w.session.operations[id]? = some op) {session : Session F}
    {busy : Party → Option (Engagement F)} {occurrences : List (Occurrence F)}
    (hpasses : Callbacks.Passes w.session.callbacks session.callbacks)
    (hparties : ∀ o ∈ occurrences, o.isOfParty = true) :
    PassedBy w ⟨session, busy, w.history ++ occurrences⟩ id op where
  operation := hpasses.operations id op hop
  story := by rw [story_append, story_ofParties hparties, List.append_nil]
  inbox e _ := hpasses.inbox e

theorem passedBy_act (behave : Behaviour F) (howned : Owned w.session.callbacks w.busy)
    (hop : w.session.operations[id]? = some op) (hhost : move.isOfHost = false)
    (hturn : move.isTurnOf id = false)
    (hspared : ∀ expired, move = .reclaim expired → expired id = false) :
    PassedBy w (w.act behave move) id op := by
  have hacted := acted_act behave w move
  by_cases hreclaim : ∃ expired, move = .reclaim expired
  · obtain ⟨expired, rfl⟩ := hreclaim
    obtain ⟨operations, hholdings, -⟩ := Callbacks.holdings_reclaim w.session expired
    have hboard : (w.session.reclaim expired).2.board = w.session.board :=
      congrArg Callbacks.board (Session.callbacks_of_holdings hholdings)
    refine ⟨?_, rfl, fun e _ => congrArg (Board.inbox · e) hboard⟩
    exact (Session.operations_reclaim ..).trans (by simp [hop, hspared expired rfl])
  · generalize w.act behave move = w' at hacted
    cases hacted with
    | still hmove hsame =>
      exact ⟨(Session.operation_of_callbacks hsame id).trans hop, rfl,
        fun e _ => congrArg (fun c : Callbacks F => Board.inbox c.board e) hsame⟩
    | began | gained => exact passedBy_of_passes hop (.refl _) (by simp [Occurrence.isOfParty])
    | asked hbusy hanswered =>
      exact passedBy_of_passes hop hanswered.passes (by simp [Occurrence.isOfParty])
    | abandoned hbusy hshut =>
      exact passedBy_of_passes hop hshut.passes (by simp [Occurrence.isOfParty])
    | arrived | disconnected => cases hhost
    | told => exact absurd ⟨_, rfl⟩ hreclaim
    | @turned _ i other _ hmove hother hacts =>
      by_cases hi : i = id
      · subst hi
        rw [idle_of_turn (.inl hturn) hacts]
        exact ⟨hop, rfl, fun _ _ => rfl⟩
      · obtain ⟨hstill, hstory, hinboxes⟩ := others_of_turn howned hop hother hi hacts
        exact ⟨hstill, hstory, hinboxes⟩

/-- An operation keeps its stage whatever others do, and after its end whatever happens. -/
theorem stage_act (behave : Behaviour F) (howned : Owned w.session.callbacks w.busy)
    (hop : w.session.operations[id]? = some op)
    (hturn : move.isTurnOf id = false ∨ ∃ ending, op.stage = .ended ending) :
    (∃ now, (w.act behave move).session.operations[id]? = some now ∧ now.lanes = op.lanes ∧
      now.stage = op.stage) ∧
      story (w.act behave move).history id = story w.history id := by
  have still : ∀ {w' : Scene F}, w'.session.operations = w.session.operations →
      ∃ now, w'.session.operations[id]? = some now ∧ now.lanes = op.lanes ∧
        now.stage = op.stage := fun hsame => ⟨op, (congrArg (·[id]?) hsame).trans hop, rfl, rfl⟩
  have hacted := acted_act behave w move
  generalize w.act behave move = w' at hacted
  cases hacted with
  | still hmove hsame => exact ⟨still (congrArg Callbacks.operations hsame), rfl⟩
  | began | gained => exact ⟨still rfl, by simp [RemoteHost.story]⟩
  | asked hbusy hanswered =>
    exact ⟨⟨op, hanswered.passes.operations id op hop, rfl, rfl⟩, by simp [RemoteHost.story]⟩
  | abandoned hbusy hshut => exact ⟨still hshut.operations, by simp [RemoteHost.story]⟩
  | arrived hopen hconnected hsession =>
    exact ⟨still (congrArg Callbacks.operations hsession), by simp [RemoteHost.story]⟩
  | disconnected hsession => exact ⟨still (congrArg Callbacks.operations hsession), rfl⟩
  | @told expired session operations htold hsession =>
    have hoperations : session.operations = operations := congrArg Callbacks.operations hsession
    refine ⟨?_, rfl⟩
    dsimp only
    rw [hoperations]
    rcases htold id with hsame | hstopped
    · exact ⟨op, hsame.trans hop, rfl, rfl⟩
    · exact ⟨op.stopped, hstopped.trans (congrArg (Option.map _) hop), rfl, rfl⟩
  | @turned _ i other _ hmove hother hacts =>
    by_cases hi : i = id
    · subst hi
      rw [hop] at hother
      cases hother
      rw [idle_of_turn hturn hacts]
      exact ⟨still rfl, rfl⟩
    · obtain ⟨hstill, hstory, -⟩ := others_of_turn howned hop hother hi hacts
      exact ⟨⟨op, hstill, rfl, rfl⟩, hstory⟩

theorem lost_of_turn (hturn : Turn w id op move w') {e : EndpointId}
    (hlost : Board.isConnected w.session.board e = false) :
    Board.isConnected w'.session.board e = false := by
  have ended : ∀ {session : Session F} {last : CallbackOperation F} {ending : Ending},
      Callbacks.Ends id last ending w.session.callbacks session.callbacks →
      Board.isConnected session.board e = false := by
    rintro session last ending ⟨c, hshut, hsession⟩
    exact (Session.isConnected_of_callbacks hsession e).trans (hshut.lost hlost)
  cases hturn with
  | idle => exact hlost
  | deafened hstage hget hover hsession | resumed hstage hcall hsession =>
    exact (Session.isConnected_of_callbacks hsession e).trans hlost
  | refused hstage hget hlistening hseen hrefused hsession
  | called hstage hget hlistening hseen haccepted hcall hsession =>
    rw [Session.isConnected_of_callbacks hsession, Board.isConnected_take]
    exact hlost
  | fired hstage hcall hends | died hstage hends | stopped hstage hends
  | exhausted hstage hdeaf hends => exact ended hends

/-- A connection that the host has let go of is never made again. -/
theorem lost_act (behave : Behaviour F) {e : EndpointId} (hlt : e < w.session.board.length)
    (hlost : Board.isConnected w.session.board e = false) :
    Board.isConnected (w.act behave move).session.board e = false := by
  have hacted := acted_act behave w move
  generalize w.act behave move = w' at hacted
  cases hacted with
  | still hmove hsession | told htold hsession =>
    exact (Session.isConnected_of_callbacks hsession e).trans hlost
  | began | gained => exact hlost
  | asked hbusy hanswered => exact hanswered.passes.lost e hlt hlost
  | abandoned hbusy hshut => exact hshut.lost hlost
  | arrived hopen hconnected hsession =>
    rw [Session.isConnected_of_callbacks hsession, Board.isConnected_append]
    exact hlost
  | disconnected hsession =>
    rw [Session.isConnected_of_callbacks hsession, Board.isConnected_disconnect, hlost]
    exact Bool.false_and _
  | turned hmove hop hturn => exact lost_of_turn hturn hlost

end Scene

end RemoteHost
