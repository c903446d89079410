import RemoteHost.Proofs.OtherMoves

/-!
# After an endpoint is closed

Only what the host sends arrives at endpoints. An endpoint that its owner has closed stays closed:
nothing arrives there any more, and nothing that arrived before is taken any more.
-/

namespace RemoteHost

variable {F : Type}

/-- An endpoint is closed, and has been since an earlier moment. -/
structure Callbacks.StaysClosed (c c' : Callbacks F) (e : EndpointId) : Prop where
  isOpen : c'.board.isOpen e = false
  length : c.board.length ≤ c'.board.length

theorem Callbacks.Shut.staysClosed {c c' : Callbacks F} {es : List EndpointId} (h : Shut es c c')
    {e : EndpointId} (hclosed : c.board.isOpen e = false) : StaysClosed c c' e where
  isOpen := by rw [h.isOpen, hclosed, Bool.false_and]
  length := Nat.le_of_eq h.length.symm

theorem Callbacks.Ends.staysClosed {c c' : Callbacks F} {id : OperationId}
    {op : CallbackOperation F} {ending : Ending} (h : Ends id op ending c c') {e : EndpointId}
    (hclosed : c.board.isOpen e = false) : StaysClosed c c' e := by
  obtain ⟨c₁, hshut, rfl⟩ := h
  exact ⟨(hshut.staysClosed hclosed).isOpen, (hshut.staysClosed hclosed).length⟩

theorem Answered.staysClosed {c c' : Callbacks F} {p : Party} {request : Request F}
    {reply : request.Reply} (h : Answered c p request reply c') {e : EndpointId}
    (hlt : e < c.board.length) (hclosed : c.board.isOpen e = false) :
    Callbacks.StaysClosed c c' e := by
  have same : c' = c → Callbacks.StaysClosed c c' e := by
    rintro rfl
    exact ⟨hclosed, Nat.le_refl _⟩
  cases request with
  | openEndpoint =>
    cases reply with
    | error fault => exact same h
    | ok opened =>
      obtain ⟨-, rfl⟩ := h
      refine ⟨?_, by simp⟩
      rw [Board.isOpen_openLine, Board.isOpen_disown, Board.length_disown, hclosed]
      simpa using Nat.ne_of_lt hlt
  | closeEndpoint endpoint => exact Callbacks.Shut.staysClosed h hclosed
  | launch label endpoints slots parent =>
    obtain ⟨-, rfl⟩ := h
    exact ⟨hclosed, Nat.le_refl _⟩
  | _ => exact same h

namespace Scene

variable {w w' : Scene F} {move : Move F} {id : OperationId} {op : CallbackOperation F}
  {e : EndpointId}

theorem arrivals_of_turn (hturn : Turn w id op move w') (e : EndpointId) :
    arrivals w'.history e = arrivals w.history e := by
  cases hturn with
  | idle | deafened => rfl
  | _ => simp [arrivals]

/-- Nothing arrives but what the host sends. -/
theorem arrivals_act (behave : Behaviour F) (hmove : move.isOfHost = false) (e : EndpointId) :
    arrivals (w.act behave move).history e = arrivals w.history e := by
  have hacted := acted_act behave w move
  generalize w.act behave move = w' at hacted
  cases hacted with
  | still | told => rfl
  | began | asked | gained | abandoned => simp [arrivals]
  | arrived | disconnected => cases hmove
  | turned hmove hop hturn => exact arrivals_of_turn hturn e

/-- The owner of a closed endpoint takes nothing out of it. -/
theorem deaf_of_turn (hcourse : Course w.session.callbacks w.history id op)
    (hclosed : w.session.board.isOpen e = false) (hturn : Turn w id op move w') :
    Callbacks.StaysClosed w.session.callbacks w'.session.callbacks e ∧
      takings w'.history e = takings w.history e := by
  have same : ∀ {c c' : Callbacks F}, c = c' → c'.board = w.session.callbacks.board →
      Callbacks.StaysClosed w.session.callbacks c e := by
    rintro c _ rfl hboard
    exact ⟨hboard ▸ hclosed, Nat.le_of_eq (hboard ▸ rfl)⟩
  have taken : ∀ {slot : Nat} {listener : Listener F} {c : Callbacks F},
      op.stage = .listening → op.listeners[slot]? = some listener →
      c.board = w.session.callbacks.board.take listener.opened.endpoint →
      Callbacks.StaysClosed w.session.callbacks c e ∧ listener.opened.endpoint ≠ e := by
    intro slot listener c hstage hget hboard
    refine ⟨⟨?_, ?_⟩, fun heq => ?_⟩
    · rw [hboard, Board.isOpen_take]
      exact hclosed
    · exact Nat.le_of_eq (by rw [hboard, Board.length_take])
    · have hopen := (hcourse.running (by simp [hstage]) _
        (mem_endpoints (List.mem_of_getElem? hget))).1
      rw [heq] at hopen
      exact absurd hopen (by rw [Bool.not_eq_true]; exact hclosed)
  cases hturn with
  | idle => exact ⟨same rfl rfl, rfl⟩
  | deafened hstage hget hover hsession =>
    exact ⟨same hsession rfl, rfl⟩
  | refused hstage hget hlistening hseen hrefused hsession =>
    obtain ⟨hstays, hne⟩ := taken hstage hget (congrArg Callbacks.board hsession)
    exact ⟨hstays, by simp [takings, hne]⟩
  | called hstage hget hlistening hseen haccepted hcall hsession =>
    obtain ⟨hstays, hne⟩ := taken hstage hget (congrArg Callbacks.board hsession)
    exact ⟨hstays, by simp [takings, hne]⟩
  | resumed hstage hcall hsession =>
    exact ⟨same hsession rfl, by simp [takings]⟩
  | fired hstage hcall hends | died hstage hends | stopped hstage hends
  | exhausted hstage hdeaf hends =>
    exact ⟨hends.staysClosed hclosed, by simp [takings]⟩

/-- Nothing has come of an endpoint since an earlier moment, and it is closed. -/
structure Deaf (w w' : Scene F) (e : EndpointId) : Prop where
  closed : Callbacks.StaysClosed w.session.callbacks w'.session.callbacks e
  arrivals : arrivals w'.history e = arrivals w.history e
  takings : takings w'.history e = takings w.history e

theorem Deaf.trans {w'' : Scene F} (h : Deaf w w' e) (h' : Deaf w' w'' e) :
    Deaf w w'' e where
  closed := ⟨h'.closed.isOpen, Nat.le_trans h.closed.length h'.closed.length⟩
  arrivals := h'.arrivals.trans h.arrivals
  takings := h'.takings.trans h.takings

theorem deaf_act (behave : Behaviour F) (hcoursing : Coursing w.session.callbacks w.history)
    (hlt : e < w.session.board.length) (hclosed : w.session.board.isOpen e = false)
    (move : Move F) : Deaf w (w.act behave move) e := by
  have hacted := acted_act behave w move
  generalize w.act behave move = w' at hacted
  have same : ∀ {c c' : Callbacks F}, c = c' → c'.board = w.session.callbacks.board →
      Callbacks.StaysClosed w.session.callbacks c e := by
    rintro c _ rfl hboard
    exact ⟨hboard ▸ hclosed, Nat.le_of_eq (hboard ▸ rfl)⟩
  cases hacted with
  | still hmove hsame => exact ⟨same hsame rfl, rfl, rfl⟩
  | began | gained =>
    exact ⟨same rfl rfl, by simp [RemoteHost.arrivals], by simp [RemoteHost.takings]⟩
  | asked hbusy hanswered =>
    exact ⟨hanswered.staysClosed hlt hclosed, by simp [RemoteHost.arrivals],
      by simp [RemoteHost.takings]⟩
  | abandoned hbusy hshut =>
    exact ⟨hshut.staysClosed hclosed, by simp [RemoteHost.arrivals], by simp [RemoteHost.takings]⟩
  | @arrived token session i payload hopen hconnected hsession =>
    have hne : i ≠ e := fun heq => by
      rw [heq, hclosed] at hopen
      cases hopen
    refine ⟨⟨?_, ?_⟩, by simp [RemoteHost.arrivals, hne], by simp [RemoteHost.takings]⟩
    · rw [congrArg Callbacks.board hsession, Board.isOpen_append]
      exact hclosed
    · rw [congrArg Callbacks.board hsession, List.length_modify]
      exact Nat.le_refl _
  | disconnected hsession =>
    refine ⟨⟨?_, ?_⟩, rfl, rfl⟩
    · rw [congrArg Callbacks.board hsession, Board.isOpen_disconnect]
      exact hclosed
    · rw [congrArg Callbacks.board hsession, List.length_modify]
      exact Nat.le_refl _
  | told htold hsession => exact ⟨same hsession rfl, rfl, rfl⟩
  | turned hmove hop hturn =>
    obtain ⟨hstays, htakings⟩ := deaf_of_turn (hcoursing.courses _ _ hop) hclosed hturn
    exact ⟨hstays, arrivals_of_turn hturn e, htakings⟩

theorem deaf_run (behave : Behaviour F) (howned : Owned w.session.callbacks w.busy)
    (hcoursing : Coursing w.session.callbacks w.history) (hlt : e < w.session.board.length)
    (hclosed : w.session.board.isOpen e = false) (moves : List (Move F)) :
    Deaf w (w.run behave moves) e := by
  induction moves generalizing w with
  | nil => exact ⟨⟨hclosed, Nat.le_refl _⟩, rfl, rfl⟩
  | cons move moves ih =>
    have hmoved : Moved w move (w.act behave move) := moved_act howned move
    have hfirst := deaf_act behave hcoursing hlt hclosed move
    exact hfirst.trans (ih (owned_of_moved howned hmoved)
      (coursing_of_moved hcoursing howned hmoved) (Nat.lt_of_lt_of_le hlt hfirst.closed.length)
      hfirst.closed.isOpen)

end Scene

end RemoteHost
