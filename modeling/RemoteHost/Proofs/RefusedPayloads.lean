import RemoteHost.Proofs.ArrivalOrder
import RemoteHost.Proofs.BurstRuns

/-!
# Refused payloads

An operation whose functions return comes to the same with and without payloads that its slots
refuse, whatever else goes on meanwhile, and it always gets to where it waits again.
-/

namespace RemoteHost

variable {F : Type}

/-- The move in which the host gives a signal. -/
def CallbackOperation.moveOf (op : CallbackOperation F) : Signal → Move F
  | .payload slot payload => .fire ((op.tokens[slot]?).getD "") payload
  | .hangUp slot => .hangUp ((op.tokens[slot]?).getD "")

theorem CallbackOperation.isOfHost_moveOf (op : CallbackOperation F) (signal : Signal) :
    (op.moveOf signal).isOfHost = true := by
  cases signal <;> rfl

theorem CallbackOperation.signal?_moveOf {op : CallbackOperation F} (hnodup : op.tokens.Nodup)
    {signal : Signal} (hslot : signal.slot < op.listeners.length) :
    op.signal? (op.moveOf signal) = some signal := by
  obtain ⟨listener, hget⟩ : ∃ listener, op.listeners[signal.slot]? = some listener :=
    ⟨_, List.getElem?_eq_getElem hslot⟩
  have hfound := (slotOf?_eq_some hnodup hget).mpr rfl
  have htoken := tokens_getElem? hget
  cases signal with
  | payload slot payload =>
    rw [Signal.slot] at hfound htoken
    simp [moveOf, htoken, signal?, hfound]
  | hangUp slot =>
    rw [Signal.slot] at hfound htoken
    simp [moveOf, htoken, signal?, hfound]

namespace Scene

variable {behave : Behaviour F} {w w' : Scene F} {move : Move F} {id : OperationId}
  {op now : CallbackOperation F} {tally : Tally}

/-! ## Getting on -/

theorem busy_of_turn (hturn : Turn w id now move w') : w'.busy = w.busy := by
  cases hturn <;> rfl

/-- Parties do nothing while the host does. -/
theorem busy_of_host (behave : Behaviour F) (w : Scene F) {moves : List (Move F)}
    (hhost : ∀ move ∈ moves, move.isOfHost = true) : (w.run behave moves).busy = w.busy := by
  induction moves generalizing w with
  | nil => rfl
  | cons move moves ih =>
    obtain ⟨hmove, hmoves⟩ := List.forall_mem_cons.mp hhost
    refine (ih (w.act behave move) hmoves).trans ?_
    cases move with
    | fire | hangUp => rfl
    | _ => cases hmove

theorem undisturbed_of_own {moves : List (Move F)}
    (h : ∀ move ∈ moves, move.isOfHost = true ∨ move.isTurnOf id = true) :
    w.Undisturbed behave op id moves := by
  induction moves generalizing w with
  | nil => trivial
  | cons move moves ih =>
    refine ⟨fun _ hhost hturn => ?_, ih fun m hm => h m (List.mem_cons_of_mem _ hm)⟩
    rcases h move List.mem_cons_self with hown | hown
    · rw [hown] at hhost
      cases hhost
    · rw [hown] at hturn
      cases hturn

/-- The listeners that still listen are one less when one of them is deaf. -/
theorem countP_deafened {listeners : List (Listener F)} {slot : Nat} {listener : Listener F}
    (hget : listeners[slot]? = some listener) (hlistening : listener.listening = true) :
    (listeners.modify slot fun l => { l with listening := false }).countP (·.listening) + 1 =
      listeners.countP (·.listening) := by
  induction listeners generalizing slot with
  | nil => cases hget
  | cons first rest ih =>
    cases slot with
    | zero =>
      obtain rfl : first = listener := Option.some.inj hget
      simp [hlistening]
    | succ slot =>
      have hrest := ih hget
      simp only [List.modify_succ_cons, List.countP_cons]
      omega

/-- How much an operation has to do before it waits. -/
def effort (op : CallbackOperation F) (board : Board) : Nat :=
  2 * ((List.range op.lanes.length).flatMap (waitingAt board op.lanes)).length +
    op.listeners.countP (·.listening) +
    match op.stage with
    | .calling _ => 1
    | _ => 0

/-- An operation has ended or has less to do. -/
def Advances (id : OperationId) (now : CallbackOperation F) (c c' : Callbacks F) : Prop :=
  ∃ next, c'.operations[id]? = some next ∧
    ((∃ ending, next.stage = .ended ending) ∨ effort next c'.board < effort now c.board)

theorem advances_conclude (behave : Behaviour F) (hop : w.session.operations[id]? = some now)
    {call : Calling F} (hstage : now.stage = .calling call) (hfree : w.busy (.callback id) = none) :
    Advances id now w.session.callbacks
      (w.act behave (.conclude id (.returned (.ok .nothing)))).session.callbacks := by
  have hact : (w.act behave (.conclude id (.returned (.ok .nothing)))).session =
      w.session.conclude id now call (.returned (.ok .nothing)) := by
    simp [act, withOperation, hop, conclude, hstage, hfree]
  rw [hact]
  cases hcall : call.cardinality with
  | repeatable =>
    rw [Callbacks.conclude_repeatable w.session id now hcall (.ok .nothing)]
    refine ⟨now.resumed, by simp [hop], .inr ?_⟩
    simp [effort, hstage, CallbackOperation.resumed, CallbackOperation.lanes, Session.callbacks]
  | oneShot =>
    have hends := Callbacks.conclude_oneShot hop hcall (.ok .nothing)
    exact ⟨_, hends.found hop, .inl ⟨_, rfl⟩⟩

theorem advances_exhaust (behave : Behaviour F) (hop : w.session.operations[id]? = some now)
    (hstage : now.stage = .listening) (hdeaf : now.listeners.any (·.listening) = false) :
    Advances id now w.session.callbacks (w.act behave (.exhaust id)).session.callbacks := by
  have hall : now.listeners.all (!·.listening) = true := by
    simpa [List.all_eq_not_any_not] using hdeaf
  have hact : (w.act behave (.exhaust id)).session =
      w.session.finish id now .endpointsClosed := by
    simp [act, withOperation, hop, exhaust, hstage, hall]
  rw [hact]
  exact ⟨_, (Callbacks.ends_finish hop .endpointsClosed).found hop, .inl ⟨_, rfl⟩⟩

/-- To take the payload that is in line first leaves less to do. -/
theorem effort_take (hcourse : Course w.session.callbacks w.history id now)
    (hnodup : now.endpoints.Nodup) (hop : w.session.operations[id]? = some now) {slot : Nat}
    (horderly : w.isOrderly (.look id slot) = true) {listener : Listener F} {payload : Json}
    (hget : now.listeners[slot]? = some listener)
    (hseen : w.session.board.sighting listener.opened.endpoint = .payload payload) :
    ((List.range now.lanes.length).flatMap (waitingAt w.session.board now.lanes)).length =
      ((List.range now.lanes.length).flatMap (waitingAt
        (w.session.board.take listener.opened.endpoint) now.lanes)).length + 1 := by
  obtain ⟨hslot, hfirst, hothers⟩ := waitingAt_taken hnodup hget hseen
  rw [← List.singleton_append] at hfirst
  rw [flatMap_range_lowest hslot (waitingAt_lower hcourse hop horderly) hfirst hothers,
    List.length_append, List.length_singleton, Nat.add_comm]

theorem advances_look (behave : Behaviour F) (howned : Owned w.session.callbacks w.busy)
    (hcoursing : Coursing w.session.callbacks w.history)
    (hop : w.session.operations[id]? = some now) (hstage : now.stage = .listening) {slot : Nat}
    {seen : Sighting}
    (hsighted : Session.firstSighting w.session.board now.listeners = some (slot, seen)) :
    w.isOrderly (.look id slot) = true ∧ Advances id now w.session.callbacks
      (w.act behave (.look id slot)).session.callbacks := by
  have horderly : w.isOrderly (.look id slot) = true := by simp [isOrderly, hop, hsighted]
  refine ⟨horderly, ?_⟩
  obtain ⟨⟨listener, hget, hlistening, hseen, hsome⟩, -⟩ := firstSighting_eq_some hsighted
  cases seen with
  | silent => exact absurd rfl hsome
  | «over» =>
    have hact : (w.act behave (.look id slot)).session =
        w.session.spend.modifyOperation id (·.deafen slot) := by
      simp [act, withOperation, hop, Scene.look, hstage, hget, hlistening, hseen]
    have hcount : (now.deafen slot).listeners.countP (·.listening) + 1 =
        now.listeners.countP (·.listening) := countP_deafened hget hlistening
    rw [hact]
    refine ⟨now.deafen slot, by simp [Session.modifyOperation, Session.spend, Session.callbacks, hop],
      .inr ?_⟩
    have hless : effort (now.deafen slot) w.session.board + 1 = effort now w.session.board := by
      unfold effort
      rw [lanes_deafen, ← hcount]
      change _ + _ + (match now.stage with | .calling _ => 1 | _ => 0) + 1 = _
      omega
    exact Nat.lt_of_succ_le (Nat.le_of_eq hless)
  | payload payload =>
    have hact : (w.act behave (.look id slot)).session =
        w.session.spend.deliver behave id now listener payload := by
      simp [act, withOperation, hop, Scene.look, hstage, hget, hlistening, hseen]
    have hless := effort_take (hcoursing.courses id now hop) (howned.endpoints_nodup hop) hop
      horderly hget hseen
    rw [hact]
    cases haccepts : listener.slot.accepts? payload with
    | none =>
      rw [Callbacks.deliver_refused behave w.session.spend id now haccepts]
      refine ⟨now, hop, .inr ?_⟩
      change effort now (w.session.board.take listener.opened.endpoint) <
        effort now w.session.board
      unfold effort
      omega
    | some outcome =>
      obtain ⟨call, -, hsession⟩ :=
        Callbacks.deliver_accepted behave w.session.spend id now haccepts
      rw [hsession]
      refine ⟨{ now with stage := .calling call }, ?_, .inr ?_⟩
      · simp [Session.spend, hop]
      · change 2 * ((List.range now.lanes.length).flatMap (waitingAt
          (w.session.board.take listener.opened.endpoint) now.lanes)).length +
          now.listeners.countP (·.listening) + 1 < effort now w.session.board
        unfold effort
        omega

/-- An operation that does not wait has something to do, and there is less to do afterwards. -/
theorem exists_advance (behave : Behaviour F) (howned : Owned w.session.callbacks w.busy)
    (hcoursing : Coursing w.session.callbacks w.history)
    (hop : w.session.operations[id]? = some now) (hfree : w.busy (.callback id) = none)
    (hwaits : ¬w.Waits id) : ∃ move, move.isTurnOf id = true ∧ w.isOrderly move = true ∧
      move ≠ .conclude id .died ∧
      Advances id now w.session.callbacks (w.act behave move).session.callbacks := by
  cases hstage : now.stage with
  | ended ending => exact absurd ⟨now, hop, .inl ⟨ending, hstage⟩⟩ hwaits
  | calling call =>
    exact ⟨_, by simp [Move.isTurnOf], rfl, by simp, advances_conclude behave hop hstage hfree⟩
  | listening =>
    cases hany : now.listeners.any (·.listening) with
    | false =>
      exact ⟨_, by simp [Move.isTurnOf], rfl, by simp, advances_exhaust behave hop hstage hany⟩
    | true =>
      cases hsighted : Session.firstSighting w.session.board now.listeners with
      | none => exact absurd ⟨now, hop, .inr ⟨hstage, hany, hsighted⟩⟩ hwaits
      | some found =>
        obtain ⟨horderly, hless⟩ := advances_look behave howned hcoursing hop hstage hsighted
        exact ⟨_, by simp [Move.isTurnOf], horderly, by simp, hless⟩

/-- An operation whose functions return runs to where it waits, by moves of its own. -/
structure Works (behave : Behaviour F) (w : Scene F) (id : OperationId) (moves : List (Move F)) :
    Prop where
  own : ∀ move ∈ moves, move.isTurnOf id = true
  orderly : w.isOrderlyRun behave moves = true
  returns : .conclude id .died ∉ moves
  waits : (w.run behave moves).Waits id
  busy : (w.run behave moves).busy = w.busy

theorem Works.nil (h : w.Waits id) : Works behave w id [] := ⟨by simp, rfl, by simp, h, rfl⟩

theorem Works.cons (hop : w.session.operations[id]? = some now) (hturn : move.isTurnOf id = true)
    (horderly : w.isOrderly move = true) (hreturns : move ≠ .conclude id .died)
    {moves : List (Move F)} (h : Works behave (w.act behave move) id moves) :
    Works behave w id (move :: moves) where
  own := List.forall_mem_cons.mpr ⟨hturn, h.own⟩
  orderly := Bool.and_eq_true_iff.mpr ⟨horderly, h.orderly⟩
  returns := List.not_mem_cons_of_ne_of_not_mem (Ne.symm hreturns) h.returns
  waits := h.waits
  busy := h.busy.trans (busy_of_turn (turn_act behave hop hturn))

theorem exists_works (behave : Behaviour F) (howned : Owned w.session.callbacks w.busy)
    (hcoursing : Coursing w.session.callbacks w.history)
    (hop : w.session.operations[id]? = some now) (hfree : w.busy (.callback id) = none) :
    ∃ moves, Works behave w id moves := by
  induction heffort : effort now w.session.board using Nat.strong_induction_on
    generalizing w now with
  | _ n ih =>
    by_cases hwaits : w.Waits id
    · exact ⟨[], .nil hwaits⟩
    · obtain ⟨move, hturn, horderly, hreturns, next, hnext, hadvance⟩ :=
        exists_advance behave howned hcoursing hop hfree hwaits
      have hmoved : Moved w move (w.act behave move) := moved_act howned move
      have hstill : (w.act behave move).busy (.callback id) = none := by
        rw [busy_of_turn (turn_act behave hop hturn), hfree]
      have hrest : ∃ moves, Works behave (w.act behave move) id moves := by
        rcases hadvance with hended | hless
        · exact ⟨[], .nil ⟨next, hnext, .inl hended⟩⟩
        · exact ih _ (heffort ▸ hless) (owned_of_moved howned hmoved)
            (coursing_of_moved hcoursing howned hmoved) hnext hstill rfl
      obtain ⟨moves, hworks⟩ := hrest
      exact ⟨move :: moves, .cons hop hturn horderly hreturns hworks⟩

theorem isTurnOf_of_host (hhost : move.isOfHost = true) : move.isTurnOf id = false := by
  cases move with
  | fire | hangUp => rfl
  | _ => cases hhost

theorem signal?_of_turn (hturn : move.isTurnOf id = true) : op.signal? move = none := by
  cases move with
  | fire | hangUp => cases hturn
  | _ => rfl

/-- Whatever is fired, an operation can be run to where it waits again. -/
theorem Stands.exists_phase (behave : Behaviour F) (howned : Owned w.session.callbacks w.busy)
    (hcoursing : Coursing w.session.callbacks w.history) (hnodup : op.tokens.Nodup)
    (h : Stands w id op tally) (hfree : w.busy (.callback id) = none) {burst : List Signal}
    (hslots : ∀ signal ∈ burst, signal.slot < op.listeners.length) :
    ∃ phase, Phase.Handles behave op id w burst phase ∧
      (w.run behave phase.moves).busy = w.busy := by
  have hhost : ∀ move ∈ burst.map op.moveOf, move.isOfHost = true := by
    intro move hmem
    obtain ⟨signal, -, rfl⟩ := List.mem_map.mp hmem
    exact op.isOfHost_moveOf signal
  have hunseen : ∀ move ∈ burst.map op.moveOf, move.isTurnOf id = false := fun move hmem =>
    isTurnOf_of_host (hhost move hmem)
  have hfired : (burst.map op.moveOf).filterMap op.signal? = burst := by
    rw [List.filterMap_map]
    refine (List.filterMap_congr fun signal hmem => ?_).trans List.filterMap_some
    exact CallbackOperation.signal?_moveOf hnodup (hslots signal hmem)
  have hfiring : w.Undisturbed behave op id (burst.map op.moveOf) :=
    undisturbed_of_own fun move hmem => .inl (hhost move hmem)
  have hknown : ∃ now, (w.run behave (burst.map op.moveOf)).session.operations[id]? = some now := by
    cases hending : tally.ending with
    | some ending =>
      obtain ⟨now, hop, -⟩ := (over_run behave howned (h.finished ending hending).1 _).1
      exact ⟨now, hop⟩
    | none =>
      obtain ⟨⟨now, hop, -⟩, -⟩ :=
        gathers_run howned hcoursing hnodup (h.listening hending).1 hunseen hfiring
      exact ⟨now, hop⟩
  have hbusy : (w.run behave (burst.map op.moveOf)).busy = w.busy := busy_of_host behave w hhost
  obtain ⟨now, hop⟩ := hknown
  obtain ⟨howned', hcoursing'⟩ := owned_coursing_run behave howned hcoursing (burst.map op.moveOf)
  obtain ⟨working, hturns, horderly, hreturns, hwaits, hsame⟩ :=
    exists_works behave howned' hcoursing' hop (by rw [hbusy, hfree])
  refine ⟨⟨burst.map op.moveOf, working⟩, ⟨hfired, hunseen, ?_, ?_, horderly, hreturns, ?_⟩, ?_⟩
  · exact List.filterMap_eq_nil_iff.mpr fun move hmem => signal?_of_turn (hturns move hmem)
  · refine undisturbed_of_own fun move hmem => ?_
    rcases List.mem_append.mp hmem with hmem | hmem
    · exact .inl (hhost move hmem)
    · exact .inr (hturns move hmem)
  · rw [Phase.moves, run_append]
    exact hwaits
  · rw [Phase.moves, run_append]
    exact hsame.trans hbusy

/-- The scene after some phases. -/
def through (behave : Behaviour F) (w : Scene F) (phases : List (Phase F)) : Scene F :=
  w.run behave (phases.flatMap Phase.moves)

theorem through_cons (behave : Behaviour F) (w : Scene F) (phase : Phase F)
    (phases : List (Phase F)) :
    w.through behave (phase :: phases) = (w.run behave phase.moves).through behave phases := by
  rw [through, List.flatMap_cons, run_append]
  rfl

theorem Stands.exists_phases (behave : Behaviour F) (howned : Owned w.session.callbacks w.busy)
    (hcoursing : Coursing w.session.callbacks w.history) (hnodup : op.tokens.Nodup)
    (h : Stands w id op tally) (hfree : w.busy (.callback id) = none) {bursts : List (List Signal)}
    (hslots : ∀ burst ∈ bursts, ∀ signal ∈ burst, signal.slot < op.listeners.length) :
    ∃ phases, HandlesAll behave op id w bursts phases := by
  induction bursts generalizing w tally with
  | nil => exact ⟨[], trivial⟩
  | cons burst bursts ih =>
    obtain ⟨hfirst, hlater⟩ := List.forall_mem_cons.mp hslots
    obtain ⟨phase, hhandles, hbusy⟩ := h.exists_phase behave howned hcoursing hnodup hfree hfirst
    obtain ⟨howned', hcoursing'⟩ := owned_coursing_run behave howned hcoursing phase.moves
    obtain ⟨phases, hall⟩ := ih howned' hcoursing' (h.after howned hcoursing hnodup hhandles)
      (by rw [hbusy, hfree]) hlater
    exact ⟨phase :: phases, hhandles, hall⟩

/-- All bursts take an operation where their tally says. -/
theorem Stands.through {bursts : List (List Signal)} {phases : List (Phase F)}
    (howned : Owned w.session.callbacks w.busy)
    (hcoursing : Coursing w.session.callbacks w.history) (hnodup : op.tokens.Nodup)
    (h : Stands w id op tally) (hall : HandlesAll behave op id w bursts phases) :
    Stands (w.through behave phases) id op (bursts.foldl (Tally.after op.lanes) tally) := by
  induction bursts generalizing w tally phases with
  | nil =>
    cases phases with
    | nil => exact h
    | cons => cases hall
  | cons burst bursts ih =>
    cases phases with
    | nil => cases hall
    | cons phase phases =>
      obtain ⟨hhandles, hlater⟩ := hall
      obtain ⟨howned', hcoursing'⟩ := owned_coursing_run behave howned hcoursing phase.moves
      rw [through_cons]
      exact ih howned' hcoursing' (h.after howned hcoursing hnodup hhandles) hlater

/-! ## What can be seen -/

/-- What can be seen of an operation that waits or has ended is as a tally says. -/
structure ComesTo (w : Scene F) (id : OperationId) (op now : CallbackOperation F) (tally : Tally) :
    Prop where
  known : w.session.operations[id]? = some now
  /-- The functions that were called, with their payloads. -/
  called : calls (story w.history id) = tally.calls
  counted : now.invocations = tally.calls.length
  listening : tally.ending = none → now.stage = .listening
  ended : ∀ ending, tally.ending = some ending → now.stage = .ended ending ∧
    ⟨now.label, tally.calls.length, ending⟩ ∈ w.session.journal.endings
  isOpen : ∀ e ∈ op.endpoints, w.session.board.isOpen e = tally.ending.isNone
  /-- An operation that has not ended listens at all slots that the host has not let go of. -/
  attentive : tally.ending = none → ∀ slot listener, now.listeners[slot]? = some listener →
    (listener.listening = true ↔ slot ∉ tally.gone)

theorem invocations_eq {deeds : List Deed} (h : Tells now deeds) (hstage : now.stage = .listening ∨
    ∃ ending, now.stage = .ended ending ∧ ending ≠ .aborted) :
    now.invocations = (calls deeds).length := by
  obtain ⟨n, rounds, finale, hrounds, hfinale, rfl⟩ := h
  rw [← callCount_eq_length, callCount_append, hrounds.callCount]
  generalize now.stage = stage at hfinale hstage
  cases hfinale with
  | listening | reclaimed | exhausted => rfl
  | calling hslot => simp at hstage
  | fired hcount hslot => exact hcount
  | died hslot => simp at hstage

theorem Stands.comesTo (hcoursing : Coursing w.session.callbacks w.history)
    (h : Stands w id op tally) : ∃ now, ComesTo w id op now tally := by
  cases hending : tally.ending with
  | none =>
    obtain ⟨⟨⟨now, hop, hlanes, -, hstage⟩, -⟩, hflags⟩ := h.listening hending
    have hcourse := hcoursing.courses id now hop
    have hrunning : ∀ ending, now.stage ≠ .ended ending := by simp [hstage]
    refine ⟨now, hop, h.called, ?_, fun _ => hstage, ?_, ?_, fun _ => hflags now hop⟩
    · rw [← h.called]
      exact invocations_eq hcourse.tells (.inl hstage)
    · simp [hending]
    · rw [hending]
      exact isOpen_of_running hcoursing hop hlanes hrunning
  | some ending =>
    obtain ⟨⟨now, hop, hlanes, hstage⟩, haborted⟩ := h.finished ending hending
    have hcourse := hcoursing.courses id now hop
    have hcounted : now.invocations = tally.calls.length := by
      rw [← h.called]
      exact invocations_eq hcourse.tells (.inr ⟨ending, hstage, haborted⟩)
    refine ⟨now, hop, h.called, hcounted, by simp [hending], fun other hother => ?_, ?_,
      by simp [hending]⟩
    · rw [hending] at hother
      cases hother
      have hreport := hcourse.reported _ (hcourse.tells.ended_of_stage hstage)
      rw [CallbackOperation.report, if_neg haborted, hcounted] at hreport
      exact ⟨hstage, hreport⟩
    · rw [hending, ← CallbackOperation.endpoints_of_lanes hlanes]
      exact hcourse.closed ending hstage

/-! ## Refused payloads -/

theorem Ready.tokens_nodup (h : Ready w id op) (hnodup : op.endpoints.Nodup) :
    op.tokens.Nodup := by
  refine List.pairwise_map.mpr ((List.pairwise_map.mp hnodup).imp_of_mem ?_)
  intro listener other hlistener hother hne heq
  have hfound := (h.attentive listener hlistener).2
  rw [heq, (h.attentive other hother).2] at hfound
  exact hne (Option.some.inj hfound).symm

theorem Ready.stands (h : Ready w id op) (hstopping : op.stopping = false)
    (hcoursing : Coursing w.session.callbacks w.history) : Stands w id op {} := by
  refine ⟨h.calls_eq_nil hcoursing, fun _ => ⟨⟨⟨op, h.known, rfl, hstopping, h.stage⟩, ?_,
    h.calls_eq_nil hcoursing, fun slot hslot => ?_⟩, fun now hop slot listener hget => ?_⟩,
    fun _ hsome => (nomatch hsome)⟩
  · exact ⟨fun _ hgone => (nomatch hgone), fun slot _ listener hget =>
      (h.attentive listener (List.mem_of_getElem? hget)).2⟩
  · obtain ⟨listener, hget, hlane⟩ := lanes_getElem?.mp (List.getElem?_eq_getElem hslot)
    rw [waitingAt_of_lane _ (List.getElem?_eq_getElem hslot), hlane]
    exact (h.queued_eq_nil hcoursing hget).2
  · rw [h.known] at hop
    cases hop
    exact iff_of_true (h.attentive listener (List.mem_of_getElem? hget)).1 (by simp)

theorem slots_of_padded {bursts padded : List (List Signal)}
    (hpadded : List.Forall₂ (Padded op.lanes) bursts padded)
    (hslots : ∀ burst ∈ bursts, ∀ signal ∈ burst, signal.slot < op.listeners.length) :
    ∀ burst ∈ padded, ∀ signal ∈ burst, signal.slot < op.listeners.length := by
  have hlength : op.lanes.length = op.listeners.length := List.length_map ..
  induction hpadded with
  | nil => simp
  | cons hburst _ ih =>
    obtain ⟨hfirst, hlater⟩ := List.forall_mem_cons.mp hslots
    exact List.forall_mem_cons.mpr ⟨hlength ▸ hburst.slots (hlength.symm ▸ hfirst), ih hlater⟩

/-- To put refused payloads into bursts changes nothing: not which functions are called with which
payloads, nor how often, nor how the operation ends, nor which endpoints are open. What is behind a
refused payload is delivered all the same. -/
theorem refused_payloads_invisible (behave : Behaviour F) (settings : Settings) (host : Host)
    (earlier : List (Move F)) (hready : Ready ((start settings host).run behave earlier) id op)
    (hstopping : op.stopping = false) {bursts padded : List (List Signal)}
    (hslots : ∀ burst ∈ bursts, ∀ signal ∈ burst, signal.slot < op.listeners.length)
    (hpadded : List.Forall₂ (Padded op.lanes) bursts padded) :
    (∃ phases, HandlesAll behave op id ((start settings host).run behave earlier) padded phases) ∧
    (∀ phases phases',
      HandlesAll behave op id ((start settings host).run behave earlier) bursts phases →
      HandlesAll behave op id ((start settings host).run behave earlier) padded phases' →
      (∃ now, ComesTo (((start settings host).run behave earlier).through behave phases) id op now
        (tallyOf op.lanes bursts)) ∧
      ∃ now, ComesTo (((start settings host).run behave earlier).through behave phases') id op now
        (tallyOf op.lanes bursts)) ∧
    ((tallyOf op.lanes bursts).ending ≠ some .oneShotFired →
      (tallyOf op.lanes bursts).calls.Perm
        ((received [] padded.flatten).filterMap (callFor op.lanes))) := by
  have howned : Owned ((start settings host).run behave earlier).session.callbacks
      ((start settings host).run behave earlier).busy := owned_run settings host earlier
  have hcoursing := coursing_run behave settings host earlier
  generalize (start settings host).run behave earlier = w at *
  have hnodup := hready.tokens_nodup (howned.endpoints_nodup hready.known)
  have hstands := hready.stands hstopping hcoursing
  have hsame := tallyOf_padded hpadded
  have comes : ∀ {bursts : List (List Signal)} {phases : List (Phase F)},
      HandlesAll behave op id w bursts phases →
      ∃ now, ComesTo (w.through behave phases) id op now (tallyOf op.lanes bursts) :=
    fun hall => (hstands.through howned hcoursing hnodup hall).comesTo
      (owned_coursing_run behave howned hcoursing _).2
  refine ⟨hstands.exists_phases behave howned hcoursing hnodup hready.free
    (slots_of_padded hpadded hslots),
    fun phases phases' hall hall' => ⟨comes hall, hsame ▸ comes hall'⟩, ?_⟩
  rw [← hsame]
  exact tallyOf_calls_perm

/-! ## A panel -/

/-- The text changes, and then it is entered. -/
def changing : List (List Signal) := [[.payload 1 typed], [.payload 0 typed]]

/-- The same with something before the change that is no envelope, with an error behind that, and
with an object before the text that is entered. -/
def disturbed : List (List Signal) :=
  [[.payload 1 (.string "Ada"), .payload 1 (Envelope.error "busy").toJson, .payload 1 typed],
    [.payload 0 (Envelope.handle "Ada").toJson, .payload 0 typed]]

/-- Both functions of the panel are called, as if nothing else had come. -/
theorem panel_undisturbed : ∃ op, Ready panelShown 0 op ∧
    List.Forall₂ (Padded op.lanes) changing disturbed ∧
    (tallyOf op.lanes changing).calls.map (·.1) = [1, 0] ∧
    (tallyOf op.lanes changing).ending = some .oneShotFired ∧
    (∃ phases, HandlesAll returning op 0 panelShown disturbed phases) ∧
    ∀ phases phases', HandlesAll returning op 0 panelShown changing phases →
      HandlesAll returning op 0 panelShown disturbed phases' →
      (∃ now, ComesTo (panelShown.through returning phases) 0 op now (tallyOf op.lanes changing)) ∧
      ∃ now, ComesTo (panelShown.through returning phases') 0 op now
        (tallyOf op.lanes changing) := by
  have hshown : panelShown.session.operations[0]?.any (fun op => panelShown.isReady 0 op &&
      !op.stopping && decide (op.listeners.length = 2) &&
      op.lanes[1]?.any (fun lane => (lane.1.accepts? (.string "Ada")).isNone &&
        (lane.1.accepts? (Envelope.error "busy").toJson).isNone) &&
      op.lanes[0]?.any (fun lane => (lane.1.accepts? (Envelope.handle "Ada").toJson).isNone) &&
      decide ((tallyOf op.lanes changing).calls.map (·.1) = [1, 0]) &&
      decide ((tallyOf op.lanes changing).ending = some .oneShotFired)) = true := by
    decide +kernel
  obtain ⟨op, hop, hall⟩ := (Option.any_eq_true ..).mp hshown
  simp only [Bool.and_eq_true, decide_eq_true_eq, Bool.not_eq_true'] at hall
  obtain ⟨⟨⟨⟨⟨⟨hready, hstopping⟩, hlength⟩, hchange⟩, hdone⟩, hcalls⟩, hending⟩ := hall
  have hready := ready_of_isReady hop hready
  obtain ⟨change, hlane₁, hrefused⟩ := (Option.any_eq_true ..).mp hchange
  obtain ⟨hnone, herror⟩ := Bool.and_eq_true_iff.mp hrefused
  obtain ⟨done, hlane₀, hhandle⟩ := (Option.any_eq_true ..).mp hdone
  have hpadded : List.Forall₂ (Padded op.lanes) changing disturbed := by
    refine .cons ?_ (.cons ?_ .nil)
    · exact .refused hlane₁ (Slot.refuses_iff.mpr (Option.isNone_iff_eq_none.mp hnone))
        (.refused hlane₁ (Slot.refuses_iff.mpr (Option.isNone_iff_eq_none.mp herror)) (.refl _ _))
    · exact .refused hlane₀ (Slot.refuses_iff.mpr (Option.isNone_iff_eq_none.mp hhandle))
        (.refl _ _)
  obtain ⟨hruns, hsame, -⟩ := refused_payloads_invisible returning {} panelHost _ hready hstopping
    (by simp [changing, Signal.slot, hlength]) hpadded
  exact ⟨op, hready, hpadded, hcalls, hending, hruns, hsame⟩

end Scene

end RemoteHost
