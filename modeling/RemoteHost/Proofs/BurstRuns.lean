import RemoteHost.Proofs.HostLinks

/-!
# Runs after bursts

A burst is fired while an operation has no turn, and then the operation runs until it waits. Whoever
else runs when, it calls what is in line, until a one-shot slot has fired or nothing is left.
-/

namespace RemoteHost

variable {F : Type}

/-- Calls of repeatable slots only have been answered completely. -/
theorem Rounds.calls_repeatable {slots : List (Slot F)} {n : Nat} {deeds : List Deed}
    (h : Rounds slots n deeds) :
    ∀ call ∈ calls deeds, hasCardinality slots call.1 .repeatable := by
  induction h with
  | none => simp [calls]
  | more h hslot ih =>
    intro call hcall
    rw [calls_append] at hcall
    rcases List.mem_append.mp hcall with hcall | hcall
    · exact ih call hcall
    · obtain rfl : call = _ := by simpa [calls] using hcall
      exact hslot

theorem Rounds.calls_not_oneShot {op : CallbackOperation F} {lanes : List (Slot F × EndpointId)}
    {n : Nat} {deeds : List Deed} (h : Rounds op.slots n deeds) (hlanes : op.lanes = lanes) :
    ∀ call ∈ calls deeds, ¬hasCardinality (lanes.map (·.1)) call.1 .oneShot := by
  rw [← hlanes, op.lanes_slots]
  exact fun call hmem => not_oneShot (h.calls_repeatable call hmem)

theorem Board.isConnected_of_silent {b : Board} {i : Nat} (h : b.sighting i = .silent) :
    Board.isConnected b i = true := by
  unfold sighting Endpoint.sighting at h
  cases hb : b[i]? with
  | none => simp [hb] at h
  | some e =>
    simp only [hb, Option.map_some, Option.getD_some] at h
    split at h
    · cases h
    · split at h
      · rename_i hboth
        simpa [isConnected, hb] using (Bool.and_eq_true_iff.mp hboth).1
      · cases h

theorem silent_of_firstSighting {board : Board} {listeners : List (Listener F)}
    (h : Session.firstSighting board listeners = none) :
    ∀ listener ∈ listeners, listener.listening = true →
      board.sighting listener.opened.endpoint = .silent := by
  induction listeners with
  | nil => simp
  | cons first rest ih =>
    intro listener hmem hlistening
    rw [Session.firstSighting] at h
    rcases List.mem_cons.mp hmem with rfl | hmem
    · rw [if_pos hlistening] at h
      split at h
      · rename_i hsilent
        exact hsilent
      · cases h
    · refine ih ?_ listener hmem hlistening
      split at h
      · split at h
        · exact Option.map_eq_none_iff.mp h
        · cases h
      · exact Option.map_eq_none_iff.mp h

namespace Scene

variable {behave : Behaviour F} {w w' : Scene F} {move : Move F} {id : OperationId}
  {op now : CallbackOperation F} {gone : List Nat} {total : List (Nat × Outcome)}

/-! ## Phases -/

/-- An operation has not ended. -/
def isRunning (w : Scene F) (id : OperationId) : Prop :=
  ∃ now, w.session.operations[id]? = some now ∧ ∀ ending, now.stage ≠ .ended ending

/-- Nobody but the host and the operation itself has to do with the operation, until it ends. -/
def Undisturbed (behave : Behaviour F) (op : CallbackOperation F) (id : OperationId) :
    Scene F → List (Move F) → Prop
  | _, [] => True
  | w, move :: moves =>
    (w.isRunning id → move.isOfHost = false → move.isTurnOf id = false →
      w.Spares behave op id move) ∧ Undisturbed behave op id (w.act behave move) moves

/-- An operation has ended, or it listens and there is nothing to see. -/
def Waits (w : Scene F) (id : OperationId) : Prop :=
  ∃ now, w.session.operations[id]? = some now ∧ ((∃ ending, now.stage = .ended ending) ∨
    now.stage = .listening ∧ now.listeners.any (·.listening) = true ∧
      Session.firstSighting w.session.board now.listeners = none)

/-- Unless it was told to end or has to rest, an operation that waits is one that the dispatcher can
do nothing for. -/
theorem waits_iff_listen (behave : Behaviour F) (hop : w.session.operations[id]? = some now)
    (hstage : now.stage = .listening) (hstopping : now.stopping = false)
    (hleft : w.session.isSpent = false) : w.Waits id ↔ w.session.listen behave id now = none := by
  have hwaits : w.Waits id ↔ now.listeners.any (·.listening) = true ∧
      Session.firstSighting w.session.board now.listeners = none := by
    simp [Waits, hop, hstage]
  rw [hwaits, Session.listen, List.all_eq_not_any_not]
  cases hany : now.listeners.any (·.listening) with
  | false => simp [hany]
  | true =>
    cases hseen : Session.firstSighting w.session.board now.listeners with
    | none => simp [hany, hleft, hstopping]
    | some found =>
      obtain ⟨slot, seen⟩ := found
      simp only [hany, hleft, hstopping, Bool.not_not]
      cases seen <;> cases now.listeners[slot]? <;> simp

/-- The moves in which a burst is fired, and those in which an operation runs after it. -/
structure Phase (F : Type) where
  firing : List (Move F)
  working : List (Move F)

def Phase.moves (phase : Phase F) : List (Move F) := phase.firing ++ phase.working

/-- A burst is fired and then handled by an operation whose functions return. -/
structure Phase.Handles (behave : Behaviour F) (op : CallbackOperation F) (id : OperationId)
    (w : Scene F) (burst : List Signal) (phase : Phase F) : Prop where
  fired : phase.firing.filterMap op.signal? = burst
  /-- The operation has no turn before all of the burst is fired. -/
  unseen : ∀ move ∈ phase.firing, move.isTurnOf id = false
  quiet : phase.working.filterMap op.signal? = []
  undisturbed : w.Undisturbed behave op id phase.moves
  orderly : (w.run behave phase.firing).isOrderlyRun behave phase.working = true
  returns : .conclude id .died ∉ phase.working
  waits : (w.run behave phase.moves).Waits id

/-- One burst after another is fired and handled. -/
def HandlesAll (behave : Behaviour F) (op : CallbackOperation F) (id : OperationId) :
    Scene F → List (List Signal) → List (Phase F) → Prop
  | _, [], [] => True
  | w, burst :: bursts, phase :: phases => phase.Handles behave op id w burst ∧
      HandlesAll behave op id (w.run behave phase.moves) bursts phases
  | _, _, _ => False

/-! ## Turns -/

/-- An operation that has not ended, with the slots that are gone. -/
structure Runs (w : Scene F) (id : OperationId) (op : CallbackOperation F) (gone : List Nat) :
    Prop where
  known : ∃ now, w.session.operations[id]? = some now ∧ now.lanes = op.lanes ∧
    now.stopping = false ∧ ∀ ending, now.stage ≠ .ended ending
  linked : Linked w.session.board op gone

/-- An operation has ended. -/
def Over (w : Scene F) (id : OperationId) (op : CallbackOperation F) (ending : Ending) : Prop :=
  ∃ now, w.session.operations[id]? = some now ∧ now.lanes = op.lanes ∧ now.stage = .ended ending

/-- An operation that is to make these calls in all, unless a one-shot one comes before. -/
inductive Serves (w : Scene F) (id : OperationId) (op : CallbackOperation F) (gone : List Nat)
    (total : List (Nat × Outcome)) : Prop where
  | running (hruns : w.Runs id op gone) (htotal : calls (story w.history id) ++
      inLine op.lanes (waitingAt w.session.board op.lanes) = total)
  | finished {ending : Ending} (hover : w.Over id op ending)
      (hcalls : calls (story w.history id) = upToOneShot (op.lanes.map (·.1)) total)
      (hending : endingAfter op.lanes total gone = some ending)

/-- In an orderly run nothing waits for the slots below the one that is looked at. -/
theorem waitingAt_lower (hcourse : Course w.session.callbacks w.history id now)
    (hop : w.session.operations[id]? = some now) {slot : Nat}
    (horderly : w.isOrderly (.look id slot) = true) :
    ∀ i < slot, waitingAt w.session.board now.lanes i = [] := by
  intro i hi
  have hfirst : (Session.firstSighting w.session.board now.listeners).map (·.1) = some slot := by
    simpa [isOrderly, hop] using horderly
  obtain ⟨⟨_, seen⟩, hsighted, rfl⟩ := Option.map_eq_some_iff.mp hfirst
  obtain ⟨-, hbefore⟩ := firstSighting_eq_some hsighted
  cases hget : now.listeners[i]? with
  | none => simp [waitingAt, CallbackOperation.lanes, hget]
  | some other =>
    rw [waitingAt_of_lane _ (lanes_getElem?.mpr ⟨other, hget, rfl⟩)]
    cases hlistening : other.listening with
    | false => exact (hcourse.deaf other (List.mem_of_getElem? hget) hlistening).1
    | true => exact Board.inbox_of_silent (hbefore i hi other hget hlistening)

/-- To look at a slot takes what waits there first, and nothing else. -/
theorem waitingAt_taken (hnodup : now.endpoints.Nodup) {slot : Nat} {listener : Listener F}
    {payload : Json} (hget : now.listeners[slot]? = some listener)
    (hseen : w.session.board.sighting listener.opened.endpoint = .payload payload) :
    slot < now.lanes.length ∧
    waitingAt w.session.board now.lanes slot = payload ::
      waitingAt (w.session.board.take listener.opened.endpoint) now.lanes slot ∧
    ∀ i, i ≠ slot → waitingAt (w.session.board.take listener.opened.endpoint) now.lanes i =
      waitingAt w.session.board now.lanes i := by
  have hlane : now.lanes[slot]? = some (listener.slot, listener.opened.endpoint) :=
    lanes_getElem?.mpr ⟨listener, hget, rfl⟩
  have htake := waitingAt_take w.session.board (now.lanes_nodup hnodup) hlane
  obtain ⟨later, hinbox⟩ := Board.sighting_eq_payload hseen
  refine ⟨(List.getElem?_eq_some_iff.mp hlane).1, ?_, fun i hi => (htake i).trans (if_neg hi)⟩
  rw [htake, if_pos rfl, waitingAt_of_lane _ hlane]
  dsimp only
  rw [hinbox]
  rfl

/-- An operation takes the first payload that is in line. -/
theorem inLine_taken (hcourse : Course w.session.callbacks w.history id now)
    (hnodup : now.endpoints.Nodup) (hop : w.session.operations[id]? = some now) {slot : Nat}
    (horderly : w.isOrderly (.look id slot) = true) {listener : Listener F} {payload : Json}
    (hget : now.listeners[slot]? = some listener)
    (hseen : w.session.board.sighting listener.opened.endpoint = .payload payload) :
    inLine now.lanes (waitingAt w.session.board now.lanes) =
      (callFor now.lanes (slot, payload)).toList ++
        inLine now.lanes (waitingAt (w.session.board.take listener.opened.endpoint) now.lanes) := by
  obtain ⟨hslot, hfirst, hothers⟩ := waitingAt_taken hnodup hget hseen
  exact inLine_lowest hslot (waitingAt_lower hcourse hop horderly) hfirst hothers

/-- Once none of its slots listens, an operation has nothing in line, and all slots are gone. -/
theorem nothing_left (hcourse : Course w.session.callbacks w.history id now)
    (hdeaf : ∀ listener ∈ now.listeners, listener.listening = false) (hlanes : now.lanes = op.lanes)
    (hlinked : Linked w.session.board op gone) :
    inLine op.lanes (waitingAt w.session.board op.lanes) = [] ∧
      ∀ slot < op.lanes.length, slot ∈ gone := by
  have hlost : ∀ slot < op.lanes.length, waitingAt w.session.board op.lanes slot = [] ∧
      slot ∈ gone := by
    intro slot hslot
    obtain ⟨lane, hlane⟩ : ∃ lane, op.lanes[slot]? = some lane :=
      ⟨_, List.getElem?_eq_getElem hslot⟩
    obtain ⟨listener, hget, rfl⟩ := lanes_getElem?.mp (hlanes ▸ hlane)
    obtain ⟨own, hown, heq⟩ := lanes_getElem?.mp hlane
    have hmem := List.mem_of_getElem? hget
    obtain ⟨hinbox, hconnected⟩ := hcourse.deaf listener hmem (hdeaf listener hmem)
    refine ⟨(waitingAt_of_lane _ hlane).trans hinbox, ?_⟩
    by_contra hkept
    obtain ⟨e, he, -, hstill⟩ := Board.find_eq_some (hlinked.kept slot hkept own hown)
    have hsame : listener.opened.endpoint = own.opened.endpoint := congrArg Prod.snd heq
    have hconnected : Board.isConnected w.session.board listener.opened.endpoint = false :=
      hconnected
    rw [hsame] at hconnected
    simp [Board.isConnected, he, hstill] at hconnected
  exact ⟨inLine_eq_nil fun slot hslot => (hlost slot hslot).1, fun slot hslot => (hlost slot hslot).2⟩

/-- Whatever an operation does in its turn, the calls that it is to make in all stay the same. -/
theorem serves_of_turn (howned : Owned w.session.callbacks w.busy)
    (hcoursing : Coursing w.session.callbacks w.history)
    (hop : w.session.operations[id]? = some now) (hlanes : now.lanes = op.lanes)
    (hstopping : now.stopping = false) (hrunning : ∀ ending, now.stage ≠ .ended ending)
    (hlinked : Linked w.session.board op gone)
    (htotal : calls (story w.history id) ++
      inLine op.lanes (waitingAt w.session.board op.lanes) = total)
    (hturn : Turn w id now move w') (horderly : w.isOrderly move = true)
    (hstop : move ≠ .stop id) (hreturns : move ≠ .conclude id .died) :
    Serves w' id op gone total := by
  have hcourse := hcoursing.courses id now hop
  have hnodup := howned.endpoints_nodup hop
  have hmodify : ∀ f : CallbackOperation F → CallbackOperation F,
      (w.session.operations.modify id f)[id]? = some (f now) := fun f => by
    simp [hop]
  have hends : ∀ {session : Session F} {last : CallbackOperation F} {ending : Ending},
      last.lanes = op.lanes → Callbacks.Ends id last ending w.session.callbacks session.callbacks →
      ∀ {busy : Party → Option (Engagement F)} {history : List (Occurrence F)},
        Over ⟨session, busy, history⟩ id op ending :=
    fun hlast hends _ _ => ⟨_, hends.found hop, hlast, rfl⟩
  cases hturn with
  | idle => exact .running ⟨⟨now, hop, hlanes, hstopping, hrunning⟩, hlinked⟩ htotal
  | @deafened session slot listener hstage hget hover hsession =>
    have hboard : session.board = w.session.board := congrArg Callbacks.board hsession
    refine .running ⟨⟨now.deafen slot, ?_, ?_, hstopping, hrunning⟩, ?_⟩ ?_
    · exact (Session.operation_of_callbacks hsession id).trans (hmodify _)
    · rw [lanes_deafen, hlanes]
    · exact hboard ▸ hlinked
    · dsimp only
      rw [hboard]
      exact htotal
  | @refused session slot listener payload hstage hget hlistening hseen hrefused hsession =>
    have hboard : session.board = w.session.board.take listener.opened.endpoint :=
      congrArg Callbacks.board hsession
    have htaken := inLine_taken hcourse hnodup hop horderly hget hseen
    rw [callFor, lanes_getElem?.mpr ⟨listener, hget, rfl⟩] at htaken
    refine .running ⟨⟨now, ?_, hlanes, hstopping, hrunning⟩, ?_⟩ ?_
    · exact (Session.operation_of_callbacks hsession id).trans hop
    · exact hboard ▸ hlinked.take _
    · dsimp only
      rw [hboard, ← htotal, ← hlanes, htaken]
      simp [hrefused, story]
  | @called session slot listener payload outcome call hstage hget hlistening hseen haccepted hcall
      hsession =>
    have hboard : session.board = w.session.board.take listener.opened.endpoint :=
      congrArg Callbacks.board hsession
    have htaken := inLine_taken hcourse hnodup hop horderly hget hseen
    rw [callFor, lanes_getElem?.mpr ⟨listener, hget, rfl⟩] at htaken
    refine .running ⟨⟨{ now with stage := .calling call }, ?_, hlanes, hstopping, by simp⟩, ?_⟩ ?_
    · exact (Session.operation_of_callbacks hsession id).trans (hmodify _)
    · exact hboard ▸ hlinked.take _
    · dsimp only
      rw [hboard, ← htotal, ← hlanes, htaken]
      simp [haccepted, story, calls]
  | @resumed session call result hstage hcall hsession =>
    have hboard : session.board = w.session.board := congrArg Callbacks.board hsession
    refine .running ⟨⟨now.resumed, ?_, hlanes, hstopping, by simp [CallbackOperation.resumed]⟩, ?_⟩
      ?_
    · exact (Session.operation_of_callbacks hsession id).trans (hmodify _)
    · exact hboard ▸ hlinked
    · dsimp only
      rw [hboard, ← htotal]
      simp [story, calls]
  | @fired session call result hstage hcall hfired =>
    obtain ⟨rounds, slot, outcome, hrounds, hslot, hstory⟩ := hcourse.tells.calling hstage
    have hcalls : calls (story w.history id) = calls rounds ++ [(slot, outcome)] := by
      rw [hstory, calls_append]
      rfl
    rw [hcall, ← now.lanes_slots, hlanes] at hslot
    rw [hcalls, List.append_assoc, List.singleton_append] at htotal
    have hresumed : now.resumed.lanes = op.lanes := hlanes
    refine .finished (hends hresumed hfired) ?_ ?_
    · rw [← htotal, upToOneShot_of_oneShot (hrounds.calls_not_oneShot hlanes) hslot, ← hcalls]
      simp [story, calls]
    · rw [← htotal]
      exact endingAfter_oneShot List.mem_append_cons_self hslot
  | died => exact absurd rfl hreturns
  | stopped => exact absurd rfl hstop
  | exhausted hstage hdeaf hexhausted =>
    obtain ⟨hnothing, hgone⟩ := nothing_left hcourse hdeaf hlanes hlinked
    have hnone := (hcourse.tells.rounds hstage).calls_not_oneShot hlanes
    rw [hnothing, List.append_nil] at htotal
    rw [htotal] at hnone
    refine .finished (hends hlanes hexhausted) ?_ (endingAfter_gone hnone hgone)
    rw [upToOneShot_eq_self hnone, ← htotal]
    simp [story, calls]

theorem turn_act (behave : Behaviour F) (hop : w.session.operations[id]? = some now)
    (hturn : move.isTurnOf id = true) : Turn w id now move (w.act behave move) := by
  cases move with
  | look i slot =>
    obtain rfl : i = id := by simpa [Move.isTurnOf] using hturn
    simp only [act, withOperation, hop]
    exact turn_look behave slot
  | stop i =>
    obtain rfl : i = id := by simpa [Move.isTurnOf] using hturn
    simp only [act, withOperation, hop]
    exact turn_stop hop
  | exhaust i =>
    obtain rfl : i = id := by simpa [Move.isTurnOf] using hturn
    simp only [act, withOperation, hop]
    exact turn_exhaust hop
  | conclude i verdict =>
    obtain rfl : i = id := by simpa [Move.isTurnOf] using hturn
    simp only [act, withOperation, hop]
    exact turn_conclude hop verdict
  | _ => cases hturn

theorem over_act (behave : Behaviour F) (howned : Owned w.session.callbacks w.busy)
    {ending : Ending} (h : w.Over id op ending) (move : Move F) :
    (w.act behave move).Over id op ending ∧
      story (w.act behave move).history id = story w.history id := by
  obtain ⟨now, hop, hlanes, hstage⟩ := h
  obtain ⟨⟨now', hop', hlanes', hstage'⟩, hstory⟩ :=
    stage_act behave howned hop (.inr ⟨ending, hstage⟩)
  exact ⟨⟨now', hop', hlanes'.trans hlanes, hstage'.trans hstage⟩, hstory⟩

/-- The endpoints of an operation that has not ended are open. -/
theorem isOpen_of_running (hcoursing : Coursing w.session.callbacks w.history)
    (hop : w.session.operations[id]? = some now) (hlanes : now.lanes = op.lanes)
    (hrunning : ∀ ending, now.stage ≠ .ended ending) :
    ∀ e ∈ op.endpoints, w.session.board.isOpen e = true := by
  rw [← CallbackOperation.endpoints_of_lanes hlanes]
  exact fun e he => ((hcoursing.courses id now hop).running hrunning e he).1

/-- As long as the host is quiet, the calls that an operation is to make in all stay the same. -/
theorem serves_act (howned : Owned w.session.callbacks w.busy)
    (hcoursing : Coursing w.session.callbacks w.history) (hnodup : op.tokens.Nodup)
    (h : Serves w id op gone total) (hquiet : op.signal? move = none)
    (hspared : w.isRunning id → move.isOfHost = false → move.isTurnOf id = false →
      w.Spares behave op id move)
    (horderly : w.isOrderly move = true) (hreturns : move ≠ .conclude id .died) :
    Serves (w.act behave move) id op gone total := by
  cases h with
  | finished hover hcalls hending =>
    obtain ⟨hstill, hstory⟩ := over_act behave howned hover move
    exact .finished hstill (hstory ▸ hcalls) hending
  | running hruns htotal =>
    obtain ⟨⟨now, hop, hlanes, hstopping, hrunning⟩, hlinked⟩ := hruns
    cases hturn : move.isTurnOf id with
    | true =>
      by_cases hstop : move = .stop id
      · have hsame : w.act behave (.stop id) = w := by
          simp only [act, withOperation, hop, stop_of_not_stopping hstopping]
        rw [hstop, hsame]
        exact .running ⟨⟨now, hop, hlanes, hstopping, hrunning⟩, hlinked⟩ htotal
      · exact serves_of_turn howned hcoursing hop hlanes hstopping hrunning hlinked htotal
          (turn_act behave hop hturn) horderly hstop hreturns
    | false =>
      obtain ⟨hstill, hstory, hlinks, hwaiting⟩ := brought_act howned hop hlanes
        (isOpen_of_running hcoursing hop hlanes hrunning) hnodup hlinked hturn
        fun hhost => hspared ⟨now, hop, hrunning⟩ hhost hturn
      rw [hquiet] at hlinks hwaiting
      refine .running ⟨⟨now, hstill, hlanes, hstopping, hrunning⟩, hlinks⟩ ?_
      rw [hstory, ← htotal]
      refine congrArg _ (inLine_congr fun slot hslot => ?_)
      exact (hwaiting slot hslot).trans (List.append_nil _)

theorem owned_coursing_run (behave : Behaviour F) (howned : Owned w.session.callbacks w.busy)
    (hcoursing : Coursing w.session.callbacks w.history) (moves : List (Move F)) :
    Owned (w.run behave moves).session.callbacks (w.run behave moves).busy ∧
      Coursing (w.run behave moves).session.callbacks (w.run behave moves).history :=
  run_induction
    (P := fun w => Owned w.session.callbacks w.busy ∧ Coursing w.session.callbacks w.history)
    ⟨howned, hcoursing⟩
    (fun _ move h => ⟨owned_of_moved h.1 (moved_act h.1 move),
      coursing_of_moved h.2 h.1 (moved_act h.1 move)⟩) moves

theorem serves_run {moves : List (Move F)} (howned : Owned w.session.callbacks w.busy)
    (hcoursing : Coursing w.session.callbacks w.history) (hnodup : op.tokens.Nodup)
    (h : Serves w id op gone total) (hquiet : moves.filterMap op.signal? = [])
    (hundisturbed : w.Undisturbed behave op id moves)
    (horderly : w.isOrderlyRun behave moves = true) (hreturns : .conclude id .died ∉ moves) :
    Serves (w.run behave moves) id op gone total := by
  induction moves generalizing w with
  | nil => exact h
  | cons move moves ih =>
    obtain ⟨hspared, hothers⟩ := hundisturbed
    obtain ⟨hmove, hmoves⟩ := Bool.and_eq_true_iff.mp horderly
    obtain ⟨hreturn, hlater⟩ := List.ne_and_not_mem_of_not_mem_cons hreturns
    rw [List.filterMap_eq_nil_iff] at hquiet
    have hmoved : Moved w move (w.act behave move) := moved_act howned move
    refine ih (owned_of_moved howned hmoved) (coursing_of_moved hcoursing howned hmoved) ?_ ?_
      hothers hmoves hlater
    · exact serves_act howned hcoursing hnodup h (hquiet move List.mem_cons_self) hspared hmove
        (Ne.symm hreturn)
    · exact List.filterMap_eq_nil_iff.mpr fun m hm => hquiet m (List.mem_cons_of_mem _ hm)

/-! ## Firing -/

/-- An operation that listens, with what it has called and what waits for it. -/
structure Gathers (w : Scene F) (id : OperationId) (op : CallbackOperation F) (gone : List Nat)
    (called : List (Nat × Outcome)) (waiting : List (Nat × Json)) : Prop where
  known : ∃ now, w.session.operations[id]? = some now ∧ now.lanes = op.lanes ∧
    now.stopping = false ∧ now.stage = .listening
  linked : Linked w.session.board op gone
  called : calls (story w.history id) = called
  waiting : ∀ slot < op.lanes.length,
    waitingAt w.session.board op.lanes slot = waitingFor slot waiting

variable {called : List (Nat × Outcome)} {waiting : List (Nat × Json)}

theorem gathers_run {moves : List (Move F)} (howned : Owned w.session.callbacks w.busy)
    (hcoursing : Coursing w.session.callbacks w.history) (hnodup : op.tokens.Nodup)
    (h : Gathers w id op gone called waiting) (hunseen : ∀ move ∈ moves, move.isTurnOf id = false)
    (hundisturbed : w.Undisturbed behave op id moves) :
    Gathers (w.run behave moves) id op (goneAfter gone (moves.filterMap op.signal?)) called
      (waiting ++ received gone (moves.filterMap op.signal?)) := by
  induction moves generalizing w gone waiting with
  | nil =>
    rw [List.filterMap_nil, received, List.append_nil]
    exact h
  | cons move moves ih =>
    obtain ⟨hspared, hothers⟩ := hundisturbed
    obtain ⟨⟨now, hop, hlanes, hstopping, hstage⟩, hlinked, hcalled, hwaiting⟩ := h
    have hrunning : ∀ ending, now.stage ≠ .ended ending := by simp [hstage]
    have hturn := hunseen move List.mem_cons_self
    obtain ⟨hstill, hstory, hlinks, hbrought⟩ := brought_act howned hop hlanes
      (isOpen_of_running hcoursing hop hlanes hrunning) hnodup hlinked hturn
      fun hhost => hspared ⟨now, hop, hrunning⟩ hhost hturn
    have hmoved : Moved w move (w.act behave move) := moved_act howned move
    have hsignals : (move :: moves).filterMap op.signal? =
        (op.signal? move).toList ++ moves.filterMap op.signal? := by
      cases hsignal : op.signal? move <;> simp [hsignal]
    rw [hsignals, goneAfter_append, received_append_burst, ← List.append_assoc]
    refine ih (owned_of_moved howned hmoved) (coursing_of_moved hcoursing howned hmoved)
      ⟨⟨now, hstill, hlanes, hstopping, hstage⟩, hlinks, hstory ▸ hcalled, fun slot hslot => ?_⟩
      (fun m hm => hunseen m (List.mem_cons_of_mem _ hm)) hothers
    rw [hbrought slot hslot, hwaiting slot hslot, waitingFor_append]

theorem Gathers.serves (h : Gathers w id op gone called waiting) :
    Serves w id op gone (called ++ inLine op.lanes (waitingFor · waiting)) := by
  obtain ⟨⟨now, hop, hlanes, hstopping, hstage⟩, hlinked, hcalled, hwaiting⟩ := h
  refine .running ⟨⟨now, hop, hlanes, hstopping, by simp [hstage]⟩, hlinked⟩ ?_
  rw [hcalled]
  exact congrArg (called ++ ·) (inLine_congr hwaiting)

/-! ## From burst to burst -/

/-- Where an operation stands between two bursts. -/
structure Stands (w : Scene F) (id : OperationId) (op : CallbackOperation F) (tally : Tally) :
    Prop where
  called : calls (story w.history id) = tally.calls
  listening : tally.ending = none → Gathers w id op tally.gone tally.calls [] ∧
    ∀ now, w.session.operations[id]? = some now → ∀ slot listener,
      now.listeners[slot]? = some listener → (listener.listening = true ↔ slot ∉ tally.gone)
  finished : ∀ ending, tally.ending = some ending → w.Over id op ending ∧ ending ≠ .aborted

/-- Where an operation that listens sees nothing, nothing waits, and only what is gone is deaf. -/
theorem nothing_waits (hcourse : Course w.session.callbacks w.history id now)
    (hlanes : now.lanes = op.lanes) (hlinked : Linked w.session.board op gone)
    (hsilent : Session.firstSighting w.session.board now.listeners = none) {slot : Nat}
    {listener : Listener F} (hget : now.listeners[slot]? = some listener) :
    waitingAt w.session.board op.lanes slot = [] ∧ (listener.listening = true ↔ slot ∉ gone) := by
  have hmem := List.mem_of_getElem? hget
  have hlane : op.lanes[slot]? = some (listener.slot, listener.opened.endpoint) :=
    hlanes ▸ lanes_getElem?.mpr ⟨listener, hget, rfl⟩
  obtain ⟨own, hown, heq⟩ := lanes_getElem?.mp hlane
  have hsame : listener.opened.endpoint = own.opened.endpoint := congrArg Prod.snd heq
  rw [waitingAt_of_lane _ hlane]
  cases hlistening : listener.listening with
  | true =>
    have hseen := silent_of_firstSighting hsilent listener hmem hlistening
    refine ⟨Board.inbox_of_silent hseen, ⟨fun _ hgone => ?_, fun _ => rfl⟩⟩
    have hlost := hlinked.lost slot hgone own hown
    rw [← hsame, Board.isConnected_of_silent hseen] at hlost
    cases hlost
  | false =>
    obtain ⟨hinbox, hlost⟩ := hcourse.deaf listener hmem hlistening
    refine ⟨hinbox, ⟨fun hnot => (nomatch hnot), fun hkept => ?_⟩⟩
    obtain ⟨e, he, -, hconnected⟩ := Board.find_eq_some (hlinked.kept slot hkept own hown)
    have hlost : Board.isConnected w.session.board listener.opened.endpoint = false := hlost
    rw [hsame] at hlost
    simp [Board.isConnected, he, hconnected] at hlost

/-- What an operation that waits stands at, if it has seen all that there was. -/
theorem Serves.stands (hcoursing : Coursing w.session.callbacks w.history)
    (h : Serves w id op gone total) (hwaits : w.Waits id) :
    Stands w id op ⟨upToOneShot (op.lanes.map (·.1)) total, gone,
      endingAfter op.lanes total gone⟩ := by
  cases h with
  | finished hover hcalls hending =>
    refine ⟨hcalls, fun hnone => ?_, fun ending hsome => ?_⟩
    · rw [hending] at hnone
      cases hnone
    · rw [hending] at hsome
      cases hsome
      refine ⟨hover, ?_⟩
      rcases endingAfter_cases op.lanes total gone with hfired | ⟨-, ⟨hclosed, -⟩ | hnone⟩
      · rw [hending] at hfired
        cases hfired
        exact Ending.noConfusion
      · rw [hending] at hclosed
        cases hclosed
        exact Ending.noConfusion
      · rw [hending] at hnone
        cases hnone
  | running hruns htotal =>
    obtain ⟨⟨now, hop, hlanes, hstopping, hrunning⟩, hlinked⟩ := hruns
    obtain ⟨found, hfound, hwaiting⟩ := hwaits
    rw [hop] at hfound
    cases hfound
    obtain ⟨hstage, hany, hsilent⟩ := hwaiting.resolve_left (not_exists.mpr hrunning)
    have hcourse := hcoursing.courses id now hop
    have hempty : ∀ slot < op.lanes.length, waitingAt w.session.board op.lanes slot = [] := by
      intro slot hslot
      rw [← hlanes, CallbackOperation.lanes, List.length_map] at hslot
      exact (nothing_waits hcourse hlanes hlinked hsilent (List.getElem?_eq_getElem hslot)).1
    rw [inLine_eq_nil hempty, List.append_nil] at htotal
    have hnone := (hcourse.tells.rounds hstage).calls_not_oneShot hlanes
    rw [htotal] at hnone
    obtain ⟨listener, hmem, hlistening⟩ := List.any_eq_true.mp hany
    obtain ⟨slot, hget⟩ := List.mem_iff_getElem?.mp hmem
    have hslot : slot < op.lanes.length := by
      rw [← hlanes, CallbackOperation.lanes, List.length_map]
      exact (List.getElem?_eq_some_iff.mp hget).1
    have hkept := (nothing_waits hcourse hlanes hlinked hsilent hget).2.mp hlistening
    rw [upToOneShot_eq_self hnone, endingAfter_eq_none hnone hslot hkept]
    refine ⟨htotal, fun _ => ⟨⟨⟨now, hop, hlanes, hstopping, hstage⟩, hlinked, htotal, hempty⟩, ?_⟩,
      fun ending hsome => ?_⟩
    · intro other hother slot listener hget
      rw [hop] at hother
      cases hother
      exact (nothing_waits hcourse hlanes hlinked hsilent hget).2
    · cases hsome

theorem undisturbed_append (behave : Behaviour F) (op : CallbackOperation F) (id : OperationId)
    (w : Scene F) (moves later : List (Move F)) : w.Undisturbed behave op id (moves ++ later) ↔
      w.Undisturbed behave op id moves ∧ (w.run behave moves).Undisturbed behave op id later := by
  induction moves generalizing w with
  | nil => exact (iff_of_eq (true_and _)).symm
  | cons move moves ih => exact (and_congr_right fun _ => ih (w.act behave move)).trans and_assoc.symm

theorem over_run (behave : Behaviour F) (howned : Owned w.session.callbacks w.busy)
    {ending : Ending} (h : w.Over id op ending) (moves : List (Move F)) :
    (w.run behave moves).Over id op ending ∧
      story (w.run behave moves).history id = story w.history id := by
  induction moves generalizing w with
  | nil => exact ⟨h, rfl⟩
  | cons move moves ih =>
    obtain ⟨hstill, hstory⟩ := over_act behave howned h move
    obtain ⟨hlast, hsame⟩ := ih (owned_of_moved howned (moved_act howned move)) hstill
    exact ⟨hlast, hsame.trans hstory⟩

/-- One burst that is handled takes an operation where its tally says. -/
theorem Stands.after {tally : Tally} {burst : List Signal} {phase : Phase F}
    (howned : Owned w.session.callbacks w.busy)
    (hcoursing : Coursing w.session.callbacks w.history) (hnodup : op.tokens.Nodup)
    (h : Stands w id op tally) (hhandles : phase.Handles behave op id w burst) :
    Stands (w.run behave phase.moves) id op (tally.after op.lanes burst) := by
  obtain ⟨hfired, hunseen, hquiet, hundisturbed, horderly, hreturns, hwaits⟩ := hhandles
  cases hending : tally.ending with
  | some ending =>
    have hsame : tally.after op.lanes burst = tally := by rw [Tally.after, hending]
    rw [hsame]
    obtain ⟨hover, haborted⟩ := h.finished ending hending
    obtain ⟨hstill, hstory⟩ := over_run behave howned hover phase.moves
    refine ⟨(congrArg calls hstory).trans h.called, fun hnone => ?_, fun other hother => ?_⟩
    · rw [hending] at hnone
      cases hnone
    · rw [hending] at hother
      cases hother
      exact ⟨hstill, haborted⟩
  | none =>
    rw [Tally.after_of_running hending]
    obtain ⟨hfiring, hworking⟩ := (undisturbed_append behave op id w _ _).mp hundisturbed
    have hgathers := gathers_run howned hcoursing hnodup (h.listening hending).1 hunseen hfiring
    rw [hfired, List.nil_append] at hgathers
    obtain ⟨howned', hcoursing'⟩ := owned_coursing_run behave howned hcoursing phase.firing
    have hserves := serves_run howned' hcoursing' hnodup hgathers.serves hquiet hworking horderly
      hreturns
    rw [← run_append] at hserves
    exact hserves.stands (owned_coursing_run behave howned hcoursing phase.moves).2 hwaits

end Scene

end RemoteHost
