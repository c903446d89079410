import RemoteHost.Proofs.ArenaRefinement
import RemoteHost.Proofs.KeyFrames
import RemoteHost.Proofs.PartyMoves
import RemoteHost.Proofs.ReleasedReceivers
import RemoteHost.Proofs.SingleRoundTrips
import RemoteHost.Proofs.UninterruptedRuns

/-!
# Operations that were misused

An operation that fails by misuse sends nothing and takes back what it did: the keys that it drained
are live again, the endpoints that it opened are closed, no operation was started, and no round trip
is counted. It never waits for anything, so that nothing comes in between.
-/

namespace RemoteHost

variable {F : Type}

/-! ## Endpoints that are opened and closed again -/

namespace Board

/-- Whether an endpoint receives what is sent to it: the host has it, and its owner listens. -/
def receives (b : Board) (e : EndpointId) : Bool := b.isOpen e && b.isConnected e

def tokenAt (b : Board) (e : EndpointId) : String := (b[e]?.map (·.token)).getD ""

@[simp] theorem tokenAt_close (b : Board) (i e : EndpointId) :
    (b.close i).tokenAt e = b.tokenAt e := by
  simp only [tokenAt, close, List.getElem?_modify]
  cases b[e]? with
  | none => rfl
  | some endpoint => by_cases h : i = e <;> simp [h]

@[simp] theorem tokenAt_disown (b : Board) (token : String) (e : EndpointId) :
    (b.disown token).tokenAt e = b.tokenAt e := by
  simp only [tokenAt, getElem?_disown]
  cases b[e]? with
  | none => rfl
  | some endpoint => by_cases h : endpoint.token = token <;> simp [h]

theorem tokenAt_openLine_of_lt {b : Board} {e : EndpointId} (h : e < b.length) (token : String) :
    (b.openLine token).2.tokenAt e = b.tokenAt e := by
  simp only [tokenAt, openLine, List.getElem?_append_left h]

theorem tokenAt_openLine (b : Board) (token : String) :
    (b.openLine token).2.tokenAt b.length = token := by
  simp [tokenAt, openLine]

/-- The host keeps the endpoints of other tokens. -/
theorem isConnected_disown_of_ne {b : Board} {token : String} {e : EndpointId}
    (h : b.tokenAt e ≠ token) : (b.disown token).isConnected e = b.isConnected e := by
  simp only [tokenAt] at h
  simp only [isConnected, getElem?_disown]
  cases hb : b[e]? with
  | none => rfl
  | some endpoint =>
    have hne : endpoint.token ≠ token := by simpa [hb] using h
    simp [hne]

theorem isOpen_eq_false {b : Board} {e : EndpointId} (h : b.length ≤ e) : b.isOpen e = false :=
  Bool.eq_false_iff.mpr fun hopen => absurd (lt_length_of_isOpen hopen) (Nat.not_lt.mpr h)

/-- A board after some endpoints were opened on it and some of those were closed: it has the others
of them besides what it had. -/
structure Extended (b : Board) (all held : List Opened) (b' : Board) : Prop where
  length_le : b.length ≤ b'.length
  nodup : (held.map (·.endpoint)).Nodup
  isNew : ∀ opened ∈ held, opened ∈ all ∧ b.length ≤ opened.endpoint ∧
    opened.endpoint < b'.length ∧ b'.tokenAt opened.endpoint = opened.token
  isOpen : ∀ e, b'.isOpen e = (b.isOpen e || decide (e ∈ held.map (·.endpoint)))
  tokenAt : ∀ e, e < b.length → b'.tokenAt e = b.tokenAt e
  isConnected : ∀ e, e < b.length → b'.isConnected e = true → b.isConnected e = true
  /-- Endpoints lose their connection only when their token is given away. -/
  connected : ∀ e, b.receives e = true → (∀ opened ∈ all, opened.token ≠ b.tokenAt e) →
    b'.isConnected e = true

variable {b b' : Board} {all held : List Opened} {new : Opened}

theorem lt_length_of_receives {e : EndpointId} (h : b.receives e = true) : e < b.length :=
  lt_length_of_isOpen (Bool.and_eq_true_iff.mp h).1

theorem Extended.refl (b : Board) (all : List Opened) : Extended b all [] b where
  length_le := Nat.le_refl _
  nodup := List.nodup_nil
  isNew := nofun
  isOpen e := by simp
  tokenAt _ _ := rfl
  isConnected _ _ h := h
  connected _ h _ := (Bool.and_eq_true_iff.mp h).2

theorem Extended.opened (h : Extended b all held b') (hall : new ∈ all)
    (hnew : new.endpoint = b'.length) :
    Extended b all (held ++ [new]) ((b'.disown new.token).openLine new.token).2 where
  length_le := by
    rw [length_openLine, length_disown]
    exact Nat.le_succ_of_le h.length_le
  nodup := by
    rw [List.map_append, List.nodup_append]
    refine ⟨h.nodup, List.nodup_singleton _, fun e he e' he' => ?_⟩
    obtain ⟨opened, hopened, rfl⟩ := List.mem_map.mp he
    obtain rfl : e' = b'.length := (List.mem_singleton.mp he').trans hnew
    exact Nat.ne_of_lt (h.isNew opened hopened).2.2.1
  isNew opened hopened := by
    rw [length_openLine, length_disown]
    rcases List.mem_append.mp hopened with hopened | hopened
    · obtain ⟨hmem, hle, hlt, htoken⟩ := h.isNew opened hopened
      refine ⟨hmem, hle, Nat.lt_succ_of_lt hlt, ?_⟩
      rw [tokenAt_openLine_of_lt (by rwa [length_disown]), tokenAt_disown, htoken]
    · obtain rfl := List.mem_singleton.mp hopened
      rw [hnew]
      refine ⟨hall, h.length_le, Nat.lt_succ_self _, ?_⟩
      rw [← length_disown b' opened.token, tokenAt_openLine]
  isOpen e := by
    rw [isOpen_openLine, isOpen_disown, length_disown, h.isOpen, ← hnew]
    by_cases heq : e = new.endpoint <;> simp [heq]
  tokenAt e he := by
    have hlt : e < (b'.disown new.token).length := by
      rw [length_disown]
      exact Nat.lt_of_lt_of_le he h.length_le
    rw [tokenAt_openLine_of_lt hlt, tokenAt_disown, h.tokenAt e he]
  isConnected e he hconnected := by
    rw [isConnected_openLine, length_disown] at hconnected
    have hne : e ≠ b'.length := Nat.ne_of_lt (Nat.lt_of_lt_of_le he h.length_le)
    rw [beq_eq_false_iff_ne.mpr hne, Bool.or_false] at hconnected
    exact h.isConnected e he (isConnected_of_disown hconnected)
  connected e hreceives hfresh := by
    have htoken : b'.tokenAt e ≠ new.token := by
      rw [h.tokenAt e (lt_length_of_receives hreceives)]
      exact (hfresh new hall).symm
    rw [isConnected_openLine, isConnected_disown_of_ne htoken, h.connected e hreceives hfresh]
    rfl

theorem Extended.closed (h : Extended b all (new :: held) b') : Extended b all held
    ((b'.close new.endpoint).disown (b'.tokenAt new.endpoint)) where
  length_le := by
    rw [length_disown, length_close]
    exact h.length_le
  nodup := (List.nodup_cons.mp h.nodup).2
  isNew opened hopened := by
    rw [length_disown, length_close, tokenAt_disown, tokenAt_close]
    exact h.isNew opened (List.mem_cons_of_mem _ hopened)
  isOpen e := by
    obtain ⟨hmem, hle, -⟩ := h.isNew new List.mem_cons_self
    have hnot := (List.nodup_cons.mp h.nodup).1
    rw [isOpen_disown, isOpen_close, h.isOpen, List.map_cons]
    by_cases heq : new.endpoint = e
    · subst heq
      simp [isOpen_eq_false hle, hnot]
    · simp [heq, Ne.symm heq]
  tokenAt e he := by rw [tokenAt_disown, tokenAt_close, h.tokenAt e he]
  isConnected e he hconnected := by
    have hconnected := isConnected_of_disown hconnected
    rw [isConnected_close] at hconnected
    exact h.isConnected e he hconnected
  connected e hreceives hfresh := by
    obtain ⟨hall, -, -, htoken⟩ := h.isNew new List.mem_cons_self
    have hne : (b'.close new.endpoint).tokenAt e ≠ b'.tokenAt new.endpoint := by
      rw [tokenAt_close, h.tokenAt e (lt_length_of_receives hreceives), htoken]
      exact (hfresh new hall).symm
    rw [isConnected_disown_of_ne hne, isConnected_close]
    exact h.connected e hreceives hfresh

/-- When all that was opened is closed, the open endpoints are those that were open before. -/
theorem Extended.isOpen_eq (h : Extended b all [] b') (e : EndpointId) :
    b'.isOpen e = b.isOpen e := by
  rw [h.isOpen]
  exact Bool.or_false _

theorem Extended.receives_eq (h : Extended b all [] b') {e : EndpointId}
    (hfresh : ∀ opened ∈ all, opened.token ≠ b.tokenAt e) : b'.receives e = b.receives e := by
  rw [receives, receives, h.isOpen_eq]
  cases hopen : b.isOpen e with
  | false => rfl
  | true =>
    have hlt := lt_length_of_isOpen hopen
    rw [Bool.true_and, Bool.true_and, Bool.eq_iff_iff]
    refine ⟨h.isConnected e hlt, fun hconnected => h.connected e ?_ hfresh⟩
    rw [receives, hopen, hconnected]
    rfl

end Board

/-! ## Keys that are drained and taken back -/

namespace Arena

/-- Keys that are drained and taken back at once are live as they were. -/
theorem keys_restore_drain (a : Arena) : (a.drain.2.restore a.drain.1).keys = a.keys := by
  have hdrained : a.drain.2.live = ∅ := (frame_foldl_markReleased _ a.keys).1
  refine (keys_ascending _).eq_of_mem_iff a.keys_ascending fun key => ?_
  have hempty : a.drain.2.contains key = false := by
    rw [contains, hdrained]
    exact Std.TreeSet.contains_emptyc
  have hrestored : (a.drain.2.restore a.drain.1).contains key = true ↔
      key ∈ a.drain.1 ∨ a.drain.2.contains key = true := contains_restore
  rw [hempty, mem_drain, contains_iff, contains_iff] at hrestored
  rw [keys, keys, Std.TreeSet.mem_toList, Std.TreeSet.mem_toList, hrestored]
  simp

end Arena

/-! ## Runs of misused operations -/

namespace Session

/-! ### Turns -/

theorem turns_wakeAt (st : Session F) (e : EndpointId) : (st.wakeAt e).turns = st.turns := by
  unfold wakeAt
  split
  · exact turns_wake st _
  · rfl

theorem turns_disown (st : Session F) (token : String) : (st.disown token).turns = st.turns := by
  have every (es : List EndpointId) (st : Session F) : (es.foldl wakeAt st).turns = st.turns := by
    induction es generalizing st with
    | nil => rfl
    | cons e es ih => exact (ih (st.wakeAt e)).trans (turns_wakeAt st e)
  exact every _ _

theorem turns_openEndpoint (st : Session F) (p : Party) :
    (st.openEndpoint p).2.turns = st.turns := by
  unfold openEndpoint
  cases st.host.nextToken with
  | mk answer host =>
    cases answer with
    | error fault => rfl
    | ok token =>
      have hdisown := turns_disown { st with host } token
      dsimp only
      split <;> exact hdisown

theorem turns_closeEndpoint (st : Session F) (e : EndpointId) :
    (st.closeEndpoint e).turns = st.turns := by
  have hdisown (st : Session F) := turns_disown st
  unfold closeEndpoint
  dsimp only
  split <;> exact hdisown _ _

theorem roundTrips_of_turns {st st' : Session F} (h : st'.turns = st.turns) (lineage : LineageId) :
    st'.roundTrips lineage = st.roundTrips lineage := by
  rw [roundTrips, roundTrips, show st'.lineages = st.lineages from congrArg Prod.snd h]

/-- A new lineage has made no round trip. -/
theorem roundTrips_addLineage (st : Session F) (label : String) (parent : Option LineageId)
    (lineage : LineageId) :
    (st.addLineage label parent).2.roundTrips lineage = st.roundTrips lineage := by
  simp only [roundTrips, addLineage, List.getElem?_append]
  split
  · rfl
  · rename_i hout
    rw [List.getElem?_eq_none (Nat.le_of_not_lt hout)]
    cases lineage - st.lineages.length <;> rfl

/-- Whoever is turned away leaves the lineage as it was. -/
theorem enter_refused {st st' : Session F} {p : Party} {lineage : LineageId}
    {policy : ConflictPolicy} {fault : UsageFault}
    (h : st.enter p lineage policy = (some (.error fault), st')) : st' = st := by
  cases hfound : st.lineages[lineage]? with
  | none =>
    simp only [enter, hfound] at h
    cases h
  | some found =>
    rw [enter_eq st p lineage policy hfound] at h
    split at h
    · cases h
      rfl
    · split at h <;> cases h

/-! ### Exchanges -/

/-- The same but for endpoints and for lineages that have made no round trip. -/
structure Alike (st st' : Session F) : Prop where
  arena : st'.arena = st.arena
  operations : st'.operations = st.operations
  roundTrips : ∀ lineage, st'.roundTrips lineage = st.roundTrips lineage

variable {p : Party} {st st' st'' : Session F}

theorem Alike.refl (st : Session F) : Alike st st := ⟨rfl, rfl, fun _ => rfl⟩

theorem Alike.trans (h : Alike st st') (h' : Alike st' st'') : Alike st st'' where
  arena := h'.arena.trans h.arena
  operations := h'.operations.trans h.operations
  roundTrips lineage := (h'.roundTrips lineage).trans (h.roundTrips lineage)

theorem alike_of_quiet {request : Request F} {reply : request.Reply}
    (h : st.answer p request = (some reply, st')) (hquiet : request.isQuiet reply = true) :
    Alike st st' ∧ st'.board = st.board := by
  cases request with
  | isReleased key =>
    cases h
    exact ⟨.refl _, rfl⟩
  | newLineage label =>
    cases h
    exact ⟨⟨rfl, rfl, roundTrips_addLineage st label none⟩, rfl⟩
  | enter lineage policy =>
    cases reply with
    | ok _ => cases hquiet
    | error fault =>
      obtain rfl := enter_refused h
      exact ⟨.refl _, rfl⟩
  | _ => cases hquiet

theorem Grants.quiet {talk : Talk F} (h : Grants p st talk st') (hquiet : talk.IsQuiet) :
    Alike st st' ∧ st'.board = st.board := by
  induction h with
  | nothing st => exact ⟨.refl st, rfl⟩
  | more hanswer hrest ih =>
    obtain ⟨hfirst, hlater⟩ := List.forall_mem_cons.mp hquiet
    obtain ⟨halike, hboard⟩ := alike_of_quiet hanswer hfirst
    obtain ⟨hrestAlike, hrestBoard⟩ := ih hlater
    exact ⟨halike.trans hrestAlike, hrestBoard.trans hboard⟩

variable {b : Board} {all held : List Opened}

theorem extended_of_opening {opened : Opened}
    (h : st.answer p .openEndpoint = (some (.ok opened), st'))
    (hextended : b.Extended all held st.board) (hall : opened ∈ all) :
    Alike st st' ∧ b.Extended all (held ++ [opened]) st'.board := by
  have hkeys := sameKeys_answer st p .openEndpoint rfl
  have hturns : (st.answer p .openEndpoint).2.turns = st.turns := turns_openEndpoint st p
  obtain ⟨hendpoint, hcallbacks⟩ := answered_of_answer h
  rw [h] at hkeys hturns
  have hboard : st'.board = ((Board.disown st.board opened.token).openLine opened.token).2 :=
    congrArg Callbacks.board hcallbacks
  rw [hboard]
  exact ⟨⟨hkeys.arena, congrArg Callbacks.operations hcallbacks, roundTrips_of_turns hturns⟩,
    hextended.opened hall hendpoint⟩

theorem extended_of_closing {opened : Opened} {reply : Unit}
    (h : st.answer p (.closeEndpoint opened.endpoint) = (some reply, st'))
    (hextended : b.Extended all (opened :: held) st.board) :
    Alike st st' ∧ b.Extended all held st'.board := by
  obtain rfl : st.closeEndpoint opened.endpoint = st' := congrArg Prod.snd h
  have hholdings := holdings_closeEndpoint st opened.endpoint
  have hcallbacks := callbacks_of_holdings hholdings
  have hboard : (st.closeEndpoint opened.endpoint).board =
      (Board.close st.board opened.endpoint).disown (st.tokenOf opened.endpoint) :=
    congrArg Callbacks.board hcallbacks
  rw [hboard]
  exact ⟨⟨congrArg Holdings.arena hholdings, congrArg Callbacks.operations hcallbacks,
    roundTrips_of_turns (turns_closeEndpoint st opened.endpoint)⟩, hextended.closed⟩

theorem Grants.openings {opened : List Opened} (h : Grants p st (opened.map Talk.opening) st')
    (hextended : b.Extended all held st.board) (hall : ∀ new ∈ opened, new ∈ all) :
    Alike st st' ∧ b.Extended all (held ++ opened) st'.board := by
  induction opened generalizing st held with
  | nil =>
    cases h
    rw [List.append_nil]
    exact ⟨.refl _, hextended⟩
  | cons new opened ih =>
    cases h with
    | more hanswer hrest =>
      obtain ⟨hnew, hlater⟩ := List.forall_mem_cons.mp hall
      obtain ⟨halike, hmore⟩ := extended_of_opening hanswer hextended hnew
      obtain ⟨hrestAlike, hrestExtended⟩ := ih hrest hmore hlater
      rw [List.append_assoc] at hrestExtended
      exact ⟨halike.trans hrestAlike, hrestExtended⟩

theorem Grants.closings {opened : List Opened} (h : Grants p st (opened.map Talk.closing) st')
    (hextended : b.Extended all opened st.board) :
    Alike st st' ∧ b.Extended all [] st'.board := by
  induction opened generalizing st with
  | nil =>
    cases h
    exact ⟨.refl _, hextended⟩
  | cons first opened ih =>
    cases h with
    | more hanswer hrest =>
      obtain ⟨halike, hfewer⟩ := extended_of_closing hanswer hextended
      obtain ⟨hrestAlike, hrestExtended⟩ := ih hrest hfewer
      exact ⟨halike.trans hrestAlike, hrestExtended⟩

/-! ### Whole runs -/

theorem mem_opened_openings {opened : List Opened} {new : Opened} (h : new ∈ opened)
    (later : Talk F) : new ∈ Talk.opened (opened.map Talk.opening ++ later) :=
  List.mem_flatMap.mpr ⟨Talk.opening new, List.mem_append_left _ (List.mem_map_of_mem h),
    List.mem_singleton_self new⟩

/-- What a misused operation leaves as it was: the live keys, the open endpoints, the operations
that supervision knows, and the round trips of every lineage. An endpoint receives as it did unless
the host gave its token away to one that the operation opened. -/
structure Unchanged (st : Session F) (talk : Talk F) (st' : Session F) : Prop where
  keys : st'.arena.keys = st.arena.keys
  isOpen : ∀ e, st'.board.isOpen e = st.board.isOpen e
  receives : ∀ e, (∀ opened ∈ talk.opened, opened.token ≠ st.tokenOf e) →
    Board.receives st'.board e = Board.receives st.board e
  pending : st'.pending = st.pending
  roundTrips : ∀ lineage, st'.roundTrips lineage = st.roundTrips lineage

theorem Grants.undone {talk : Talk F} (h : Grants p st talk st') (hundone : talk.Undone) :
    Unchanged st talk st' := by
  cases hundone with
  | nothing hquiet =>
    obtain ⟨halike, hboard⟩ := h.quiet hquiet
    exact {
      keys := by rw [halike.arena]
      isOpen := fun e => by rw [hboard]
      receives := fun e _ => by rw [hboard]
      pending := by rw [pending, pending, halike.operations]
      roundTrips := halike.roundTrips }
  | @restored talk keys hquiet =>
    obtain ⟨restoring, hbefore, hrestore⟩ := h.split
    obtain ⟨drained, hdrain, hbetween⟩ := hbefore.split
    obtain ⟨halike, hboard⟩ := hbetween.quiet hquiet
    cases hdrain.single
    cases hrestore.single
    exact {
      keys := by
        dsimp only
        rw [halike.arena]
        exact Arena.keys_restore_drain st.arena
      isOpen := fun e => by
        dsimp only
        rw [hboard]
      receives := fun e _ => by
        dsimp only
        rw [hboard]
      pending := by
        rw [pending, pending]
        dsimp only
        rw [halike.operations]
      roundTrips := halike.roundTrips }
  | @closed talk opened hquiet =>
    obtain ⟨closing, hbefore, hclose⟩ := h.split
    obtain ⟨waiting, hopen, hbetween⟩ := hbefore.split
    obtain ⟨hopened, hextended⟩ := hopen.openings (.refl st.board opened) fun _ h => h
    obtain ⟨halike, hboard⟩ := hbetween.quiet hquiet
    rw [List.nil_append, ← hboard] at hextended
    obtain ⟨hclosed, hback⟩ := hclose.closings hextended
    have hall := (hopened.trans halike).trans hclosed
    exact {
      keys := by rw [hall.arena]
      isOpen := hback.isOpen_eq
      receives := fun e hfresh => hback.receives_eq fun new hnew => hfresh new (by
        rw [List.append_assoc]
        exact mem_opened_openings hnew _)
      pending := by rw [pending, pending, hall.operations]
      roundTrips := hall.roundTrips }

/-- What was undone was not waited for. -/
theorem mayWait_of_undone {talk : Talk F} (h : talk.Undone) (hcandid : IsCandid talk) :
    ∀ exchange ∈ talk, exchange.1.mayWait = false := by
  intro ⟨request, reply⟩ hmem
  have hsort := h.isQuiet_or hmem
  cases request with
  | enter lineage policy =>
    cases policy with
    | reject => rfl
    | queue =>
      cases reply with
      | ok _ => exact hsort.elim nofun nofun
      | error fault => exact absurd hmem (hcandid lineage fault)
  | submit | collect => exact hsort.elim nofun nofun
  | _ => rfl

end Session

/-! ## All operations -/

namespace SessionOperation

/-- An operation hands over one program at most, whatever it is answered. It hands over none exactly
when there is an excuse for that or the operation is misused. Whoever misuses it finds that all it
did is undone, and finds the session as it was if nothing came in between; and in a session that
performs it nothing does. -/
theorem one_program_at_most (s : Settings) (operation : SessionOperation F) :
    (∀ talk rest, (operation.job s).run.Leads talk rest → talk.programs.length ≤ 1) ∧
    (∀ talk result, (operation.job s).run.Leads talk (.done result) →
      (talk.programs = [] ↔ operation.Excuses s talk ∨ operation.IsMisused talk result)) ∧
    (∀ talk result, (operation.job s).run.Leads talk (.done result) →
      operation.IsMisused talk result → talk.Undone ∧
        ∀ (p : Party) (st st' : Session F), st.Grants p talk st' → st.Unchanged talk st') ∧
    (∀ (behave : Behaviour F) (p : Party) (st st' : Session F)
      (result : Except Fault operation.Result),
      st.perform behave p (operation.job s).run = (.done result, st') →
      ∃ talk, (operation.job s).run.Leads talk (.done result) ∧
        (operation.IsMisused talk result → st.Grants p talk st' ∧ st.Unchanged talk st')) := by
  refine ⟨?_, ?_, ?_, ?_⟩
  · exact fun talk rest hleads => (isFrugal hleads).length_le
  · exact fun talk result hleads => programs_eq_nil_iff hleads
  · intro talk result hleads hmisused
    have hundone := undone_of_isMisused hleads hmisused
    exact ⟨hundone, fun p st st' hgrants => hgrants.undone hundone⟩
  · intro behave p st st' result hperform
    obtain ⟨talk, hran⟩ := Session.ran_perform behave hperform
    refine ⟨talk, hran.leads, fun hmisused => ?_⟩
    have hundone := undone_of_isMisused hran.leads hmisused
    have hgrants := hran.grants (Session.mayWait_of_undone hundone hran.candid)
    exact ⟨hgrants, hgrants.undone hundone⟩

end SessionOperation

/-! ## A contested turn -/

/-- A session with a live key in which the turn is somebody else's. -/
def contested : Session Unit :=
  { settings := { stepConflict := .reject }
    host := .replaying {}
    arena := (Arena.empty Arena.defaultLimit).record "w1"
    lineages := [{ label := "step", gate := { holder := some (.guest 0) } }] }

/-- The key is drained before the turn is refused. -/
def drainedInVain : Talk Unit :=
  [Talk.draining ["w1"], ⟨.enter 0 .reject, .error (.stepConflict "step")⟩,
    Talk.restoring ["w1"]]

theorem contested_release_is_undone : drainedInVain.programs = [] ∧
    ∃ st', contested.Grants .foreground drainedInVain st' ∧
      contested.Unchanged drainedInVain st' ∧ st'.arena.keys = ["w1"] := by
  let operation : SessionOperation Unit := .release 0
  have hleads : (operation.job contested.settings).run.Leads drainedInVain
      (.done (.error (.usage (.stepConflict "step")))) :=
    .ask _ (.ask _ (.ask _ (.here _)))
  have hmisused : operation.IsMisused drainedInVain
      (.error (.usage (.stepConflict "step"))) := ⟨_, rfl, id⟩
  have hgrants : contested.Grants .foreground drainedInVain _ :=
    .more rfl (.more rfl (.more rfl (.nothing _)))
  obtain ⟨-, hnone, hundone, -⟩ :=
    SessionOperation.one_program_at_most contested.settings operation
  have hunchanged := (hundone _ _ hleads hmisused).2 _ _ _ hgrants
  refine ⟨(hnone _ _ hleads).mpr (.inr hmisused), _, hgrants, hunchanged, ?_⟩
  exact hunchanged.keys.trans rfl

end RemoteHost
