import RemoteHost.Proofs.ArenaRefinement
import RemoteHost.Proofs.KeyFrames
import RemoteHost.Proofs.RoutineDiscipline

/-!
# Releases that are undone

A release that fails puts back what it drained. The drained keys are live again and none of them is
remembered as released. While they were drained they took up room in the memory of released keys,
so the keys that were released first may have been forgotten meanwhile, and stay forgotten.
-/

namespace RemoteHost

variable {F α : Type}

theorem rtake_append {α : Type} (xs ys : List α) (n : Nat) :
    (xs ++ ys).rtake n = xs.rtake (n - ys.length) ++ ys.rtake n := by
  simp only [List.rtake_eq_reverse_take_reverse, List.reverse_append, List.take_append,
    List.length_reverse]

theorem length_rtake {α : Type} (xs : List α) (n : Nat) :
    (xs.rtake n).length = min xs.length n := by
  rw [List.rtake, List.length_drop]
  omega

/-! ## Shelves -/

namespace Shelf

theorem foldl_moveToEnd {keys : List String} (released : List String) (hnodup : keys.Nodup)
    (hfresh : ∀ key ∈ keys, key ∉ released) :
    keys.foldl moveToEnd released = released ++ keys := by
  induction keys generalizing released with
  | nil => exact (List.append_nil released).symm
  | cons key keys ih =>
    obtain ⟨hnot, hrest⟩ := List.nodup_cons.1 hnodup
    rw [List.foldl_cons, moveToEnd_of_not_mem (hfresh key List.mem_cons_self)]
    rw [ih _ hrest, List.append_assoc, List.singleton_append]
    intro other hother hin
    rcases List.mem_append.1 hin with hin | hin
    · exact hfresh other (List.mem_cons_of_mem _ hother) hin
    · exact hnot (List.mem_singleton.1 hin ▸ hother)

theorem live_restore (shelf : Shelf) (keys : List String) :
    (shelf.restore keys).live = keys.toFinset ∪ shelf.live := by
  induction keys generalizing shelf with
  | nil => simp [restore]
  | cons key keys ih =>
    change ((shelf.record key).restore keys).live = _
    rw [ih, List.toFinset_cons, record, Finset.union_insert, Finset.insert_union]

theorem released_restore (shelf : Shelf) (keys : List String) :
    (shelf.restore keys).released = shelf.released.filter (· ∉ keys) := by
  induction keys generalizing shelf with
  | nil => simp [restore]
  | cons key keys ih =>
    change ((shelf.record key).restore keys).released = _
    rw [ih, record, List.filter_filter]
    apply List.filter_congr
    intro other _
    simp only [List.mem_cons, not_or, Bool.decide_and, Bool.and_comm]

/-- What is drained and restored is live as before. Of the released keys as many are left, the ones
released last, as the limit allows beside the drained ones. -/
theorem restore_drain {limit : Nat} {shelf : Shelf}
    (hapart : ∀ key ∈ shelf.live, key ∉ shelf.released) :
    (shelf.drain limit).2.restore (shelf.drain limit).1 =
      { shelf with released := shelf.released.rtake (limit - shelf.live.card) } := by
  have hnodup : shelf.live.sort.Nodup := Finset.sort_nodup _ _
  have hfresh : ∀ key ∈ shelf.live.sort, key ∉ shelf.released := by
    intro key hkey
    exact hapart key ((Finset.mem_sort _).1 hkey)
  have hdrained : (shelf.drain limit).2.released =
      shelf.released.rtake (limit - shelf.live.card) ++ shelf.live.sort.rtake limit := by
    change (shelf.live.sort.foldl moveToEnd shelf.released).rtake limit = _
    rw [foldl_moveToEnd _ hnodup hfresh, rtake_append, Finset.length_sort]
  have hlive : ((shelf.drain limit).2.restore (shelf.drain limit).1).live = shelf.live := by
    rw [live_restore]
    simp [drain]
  have hreleased : ((shelf.drain limit).2.restore (shelf.drain limit).1).released =
      shelf.released.rtake (limit - shelf.live.card) := by
    rw [released_restore, hdrained, List.filter_append]
    -- None of the keys released before is among the drained ones, and all others are.
    have hkept : (shelf.released.rtake (limit - shelf.live.card)).filter
        (· ∉ (shelf.drain limit).1) = shelf.released.rtake (limit - shelf.live.card) := by
      apply List.filter_eq_self.2
      intro key hkey
      apply decide_eq_true
      intro hin
      exact hfresh key hin (rtake_subset _ _ hkey)
    have hgone : (shelf.live.sort.rtake limit).filter (· ∉ (shelf.drain limit).1) = [] := by
      apply List.filter_eq_nil_iff.2
      intro key hkey hnot
      exact of_decide_eq_true hnot (rtake_subset _ _ hkey)
    rw [hkept, hgone, List.append_nil]
  calc (shelf.drain limit).2.restore (shelf.drain limit).1
      = ⟨((shelf.drain limit).2.restore (shelf.drain limit).1).live,
          ((shelf.drain limit).2.restore (shelf.drain limit).1).released⟩ := rfl
    _ = ⟨shelf.live, shelf.released.rtake (limit - shelf.live.card)⟩ := by rw [hlive, hreleased]

end Shelf

/-! ## Arenas -/

namespace Arena

/-- The released keys that are remembered, the one that was released first at the front. -/
def remembered (a : Arena) : List String := a.order.toList.map Prod.snd

theorem Logs.toList_order {a : Arena} {log : List (Nat × String)} (h : a.Logs log) :
    a.order.toList = log := by
  have hordered : a.order.toList.Pairwise (·.1 < ·.1) :=
    Std.TreeMap.ordered_keys_toList.imp fun hlt => compare_lt_iff_lt.1 hlt
  have : Std.Asymm fun x y : Nat × String => x.1 < y.1 := ⟨fun _ _ => Nat.lt_asymm⟩
  apply hordered.eq_of_mem_iff h.ascending
  rintro ⟨number, key⟩
  rw [Std.TreeMap.mem_toList_iff_getElem?_eq_some, h.byNumber]

theorem StandsFor.remembered {limit : Nat} {a : Arena} {shelf : Shelf}
    (h : StandsFor limit a shelf) : a.remembered = shelf.released := by
  obtain ⟨log, hlog, hreleased⟩ := h.logged
  rw [Arena.remembered, hlog.toList_order, hreleased]

/-- An arena after a drain that was undone. -/
def undone (a : Arena) : Arena := a.drain.2.restore a.drain.1

section

variable {limit : Nat} {a : Arena} {shelf : Shelf} {key : String}

theorem StandsFor.undone (h : StandsFor limit a shelf) :
    StandsFor limit a.undone
      { shelf with released := shelf.released.rtake (limit - shelf.live.card) } := by
  rw [Arena.undone, ← Shelf.restore_drain h.apart, h.drained]
  exact h.drain.restore _

theorem StandsFor.isReleased_iff_remembered (h : StandsFor limit a shelf) :
    a.isReleased key = true ↔ key ∈ a.remembered := by
  rw [h.remembered]
  exact h.isReleased

theorem StandsFor.isReleased_undone (h : StandsFor limit a shelf) :
    a.undone.isReleased key = true ↔ key ∈ a.remembered.rtake (limit - a.size) := by
  rw [h.remembered, h.size]
  exact h.undone.isReleased

theorem StandsFor.releasedSize_undone (h : StandsFor limit a shelf) :
    a.undone.releasedSize = min a.releasedSize (limit - a.size) := by
  rw [h.undone.releasedSize, h.releasedSize, h.size]
  exact length_rtake _ _

theorem StandsFor.keys_undone (h : StandsFor limit a shelf) : a.undone.keys = a.keys :=
  h.undone.keys.trans h.keys.symm

theorem StandsFor.size_undone (h : StandsFor limit a shelf) : a.undone.size = a.size :=
  h.undone.size.trans h.size.symm

theorem StandsFor.isEmpty_undone (h : StandsFor limit a shelf) :
    a.undone.isEmpty = a.isEmpty := by
  apply Bool.eq_iff_iff.2
  exact h.undone.isEmpty.trans h.isEmpty.symm

theorem StandsFor.contains_undone (h : StandsFor limit a shelf) :
    a.undone.contains key = a.contains key := by
  apply Bool.eq_iff_iff.2
  exact h.undone.contains.trans h.contains.symm

/-- Nothing is forgotten if there is room for the live keys beside the released ones. -/
theorem StandsFor.answers_undone (h : StandsFor limit a shelf) :
    (∀ key, a.undone.isReleased key = a.isReleased key) ∧
        a.undone.releasedSize = a.releasedSize ↔
      a.releasedSize + a.size ≤ limit ∨ a.releasedSize = 0 := by
  have hsize := h.releasedSize_undone
  have hwithin : a.releasedSize ≤ limit := h.releasedSize.trans_le h.within
  constructor
  · rintro ⟨-, hsame⟩
    omega
  · intro hroom
    have hall : a.remembered.rtake (limit - a.size) = a.remembered := by
      apply rtake_of_length_le
      rw [h.remembered, ← h.releasedSize]
      omega
    constructor
    · intro key
      apply Bool.eq_iff_iff.2
      rw [h.isReleased_undone, hall, h.isReleased_iff_remembered]
    · omega

end

end Arena

/-! ## Releases -/

/-- Rules for parties that leave all keys alone. -/
def keyless : Discipline F Unit where
  allows _ request := request.isAboutKeys = false
  expects _ _ _ := True
  after _ _ _ := ()

theorem keyless_ignoresTurns : (keyless (F := F)).IgnoresTurns () where
  enter _ _ := ⟨rfl, fun _ => rfl⟩
  submit _ := ⟨rfl, fun _ => rfl⟩
  collect := ⟨rfl, fun _ => rfl⟩
  complete _ := ⟨rfl, fun _ => rfl⟩

/-- Whoever asks for a value is given no keys. -/
theorem received_of_value {reply : Json} {outcome : Outcome}
    (h : outcomeOfShape .value reply = .ok outcome) : ResultShape.value.received outcome = [] := by
  cases outcome with
  | handle key =>
    unfold outcomeOfShape at h
    split at h
    · cases h
    · rename_i found _
      cases found <;> cases h
  | value v => simp [ResultShape.received]
  | absent => rfl

theorem keyless_evaluateAs (s : Settings) (expression : String) (lineage : LineageId)
    (read : Json → Except Fault α) : (keyless (F := F)).Obeys (fun _ _ => True) ()
      (evaluateAs s expression .value lineage read : Job F α).run := by
  apply Discipline.Obeys.andThen (Q := fun _ _ => True)
  · apply (keyless_ignoresTurns.roundTrip s _ lineage).andThen
    · rintro _ reply rfl
      cases houtcome : outcomeOfShape .value reply with
      | error fault => trivial
      | ok outcome =>
        dsimp only
        rw [received_of_value houtcome]
        trivial
    · exact fun _ _ _ => trivial
  · intro _ outcome _
    cases outcome <;> trivial
  · exact fun _ _ _ => trivial

/-- The end of a release. If it failed, it puts the keys back. -/
def released (keys : List String) : Except Fault Nat → Routine F (Except Fault Nat)
  | .ok count => .done (.ok count)
  | .error fault => .ask (.restore keys) fun _ => .done (.error fault)

/-- What is left to do for a release that has drained its keys. -/
def releasing (s : Settings) (lineage : LineageId) (keys : List String) :
    Routine F (Except Fault Nat) :=
  if keys.isEmpty then .done (.ok 0) else
  (evaluateAs s (Program.releaseExpression s keys) .value lineage readReleaseCount).run.bind
    (released keys)

theorem run_releaseHandles (s : Settings) (lineage : LineageId) :
    (releaseHandles s lineage : Job F Nat).run = .ask .drain (releasing s lineage) := by
  apply congrArg (Routine.ask .drain)
  funext keys
  change ExceptT.run (ite (keys.isEmpty = true) _ _) = _
  unfold releasing
  split
  · rfl
  · apply congrArg (Routine.bind _)
    funext result
    cases result <;> rfl

/-- How many handles the host dropped, by its reply to a release. -/
def releasedCount : Except TransportFault Json → Except Fault Nat
  | .error fault => .error (.transport fault)
  | .ok reply =>
    match outcomeOfShape .value reply with
    | .error fault => .error fault
    | .ok (.value v) => readReleaseCount v
    | .ok .absent => readReleaseCount .null
    | .ok (.handle _) => .error (.transport (.unexpectedKind .value .handle))

/-- A release that has drained keys makes one round trip, if it is not refused its turn. -/
theorem releasing_eq (s : Settings) (lineage : LineageId) {keys : List String} (hkeys : keys ≠ []) :
    (releasing s lineage keys : Routine F (Except Fault Nat)) =
      .ask (.enter lineage s.stepConflict) fun
        | .error fault => released keys (.error (.usage fault))
        | .ok _ =>
          .ask (.submit (Program.enveloped s (Program.releaseExpression s keys) .value)) fun _ =>
          .ask .collect fun reply =>
          .ask (.complete lineage) fun _ => released keys (releasedCount reply) := by
  have hsome : ¬keys.isEmpty = true := by simpa using hkeys
  unfold releasing
  rw [if_neg hsome]
  unfold evaluateAs evaluate
  apply congrArg (Routine.ask _)
  funext entered
  cases entered with
  | error fault => rfl
  | ok =>
    apply congrArg (Routine.ask _)
    funext _
    apply congrArg (Routine.ask _)
    funext reply
    apply congrArg (Routine.ask _)
    funext _
    cases reply with
    | error fault => rfl
    | ok reply =>
      unfold releasedCount
      change Routine.bind (Routine.bind (ExceptT.bindCont _ (Except.ok reply)) _) _ = _
      dsimp only [ExceptT.bindCont]
      cases houtcome : outcomeOfShape .value reply with
      | error fault => rfl
      | ok outcome =>
        dsimp only
        rw [received_of_value houtcome]
        cases outcome <;> rfl

namespace Session

variable {p : Party}

theorem sameKeys_advance {post : Unit → α → Prop} {routine : Routine F α}
    (h : keyless.Obeys post () routine) (st : Session F) :
    SameKeys st (advance p routine st).2 := by
  induction routine generalizing st with
  | done a => exact .refl st
  | ask request next ih =>
    have hsame := st.sameKeys_answer p request h.1
    rw [advance]
    split
    · rename_i reply middle hanswer
      rw [hanswer] at hsame
      exact hsame.trans (ih reply (h.2 reply trivial) middle)
    · rename_i middle hanswer
      rw [hanswer] at hsame
      exact hsame

theorem advance_bind {β : Type} (m : Routine F α) (f : α → Routine F β) (st : Session F) :
    advance p (m.bind f) st =
      match advance p m st with
      | (.done a, st') => advance p (f a) st'
      | (.ask request next, st') => (.ask request fun reply => (next reply).bind f, st') := by
  induction m generalizing st with
  | done a => rfl
  | ask request next ih =>
    simp only [Routine.bind, advance]
    split
    · rename_i reply middle _
      exact ih reply middle
    · rfl

/-- A release that fails leaves the arena as draining and restoring it does. -/
theorem arena_of_failed_release {st st' : Session F} {s : Settings} {lineage : LineageId}
    {fault : Fault}
    (h : advance p (releaseHandles s lineage).run st = (.done (.error fault), st')) :
    st'.arena = st.arena.undone := by
  rw [run_releaseHandles] at h
  change advance p (releasing s lineage st.arena.drain.1)
    { st with arena := st.arena.drain.2 } = _ at h
  generalize hdrained : { st with arena := st.arena.drain.2 } = drained at h
  unfold releasing at h
  split at h
  · cases h
  · have hsame := sameKeys_advance (p := p) (keyless_evaluateAs s
      (Program.releaseExpression s st.arena.drain.1) lineage readReleaseCount) drained
    rw [advance_bind] at h
    split at h
    · rename_i result middle hasked
      rw [hasked] at hsame
      cases result with
      | ok count => cases h
      | error fault' =>
        cases h
        calc middle.arena.restore st.arena.drain.1
            = drained.arena.restore st.arena.drain.1 := by rw [hsame.arena]
          _ = st.arena.undone := by rw [← hdrained]; rfl
    · cases h

end Session

/-- Whatever an arena has gone through, a drain that is undone leaves the same keys live. Of the
released keys it leaves those that were released last, as many as the limit allows beside the live
ones. So all answers are as before if the live and the released keys are within the limit together,
and only then, unless no released key was remembered at all. A release that fails with nothing else
going on leaves the arena just so. -/
theorem undone_drain_forgets_oldest (limit : Nat) (steps : List ArenaStep) :
    let a := (ArenaStep.run Arena.take steps (.empty limit)).2
    let b := a.drain.2.restore a.drain.1
    (b.keys = a.keys ∧ b.size = a.size ∧ b.isEmpty = a.isEmpty ∧
      ∀ key, b.contains key = a.contains key) ∧
    (∀ key, a.isReleased key = true ↔ key ∈ a.remembered) ∧
    (∀ key, b.isReleased key = true ↔ key ∈ a.remembered.rtake (limit - a.size)) ∧
    b.releasedSize = min a.releasedSize (limit - a.size) ∧
    ((∀ key, b.isReleased key = a.isReleased key) ∧ b.releasedSize = a.releasedSize ↔
      a.releasedSize + a.size ≤ limit ∨ a.releasedSize = 0) ∧
    ∀ (st st' : Session F) (p : Party) (s : Settings) (lineage : LineageId) (fault : Fault),
      st.arena = a →
      Session.advance p (releaseHandles s lineage).run st = (.done (.error fault), st') →
      st'.arena = b := by
  obtain ⟨-, h⟩ := (Arena.StandsFor.empty limit).run steps
  refine ⟨⟨h.keys_undone, h.size_undone, h.isEmpty_undone, fun _ => h.contains_undone⟩,
    fun _ => h.isReleased_iff_remembered, fun _ => h.isReleased_undone, h.releasedSize_undone,
    h.answers_undone, ?failed⟩
  case failed =>
    intro st st' p s lineage fault harena hfailed
    rw [Session.arena_of_failed_release hfailed, harena]
    rfl

/-- One key is released and remembered, which is all that the limit allows, and another is live. -/
def fullMemory : List ArenaStep := [.record "old", .drain, .record "new"]

/-- To drain and restore the one live key has the arena forget the other one for good. -/
theorem undone_drain_forgets_old :
    let a := (ArenaStep.run Arena.take fullMemory (.empty 1)).2
    let b := a.drain.2.restore a.drain.1
    a.isReleased "old" = true ∧ b.isReleased "old" = false ∧ a.releasedSize = 1 ∧
      b.releasedSize = 0 := by
  obtain ⟨-, h⟩ := (Arena.StandsFor.empty 1).run fullMemory
  refine ⟨by decide +kernel, ?_, by decide +kernel, ?_⟩
  · apply Bool.eq_false_iff.2
    intro hold
    exact absurd (h.isReleased_undone.1 hold) (by decide +kernel)
  · exact h.releasedSize_undone.trans (by decide +kernel)

def fullMemorySession : Session Unit where
  settings := {}
  host := .replaying {}
  arena := (ArenaStep.run Arena.take fullMemory (.empty 1)).2

/-- The host does not answer and the release fails. The key that it drained is live again. -/
theorem failed_release_in_full_memory :
    ∃ fault after,
      Session.advance .foreground (releaseHandles {} 0).run fullMemorySession =
        (.done (.error fault), after) ∧
      after.arena.keys = ["new"] ∧ after.arena.releasedSize = 0 := by
  obtain ⟨⟨hkeys, -⟩, -, -, hsize, -, hfailed⟩ :=
    undone_drain_forgets_oldest (F := Unit) 1 fullMemory
  refine ⟨_, _, rfl, ?_⟩
  rw [hfailed fullMemorySession _ .foreground {} 0 _ rfl rfl]
  constructor
  · exact hkeys.trans (by decide +kernel)
  · exact hsize.trans (by decide +kernel)

end RemoteHost
