import RemoteHost.Proofs.AllOrNothing
import RemoteHost.Proofs.KeyHistories
import RemoteHost.Proofs.UndoneReleases

/-!
# Releases that are abandoned

A release drains the live keys before it does anything else, and puts them back only when it fails.
Whoever abandons it in between, while it waits for its turn say, has neither the host drop the keys
nor the arena take them back. What would have become of the keys without the release is what all the
others did to them.
-/

namespace RemoteHost

variable {F : Type}

/-! ## What a release asks for -/

section Release

variable {s : Settings} {lineage : LineageId} {keys : List String} {talk : Talk F}
  {rest : Routine F (Except Fault Nat)}

/-- What a release asks for before it hands its program over. -/
inductive UnsentRelease (lineage : LineageId) : Talk F → Prop where
  | untouched : UnsentRelease lineage []
  | drained (keys : List String) : UnsentRelease lineage [⟨.drain, keys⟩]
  | entering {keys : List String} (hkeys : keys ≠ []) (policy : ConflictPolicy)
      (reply : Except UsageFault Unit) :
      UnsentRelease lineage [⟨.drain, keys⟩, ⟨.enter lineage policy, reply⟩]
  | restored {keys : List String} (hkeys : keys ≠ []) (policy : ConflictPolicy)
      (fault : UsageFault) : UnsentRelease lineage
        [⟨.drain, keys⟩, ⟨.enter lineage policy, .error fault⟩, ⟨.restore keys, ()⟩]

theorem unsentRelease_of_leads (hleads : (releaseHandles s lineage).run.Leads talk rest)
    (hunsent : ∀ program, ⟨.submit program, ()⟩ ∉ talk) : UnsentRelease lineage talk := by
  rw [run_releaseHandles] at hleads
  cases hleads with
  | here => exact .untouched
  | @ask _ _ talk _ keys hleads =>
    by_cases hkeys : keys = []
    · subst hkeys
      cases hleads
      exact .drained []
    · rw [releasing_eq s lineage hkeys] at hleads
      cases hleads with
      | here => exact .drained keys
      | ask reply hleads =>
        cases reply with
        | ok =>
          cases hleads with
          | here => exact .entering hkeys _ _
          | ask =>
            apply absurd _ (hunsent (releaseProgram s keys))
            exact List.mem_cons_of_mem _ (List.mem_cons_of_mem _ List.mem_cons_self)
        | error fault =>
          cases hleads with
          | here => exact .entering hkeys _ _
          | ask _ hleads =>
            cases hleads
            exact .restored hkeys _ fault

theorem UnsentRelease.drains_first {first last : Talk F}
    (h : UnsentRelease lineage (first ++ ⟨.drain, keys⟩ :: last)) : first = [] := by
  cases first with
  | nil => rfl
  | cons e first =>
    generalize htalk : e :: first ++ ⟨.drain, keys⟩ :: last = talk at h
    have hlater : (⟨.drain, keys⟩ : (r : Request F) × r.Reply) ∈ talk.tail := by
      rw [← htalk]
      simp
    cases h with
    | untouched | drained => cases hlater
    | entering => cases List.mem_singleton.1 hlater
    | restored =>
      rcases List.mem_cons.1 hlater with heq | hlast
      · cases heq
      · cases List.mem_singleton.1 hlast

theorem UnsentRelease.drained_nothing {last : Talk F}
    (h : UnsentRelease lineage (⟨.drain, ([] : List String)⟩ :: last)) : last = [] := by
  cases h with
  | drained => rfl
  | entering hkeys => exact absurd rfl hkeys
  | restored hkeys => exact absurd rfl hkeys

theorem UnsentRelease.begins {e : (r : Request F) × r.Reply}
    (h : UnsentRelease lineage (e :: talk)) : ∃ keys, e = ⟨.drain, keys⟩ := by
  cases h <;> exact ⟨_, rfl⟩

/-- Only a release that was refused its turn puts keys back. -/
theorem UnsentRelease.refused {keys' : List String} (h : UnsentRelease lineage talk)
    (hrestored : ⟨.restore keys', ()⟩ ∈ talk) :
    ∃ policy fault, ⟨.enter lineage policy, .error fault⟩ ∈ talk := by
  cases h with
  | untouched => cases hrestored
  | drained => cases List.mem_singleton.1 hrestored
  | entering =>
    rcases List.mem_cons.1 hrestored with heq | hlast
    · cases heq
    · cases List.mem_singleton.1 hlast
  | restored _ policy fault => exact ⟨policy, fault, List.mem_cons_of_mem _ List.mem_cons_self⟩

end Release

/-! ## Arenas -/

namespace Arena

/-- Two arenas that answer everything alike. -/
structure Agrees (a b : Arena) : Prop where
  keys : a.keys = b.keys
  size : a.size = b.size
  isEmpty : a.isEmpty = b.isEmpty
  contains : ∀ key, a.contains key = b.contains key
  isReleased : ∀ key, a.isReleased key = b.isReleased key
  releasedSize : a.releasedSize = b.releasedSize

variable {limit : Nat} {a b : Arena} {shelf : Shelf} {key : String}

theorem StandsFor.agrees (ha : StandsFor limit a shelf) (hb : StandsFor limit b shelf) :
    a.Agrees b where
  keys := ha.keys.trans hb.keys.symm
  size := ha.size.trans hb.size.symm
  isEmpty := Bool.eq_iff_iff.2 (ha.isEmpty.trans hb.isEmpty.symm)
  contains _ := Bool.eq_iff_iff.2 (ha.contains.trans hb.contains.symm)
  isReleased _ := Bool.eq_iff_iff.2 (ha.isReleased.trans hb.isReleased.symm)
  releasedSize := ha.releasedSize.trans hb.releasedSize.symm

/-- To drain nothing changes nothing. -/
theorem StandsFor.drain_nothing (h : StandsFor limit a shelf) (hnothing : a.drain.1 = []) :
    StandsFor limit a.drain.2 shelf := by
  have hsort : shelf.live.sort = [] := h.drained.symm.trans hnothing
  have hlive : shelf.live = ∅ := by
    rw [← Finset.card_eq_zero, ← Finset.length_sort (· ≤ ·), hsort]
    rfl
  have hsame : (shelf.drain limit).2 = shelf := by
    obtain ⟨live, released⟩ := shelf
    obtain rfl : live = ∅ := hlive
    have hwithin : released.rtake limit = released := rtake_of_length_le h.within
    simpa [Shelf.drain] using hwithin
  exact hsame ▸ h.drain

theorem StandsFor.not_isReleased (h : StandsFor limit a shelf) (hlive : a.contains key = true) :
    a.isReleased key = false := by
  apply Bool.eq_false_iff.2
  intro hreleased
  exact h.apart key (h.contains.1 hlive) (h.isReleased.1 hreleased)

theorem StandsFor.not_contains_drain (h : StandsFor limit a shelf) :
    ¬a.drain.2.contains key = true := by
  rw [h.drain.contains]
  exact Finset.notMem_empty key

/-- The keys that are drained last are remembered, as many as the limit allows. -/
theorem StandsFor.isReleased_drain (h : StandsFor limit a shelf)
    (hkey : key ∈ a.drain.1.rtake limit) : a.drain.2.isReleased key = true := by
  have hfresh : ∀ key ∈ shelf.live.sort, key ∉ shelf.released := by
    intro key hkey
    exact h.apart key ((Finset.mem_sort _).1 hkey)
  rw [h.drained] at hkey
  apply h.drain.isReleased.2
  change key ∈ (shelf.live.sort.foldl Shelf.moveToEnd shelf.released).rtake limit
  rw [Shelf.foldl_moveToEnd _ (Finset.sort_nodup _ _) hfresh, rtake_append]
  exact List.mem_append_right _ hkey

end Arena

/-! ## Arenas and histories -/

namespace Occurrence

/-- A key is made live by receiving it or by putting it back. -/
def Revives (key : String) : Occurrence F → Prop
  | .asked _ (.restore keys) _ => key ∈ keys
  | o => o.Receives key

/-- Whether live keys are drained. -/
def isDrain : Occurrence F → Bool
  | .asked _ .drain _ => true
  | _ => false

end Occurrence

namespace Arena

variable {limit : Nat} {a : Arena} {shelf : Shelf} {key : String} {p : Party}
  {history : List (Occurrence F)}

/-- Arenas that stand for the same do so whatever happens. -/
theorem StandsFor.replay (limit : Nat) (shelf : Shelf) (history : List (Occurrence F)) :
    ∃ shelf', ∀ a, StandsFor limit a shelf → StandsFor limit (a.replay history) shelf' :=
  ⟨_, fun _ h => (h.run _).2⟩

theorem contains_replay_one {o : Occurrence F} (hdrain : o.isDrain = false) :
    (a.replay [o]).contains key = true ↔ o.Revives key ∨ a.contains key = true := by
  have hstill : a.contains key = true ↔ False ∨ a.contains key = true :=
    (iff_of_eq (false_or _)).symm
  cases o with
  | asked p request reply =>
    cases request with
    | record other => exact contains_record
    | restore keys => exact contains_restore
    | drain => cases hdrain
    | _ => exact hstill
  | operation id deed =>
    cases deed with
    | called slot outcome =>
      cases outcome with
      | handle other => exact contains_record
      | _ => exact hstill
    | _ => exact hstill
  | _ => exact hstill

/-- As long as nobody drains the arena, the keys that are live are live still, and those that are
revived become so. -/
theorem contains_replay (hdrain : ∀ o ∈ history, o.isDrain = false) :
    (a.replay history).contains key = true ↔
      (∃ o ∈ history, o.Revives key) ∨ a.contains key = true := by
  induction history generalizing a with
  | nil => simp [replay, ArenaStep.run]
  | cons o history ih =>
    have hfirst : o.isDrain = false := hdrain o List.mem_cons_self
    have hone : a.replay (o :: history) = (a.replay [o]).replay history :=
      replay_append a [o] history
    rw [hone, ih fun o' ho' => hdrain o' (List.mem_cons_of_mem _ ho'), contains_replay_one hfirst,
      List.exists_mem_cons_iff, or_left_comm, or_assoc]

theorem arenaStep?_of_talkOf {o : Occurrence F} (htalk : talkOf p [o] = [])
    (hparty : o.party? = some p) : o.arenaStep? = none := by
  cases o with
  | asked q request reply =>
    obtain rfl := Option.some.inj hparty
    simp [talkOf] at htalk
  | operation => cases hparty
  | _ => rfl

/-- A party that asks for nothing does nothing to the arena. -/
theorem replay_others (a : Arena) (htalk : talkOf p history = []) :
    a.replay (history.filter (·.party? ≠ some p)) = a.replay history := by
  induction history generalizing a with
  | nil => rfl
  | cons o history ih =>
    obtain ⟨hfirst, hrest⟩ :=
      List.append_eq_nil_iff.1 ((talkOf_append p [o] history).symm.trans htalk)
    by_cases hparty : o.party? = some p
    · rw [List.filter_cons_of_neg (by simpa using hparty), ih a hrest,
        replay_cons_still a (arenaStep?_of_talkOf hfirst hparty)]
    · rw [List.filter_cons_of_pos (by simpa using hparty), ← List.singleton_append, replay_append,
        ih _ hrest, ← replay_append, List.singleton_append]

end Arena

/-- The arena that a history leads to. -/
def arenaOf (history : List (Occurrence F)) : Arena :=
  (Arena.empty Arena.defaultLimit).replay history

/-- The arena that a history leads to if what a party did in the last part of it is left out. -/
def arenaWithout (p : Party) (past since : List (Occurrence F)) : Arena :=
  arenaOf (past ++ since.filter (·.party? ≠ some p))

section Histories

variable {p : Party} {past first last : List (Occurrence F)} {keys : List String}

theorem arenaOf_append (history later : List (Occurrence F)) :
    arenaOf (history ++ later) = (arenaOf history).replay later :=
  Arena.replay_append ..

theorem arenaOf_began (p : Party) (service : Service F) (past since : List (Occurrence F)) :
    arenaOf (past ++ .began p service :: since) = arenaOf (past ++ since) := by
  rw [arenaOf_append, arenaOf_append]
  rfl

theorem arenaOf_drained (history : List (Occurrence F)) (p : Party) (keys : List String)
    (later : List (Occurrence F)) :
    arenaOf (history ++ .asked p .drain keys :: later) =
      (arenaOf history).drain.2.replay later :=
  arenaOf_append ..

theorem exists_standsFor_arenaOf (history : List (Occurrence F)) :
    ∃ shelf, Arena.StandsFor Arena.defaultLimit (arenaOf history) shelf := by
  obtain ⟨shelf, hshelf⟩ := Arena.StandsFor.replay Arena.defaultLimit {} history
  exact ⟨shelf, hshelf _ (.empty _)⟩

theorem arenaWithout_eq {since : List (Occurrence F)} (h : talkOf p since = []) :
    arenaWithout p past since = arenaOf (past ++ since) := by
  rw [arenaWithout, arenaOf_append, Arena.replay_others _ h, ← arenaOf_append]

theorem arenaWithout_drained (h : talkOf p first = []) :
    arenaWithout p past (first ++ .asked p .drain keys :: last) =
      (arenaOf (past ++ first)).replay (last.filter (·.party? ≠ some p)) := by
  have hmine : (.asked p .drain keys :: last : List (Occurrence F)).filter (·.party? ≠ some p) =
      last.filter (·.party? ≠ some p) :=
    List.filter_cons_of_neg (by simp [Occurrence.party?])
  rw [← arenaWithout_eq h, arenaWithout, arenaWithout, ← arenaOf_append, List.filter_append, hmine,
    List.append_assoc]

theorem mem_talkOf_of_mem {history : List (Occurrence F)} {request : Request F}
    {reply : request.Reply} (h : .asked p request reply ∈ history) :
    ⟨request, reply⟩ ∈ talkOf p history :=
  List.mem_filterMap.2 ⟨_, h, if_pos rfl⟩

theorem talkOf_drained (p : Party) (first : List (Occurrence F)) (keys : List String)
    (last : List (Occurrence F)) : talkOf p (first ++ .asked p .drain keys :: last) =
      talkOf p first ++ ⟨.drain, keys⟩ :: talkOf p last := by
  rw [talkOf_append, ← List.singleton_append, talkOf_append]
  simp [talkOf]

end Histories

/-! ## Abandoned releases -/

/-- What a release leaves behind that was begun by a party, of which `since` tells, and abandoned
before its program was handed over. -/
structure AbandonedRelease (p : Party) (lineage : LineageId) (past since : List (Occurrence F))
    (a : Arena) : Prop where
  recalled : a = arenaOf (past ++ since)
  /-- If no key was live, or nothing was drained yet, it is as if there had been no release. -/
  untouched : (∀ keys, .asked p .drain keys ∈ since → keys = []) →
    a.Agrees (arenaWithout p past since)
  /-- All keys that were live are drained. -/
  drained : ∀ (first : List (Occurrence F)) (keys : List String) (last : List (Occurrence F)),
    since = first ++ .asked p .drain keys :: last → keys = (arenaOf (past ++ first)).keys
  /-- Without the release the drained keys were live still, unless another release drained them. As
  it is they are live only if they were received again or put back. -/
  lost : ∀ (first : List (Occurrence F)) (keys : List String) (last : List (Occurrence F)),
    since = first ++ .asked p .drain keys :: last → (∀ o ∈ last, o.isDrain = false) →
    ∀ key ∈ keys, (arenaWithout p past since).contains key = true ∧
      (arenaWithout p past since).isReleased key = false ∧
      (a.contains key = true ↔ ∃ o ∈ last, o.Revives key)
  /-- If nobody else did anything to the keys, none is live and those drained last are refused. -/
  quiet : ∀ (first : List (Occurrence F)) (keys : List String) (last : List (Occurrence F)),
    since = first ++ .asked p .drain keys :: last → (∀ o ∈ last, o.arenaStep? = none) →
    a.keys = [] ∧ ∀ key ∈ keys.rtake Arena.defaultLimit, a.isReleased key = true
  /-- Only a release that was refused its turn has put keys back. -/
  refused : ∀ keys, .asked p (.restore keys) () ∈ since →
    ∃ policy fault, .asked p (.enter lineage policy) (.error fault) ∈ since

namespace Scene

variable {w : Scene F} {p : Party} {lineage : LineageId} {past since : List (Occurrence F)}

theorem abandonedRelease_of_unsent (hrecalled : Recalled (.empty Arena.defaultLimit) w)
    (hhistory : w.history = past ++ .began p (.release lineage) :: since)
    (hunsent : UnsentRelease lineage (talkOf p since)) :
    AbandonedRelease p lineage past since w.session.arena := by
  have harena : w.session.arena = arenaOf (past ++ since) := by
    rw [← arenaOf_began p (.release lineage), ← hhistory]
    exact hrecalled.arena
  have hdrained : ∀ (first : List (Occurrence F)) (keys : List String)
      (last : List (Occurrence F)), since = first ++ .asked p .drain keys :: last →
      keys = (arenaOf (past ++ first)).drain.1 ∧ talkOf p first = [] := by
    intro first keys last hsince
    have hsplit : w.history =
        (past ++ .began p (.release lineage) :: first) ++ .asked p .drain keys :: last := by
      rw [hhistory, hsince, List.append_assoc, List.cons_append]
    constructor
    · rw [← arenaOf_began p (.release lineage)]
      exact hrecalled.drained _ p keys last hsplit
    · rw [hsince, talkOf_drained] at hunsent
      exact hunsent.drains_first
  rw [harena]
  refine ⟨rfl, ?untouched, fun first keys last hsince => (hdrained first keys last hsince).1, ?lost,
    ?quiet, ?refused⟩
  case untouched =>
    intro hnone
    cases htalk : talkOf p since with
    | nil =>
      rw [arenaWithout_eq htalk]
      exact ⟨rfl, rfl, rfl, fun _ => rfl, fun _ => rfl, rfl⟩
    | cons e more =>
      rw [htalk] at hunsent
      obtain ⟨keys, rfl⟩ := hunsent.begins
      have hasked : .asked p .drain keys ∈ since := mem_talkOf (htalk ▸ List.mem_cons_self)
      obtain rfl := hnone keys hasked
      obtain ⟨first, last, hsince⟩ := List.append_of_mem hasked
      obtain ⟨hnothing, hfirst⟩ := hdrained first [] last hsince
      have hlast : talkOf p last = [] := by
        rw [hsince, talkOf_drained, hfirst, List.nil_append] at htalk
        rw [(List.cons.inj htalk).2]
        exact hunsent.drained_nothing
      obtain ⟨shelf, hshelf⟩ := exists_standsFor_arenaOf (past ++ first)
      obtain ⟨shelf', hafter⟩ := Arena.StandsFor.replay Arena.defaultLimit shelf last
      rw [hsince, arenaWithout_drained hfirst, Arena.replay_others _ hlast, ← List.append_assoc,
        arenaOf_drained]
      exact (hafter _ (hshelf.drain_nothing hnothing.symm)).agrees (hafter _ hshelf)
  case lost =>
    intro first keys last hsince hother key hkey
    obtain ⟨hkeys, hfirst⟩ := hdrained first keys last hsince
    have hlive : (arenaOf (past ++ first)).contains key = true :=
      Arena.mem_drain.1 (hkeys ▸ hkey)
    have hwithout : (arenaWithout p past since).contains key = true := by
      rw [hsince, arenaWithout_drained hfirst, Arena.contains_replay]
      · exact .inr hlive
      · exact fun o ho => hother o (List.mem_of_mem_filter ho)
    obtain ⟨shelf, hshelf⟩ := exists_standsFor_arenaOf (past ++ since.filter (·.party? ≠ some p))
    obtain ⟨shelf', hshelf'⟩ := exists_standsFor_arenaOf (past ++ first)
    refine ⟨hwithout, hshelf.not_isReleased hwithout, ?_⟩
    rw [hsince, ← List.append_assoc, arenaOf_drained, Arena.contains_replay hother]
    exact or_iff_left hshelf'.not_contains_drain
  case quiet =>
    intro first keys last hsince hstill
    obtain ⟨rfl, -⟩ := hdrained first keys last hsince
    obtain ⟨shelf, hshelf⟩ := exists_standsFor_arenaOf (past ++ first)
    rw [hsince, ← List.append_assoc, arenaOf_drained, Arena.replay_still _ hstill]
    exact ⟨hshelf.drain.keys.trans (Finset.sort_empty _), fun _ => hshelf.isReleased_drain⟩
  case refused =>
    intro keys hrestored
    obtain ⟨policy, fault, hmem⟩ := hunsent.refused (mem_talkOf_of_mem hrestored)
    exact ⟨policy, fault, mem_talkOf hmem⟩

/-- A release that is abandoned before its program is handed over changes nothing if it has drained
no keys. Those that it has drained are not live any more, unless somebody else revives them. -/
theorem abandoned_release (behave : Behaviour F) (settings : Settings) (host : Host)
    (before during : List (Move F)) {p : Party} (lineage : LineageId)
    (hfree : ((start settings host).run behave before).isFree p = true)
    (hone : ∀ service, .begin p service ∉ during) :
    let past := ((start settings host).run behave before).history
    let w := (start settings host).run behave (before ++ .begin p (.release lineage) :: during)
    let after := w.act behave (.abandon p)
    ∃ since, w.history = past ++ .began p (.release lineage) :: since ∧
      ((∀ program, .asked p (.submit program) () ∉ since) →
        after.busy p = none ∧
          AbandonedRelease p lineage past since after.session.arena) := by
  intro past w after
  have hrecalled : Recalled (.empty Arena.defaultLimit) w := recalled_run behave settings host _
  have hbefore : Owned ((start settings host).run behave before).session.callbacks
      ((start settings host).run behave before).busy := owned_run settings host before
  have hw : w = (((start settings host).run behave before).begin p (.release lineage)).run
      behave during := run_append behave (start settings host) before _
  have hbegun : Moved _ (.begin p (.release lineage))
      (((start settings host).run behave before).act behave (.begin p (.release lineage))) :=
    moved_act hbefore _
  obtain ⟨since, hhistory, hattempt⟩ := attempt_run behave hone (attempt_begin hfree _)
    (owned_of_moved hbefore hbegun)
  rw [List.nil_append, ← hw] at hattempt
  have hsince : w.history = past ++ .began p (.release lineage) :: since := by
    rw [hw, hhistory, begin, if_pos hfree, List.append_assoc]
    rfl
  refine ⟨since, hsince, fun hunsent => ⟨?_, ?_⟩⟩
  · change (w.abandon p).busy p = none
    unfold abandon
    split
    · exact Function.update_self ..
    · rename_i hidle
      simpa using hidle
  · have harena : after.session.arena = w.session.arena := by
      change (w.abandon p).session.arena = _
      unfold abandon
      split
      · exact (w.session.sameKeys_abandon p).arena
      · rfl
    obtain ⟨rest, hleads⟩ := hattempt.progress.leads
    rw [harena]
    apply abandonedRelease_of_unsent hrecalled hsince
    apply unsentRelease_of_leads hleads
    intro program hin
    exact hunsent program (mem_talkOf hin)

/-- A handle is given, and somebody else takes the turn of the lineage. -/
def givenAndTaken : List (Move Unit) :=
  .addLineage "steps" none :: .begin .foreground (.evaluate "view()" .handle 0) ::
    List.replicate 6 (.go .foreground) ++
      [.begin (.task 0) (.evaluate "name()" .value 0), .go (.task 0)]

/-- A release that is abandoned before it has drained a key leaves it live. -/
theorem undrained_key_stays_live :
    (((start {} givingHost).run returning (givenAndTaken ++ [.begin .foreground (.release 0)])).act
      returning (.abandon .foreground)).session.arena.contains "view" = true := by
  have hfree : ((start {} givingHost).run returning givenAndTaken).isFree .foreground = true := rfl
  obtain ⟨since, hhistory, habandoned⟩ :=
    abandoned_release returning {} givingHost givenAndTaken [] 0 hfree (by simp)
  have hnow : ((start {} givingHost).run returning
      (givenAndTaken ++ [.begin .foreground (.release 0)])).history =
        ((start {} givingHost).run returning givenAndTaken).history ++
          [.began .foreground (.release 0)] := rfl
  obtain rfl : [] = since :=
    (List.cons.inj (List.append_cancel_left (hnow.symm.trans hhistory))).2
  obtain ⟨-, hleft⟩ := habandoned (by simp)
  exact ((hleft.untouched (by simp)).contains "view").trans (by decide +kernel)

/-- A release waits for its turn and is abandoned. The key is lost: it is not live and is refused,
and without the release it would be live. -/
theorem waiting_release_loses_key :
    let past := ((start {} givingHost).run returning givenAndTaken).history
    let w := (start {} givingHost).run returning
      (givenAndTaken ++ .begin .foreground (.release 0) :: List.replicate 5 (.go .foreground))
    let since := [.asked .foreground .drain ["view"]]
    let after := w.act returning (.abandon .foreground)
    w.history = past ++ .began .foreground (.release 0) :: since ∧
      after.session.arena.contains "view" = false ∧
      after.session.arena.isReleased "view" = true ∧
      (arenaWithout .foreground past since).contains "view" = true ∧
      (arenaWithout .foreground past since).isReleased "view" = false := by
  refine ⟨rfl, ?_⟩
  decide +kernel

end Scene

end RemoteHost
