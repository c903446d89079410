import Mathlib.Data.Finset.Sort
import Mathlib.Data.List.DropRight
import Mathlib.Data.String.Basic
import RemoteHost.Proofs.ArenaChanges

/-!
# What an arena stands for

An arena keeps its released keys in two maps, by key and by number. To its owner it is only a set
of live keys and the list of the keys released last. The log is what couples the two: the released
keys with their numbers, in the order in which they were released.
-/

namespace RemoteHost

/-- A set of live keys and the keys released last, the oldest first. -/
structure Shelf where
  live : Finset String := ∅
  released : List String := []

namespace Shelf

def record (shelf : Shelf) (key : String) : Shelf where
  live := insert key shelf.live
  released := shelf.released.filter (· ≠ key)

def moveToEnd (released : List String) (key : String) : List String :=
  released.filter (· ≠ key) ++ [key]

/-- Releases every live key in ascending order and remembers the last `limit` released keys. -/
def drain (limit : Nat) (shelf : Shelf) : List String × Shelf :=
  let keys := shelf.live.sort
  (keys, { released := (keys.foldl moveToEnd shelf.released).rtake limit })

def restore (shelf : Shelf) (keys : List String) : Shelf := keys.foldl record shelf

end Shelf

inductive ArenaStep where
  | record (key : String)
  | drain
  | restore (keys : List String)

/-- What a step gives to the caller, and the arena after it. -/
def Arena.take (a : Arena) : ArenaStep → List String × Arena
  | .record key => ([], a.record key)
  | .drain => a.drain
  | .restore keys => ([], a.restore keys)

def Shelf.take (limit : Nat) (shelf : Shelf) : ArenaStep → List String × Shelf
  | .record key => ([], shelf.record key)
  | .drain => shelf.drain limit
  | .restore keys => ([], shelf.restore keys)

/-- What each of the steps gives, and the state after them. -/
def ArenaStep.run {σ : Type} (take : σ → ArenaStep → List String × σ) :
    List ArenaStep → σ → List (List String) × σ
  | [], state => ([], state)
  | step :: steps, state =>
    let (keys, state) := take state step
    let (given, state) := run take steps state
    (keys :: given, state)

theorem rtake_append_rtake {α : Type} (l : List α) (n : Nat) (x : α) :
    (l.rtake n ++ [x]).rtake n = (l ++ [x]).rtake n := by
  cases n with
  | zero => simp only [List.rtake_zero]
  | succ n =>
    rw [List.rtake_concat_succ, List.rtake_concat_succ]
    simp [List.rtake_eq_reverse_take_reverse, List.take_take]

theorem rtake_of_length_le {α : Type} {l : List α} {n : Nat} (h : l.length ≤ n) :
    l.rtake n = l := by
  simp [List.rtake, Nat.sub_eq_zero_of_le h]

theorem rtake_cons_of_le {α : Type} {l : List α} {n : Nat} (x : α) (h : n ≤ l.length) :
    (x :: l).rtake n = l.rtake n := by
  simp [List.rtake, Nat.succ_sub h]

theorem rtake_subset {α : Type} (l : List α) (n : Nat) : l.rtake n ⊆ l :=
  List.drop_subset _ _

theorem map_rtake {α β : Type} (f : α → β) (l : List α) (n : Nat) :
    (l.rtake n).map f = (l.map f).rtake n := by
  simp [List.rtake]

namespace Shelf

theorem moveToEnd_of_not_mem {released : List String} {key : String} (h : key ∉ released) :
    moveToEnd released key = released ++ [key] := by
  rw [moveToEnd, List.filter_eq_self.2 fun other hother => ?_]
  exact decide_eq_true fun heq => h (heq ▸ hother)

/-- Whether the oldest keys are dropped after each new one or once at the end is the same. -/
theorem foldl_moveToEnd_rtake {keys : List String} (limit : Nat) (released : List String)
    (hnodup : keys.Nodup) (hfresh : ∀ key ∈ keys, key ∉ released) :
    keys.foldl (fun released key => (moveToEnd released key).rtake limit) (released.rtake limit) =
      (keys.foldl moveToEnd released).rtake limit := by
  induction keys generalizing released with
  | nil => rfl
  | cons key keys ih =>
    have hkey : key ∉ released := hfresh key List.mem_cons_self
    have hkept : key ∉ released.rtake limit := fun h => hkey (rtake_subset _ _ h)
    obtain ⟨hnot, hrest⟩ := List.nodup_cons.1 hnodup
    rw [List.foldl_cons, List.foldl_cons, moveToEnd_of_not_mem hkey, moveToEnd_of_not_mem hkept,
      rtake_append_rtake]
    apply ih _ hrest
    intro other hother hin
    rcases List.mem_append.1 hin with hin | hin
    · exact hfresh other (List.mem_cons_of_mem _ hother) hin
    · exact hnot (List.mem_singleton.1 hin ▸ hother)

end Shelf

namespace Arena

@[simp] theorem nextNumber_forget (a : Arena) (key : String) :
    (a.forget key).nextNumber = a.nextNumber := by
  unfold forget
  split <;> rfl

@[simp] theorem limit_forget (a : Arena) (key : String) : (a.forget key).limit = a.limit := by
  unfold forget
  split <;> rfl

@[simp] theorem limit_enroll (a : Arena) (key : String) : (a.enroll key).limit = a.limit :=
  limit_forget a key

@[simp] theorem nextNumber_evict (a : Arena) : a.evict.nextNumber = a.nextNumber := by
  fun_induction evict a with
  | case1 | case2 => rfl
  | case3 _ _ _ _ _ ih => exact ih

@[simp] theorem limit_evict (a : Arena) : a.evict.limit = a.limit := by
  fun_induction evict a with
  | case1 | case2 => rfl
  | case3 _ _ _ _ _ ih => exact ih

@[simp] theorem nextNumber_markReleased (a : Arena) (key : String) :
    (a.markReleased key).nextNumber = a.nextNumber + 1 := by
  simp [markReleased, enroll]

@[simp] theorem limit_markReleased (a : Arena) (key : String) :
    (a.markReleased key).limit = a.limit := by
  rw [markReleased, limit_evict, limit_enroll]

theorem keys_ascending (a : Arena) : a.keys.Pairwise (· < ·) :=
  Std.TreeSet.ordered_toList.imp fun h => compare_lt_iff_lt.1 h

/-- Releasing keys changes neither what is live nor the limit, and each key takes one number. -/
theorem frame_foldl_markReleased (a : Arena) (keys : List String) :
    (keys.foldl markReleased a).live = a.live ∧ (keys.foldl markReleased a).limit = a.limit ∧
      (keys.foldl markReleased a).nextNumber = a.nextNumber + keys.length := by
  induction keys generalizing a with
  | nil => exact ⟨rfl, rfl, rfl⟩
  | cons key keys ih =>
    obtain ⟨hlive, hlimit, hnext⟩ := ih (a.markReleased key)
    rw [List.foldl_cons, hlive, hlimit, hnext, live_markReleased, limit_markReleased,
      nextNumber_markReleased, List.length_cons]
    exact ⟨rfl, rfl, by omega⟩

theorem evict_of_le {a : Arena} (h : a.released.size ≤ a.limit) : a.evict = a := by
  rw [evict, if_pos h]

/-- The arenas met while the oldest released keys of an arena are forgotten, before each look at
how many are left. -/
inductive Evicts : Arena → Arena → Prop
  | start (a : Arena) : Evicts a a
  | next {a b : Arena} {number : Nat} (above : a.limit < a.released.size)
    (first : a.order.minKey? = some number)
    (later : Evicts { a with
      released := a.released.erase (a.order.get number (mem_of_minKey? first))
      order := a.order.erase number } b) : Evicts a b

/-- The last arena met is the one that is left. -/
theorem evicts_evict (a : Arena) : a.Evicts a.evict := by
  fun_induction evict a with
  | case1 a | case2 a => exact .start a
  | case3 _ above _ first _ ih => exact .next (Nat.lt_of_not_le above) first ih

/-- The released keys that an arena remembers, with their numbers in ascending order. -/
structure Logs (a : Arena) (log : List (Nat × String)) : Prop where
  ascending : log.Pairwise (·.1 < ·.1)
  distinct : (log.map Prod.snd).Nodup
  bounded : ∀ entry ∈ log, entry.1 < a.nextNumber
  byNumber : ∀ number key, a.order[number]? = some key ↔ (number, key) ∈ log
  byKey : ∀ number key, a.released[key]? = some number ↔ (number, key) ∈ log

namespace Logs

variable {a : Arena} {log : List (Nat × String)} {key : String} {number : Nat}

theorem empty (limit : Nat) : Logs (.empty limit) [] where
  ascending := .nil
  distinct := .nil
  bounded := nofun
  byNumber := by simp [Arena.empty]
  byKey := by simp [Arena.empty]

/-- Only the two maps and the next number matter. -/
theorem congr {b : Arena} (h : a.Logs log) (hreleased : b.released = a.released)
    (horder : b.order = a.order) (hnext : b.nextNumber = a.nextNumber) : b.Logs log where
  ascending := h.ascending
  distinct := h.distinct
  bounded := by rw [hnext]; exact h.bounded
  byNumber := by rw [horder]; exact h.byNumber
  byKey := by rw [hreleased]; exact h.byKey

theorem mem_released (h : a.Logs log) : key ∈ a.released ↔ key ∈ log.map Prod.snd := by
  rw [Std.TreeMap.mem_iff_isSome_getElem?, Option.isSome_iff_exists]
  simp [h.byKey]

theorem mem_order (h : a.Logs log) : number ∈ a.order ↔ number ∈ log.map Prod.fst := by
  rw [Std.TreeMap.mem_iff_isSome_getElem?, Option.isSome_iff_exists]
  simp [h.byNumber]

theorem nodup (h : a.Logs log) : log.Nodup := .of_map _ h.distinct

theorem size_released (h : a.Logs log) : a.released.size = log.length := by
  have hentries : a.released.toList.Nodup := Std.TreeMap.distinct_keys_toList.imp fun hne heq => by
    subst heq
    exact hne (Std.LawfulEqCmp.compare_eq_iff_eq.2 rfl)
  have hswapped : (log.map Prod.swap).Nodup := h.nodup.map Prod.swap_injective
  have hmem : ∀ entry, entry ∈ a.released.toList ↔ entry ∈ log.map Prod.swap := by
    rintro ⟨key, number⟩
    rw [Std.TreeMap.mem_toList_iff_getElem?_eq_some, h.byKey]
    simp
  have hperm := (List.perm_ext_iff_of_nodup hentries hswapped).2 hmem
  rw [← Std.TreeMap.length_toList, hperm.length_eq, List.length_map]

theorem minKey? (h : a.Logs log) : a.order.minKey? = log.head?.map Prod.fst := by
  cases log with
  | nil =>
    rw [List.head?_nil, Option.map_none, Std.TreeMap.minKey?_eq_none_iff,
      Std.TreeMap.isEmpty_iff_forall_not_mem]
    intro number
    simp [h.mem_order]
  | cons oldest log =>
    rw [List.head?_cons, Option.map_some, Std.TreeMap.minKey?_eq_some_iff_mem_and_forall]
    constructor
    · simp [h.mem_order]
    · intro number hmem
      rw [h.mem_order, List.map_cons, List.mem_cons] at hmem
      rcases hmem with rfl | hmem
      · simp
      · obtain ⟨entry, hentry, rfl⟩ := List.mem_map.1 hmem
        have hlt := List.rel_of_pairwise_cons h.ascending hentry
        simp [Nat.isLE_compare, Nat.le_of_lt hlt]

/-- Erasing an entry from both maps takes it out of the log. -/
theorem erase (h : a.Logs log) {log' : List (Nat × String)} (hsub : log'.Sublist log)
    (hmem : ∀ entry, entry ∈ log' ↔ entry ∈ log ∧ entry ≠ (number, key))
    (hentry : (number, key) ∈ log) :
    Logs { a with released := a.released.erase key, order := a.order.erase number } log' where
  ascending := h.ascending.sublist hsub
  distinct := h.distinct.sublist (hsub.map _)
  bounded entry hin := h.bounded entry (hsub.subset hin)
  byNumber n k := by
    have hkey := (h.byNumber number key).2 hentry
    rw [Std.TreeMap.getElem?_erase, hmem, ← h.byNumber]
    simp only [Std.LawfulEqCmp.compare_eq_iff_eq]
    grind
  byKey n k := by
    have hnumber := (h.byKey number key).2 hentry
    rw [Std.TreeMap.getElem?_erase, hmem, ← h.byKey]
    simp only [Std.LawfulEqCmp.compare_eq_iff_eq]
    grind

theorem pop (h : a.Logs ((number, key) :: log)) :
    Logs { a with released := a.released.erase key, order := a.order.erase number } log := by
  apply h.erase (List.sublist_cons_self _ _) _ List.mem_cons_self
  intro entry
  have hnodup := List.nodup_cons.1 h.nodup
  constructor
  · intro hin
    exact ⟨List.mem_cons_of_mem _ hin, fun heq => hnodup.1 (heq ▸ hin)⟩
  · rintro ⟨hin, hne⟩
    exact (List.mem_cons.1 hin).resolve_left hne

theorem forget (h : a.Logs log) : (a.forget key).Logs (log.filter (·.2 ≠ key)) := by
  unfold Arena.forget
  split
  · rename_i habsent
    have hfilter : log.filter (·.2 ≠ key) = log := by
      rw [List.filter_eq_self]
      rintro ⟨number, other⟩ hin
      have hnumber := (h.byKey number other).2 hin
      grind
    rw [hfilter]
    exact h
  · rename_i number hnumber
    apply h.erase List.filter_sublist _ ((h.byKey number key).1 hnumber)
    rintro ⟨n, k⟩
    have hkey := h.byKey n k
    grind

/-- The next number is above all others, so a new key comes last. -/
theorem snoc (h : a.Logs log) (hfresh : key ∉ log.map Prod.snd) :
    Logs { a with
      released := a.released.insert key a.nextNumber
      order := a.order.insert a.nextNumber key
      nextNumber := a.nextNumber + 1 } (log ++ [(a.nextNumber, key)]) where
  ascending := by
    rw [List.pairwise_append]
    refine ⟨h.ascending, List.pairwise_singleton _ _, ?_⟩
    intro entry hin last hlast
    rw [List.mem_singleton.1 hlast]
    exact h.bounded entry hin
  distinct := by
    rw [List.map_append, List.nodup_append]
    refine ⟨h.distinct, List.nodup_singleton _, ?_⟩
    rintro other hin _ hlast rfl
    rw [List.map_singleton, List.mem_singleton] at hlast
    rw [hlast] at hin
    exact hfresh hin
  bounded := by
    intro entry hin
    rcases List.mem_append.1 hin with hin | hin
    · exact Nat.lt_succ_of_lt (h.bounded entry hin)
    · rw [List.mem_singleton.1 hin]
      exact Nat.lt_succ_self _
  byNumber n k := by
    have hbounded := h.bounded (n, k)
    have hin := h.byNumber n k
    rw [Std.TreeMap.getElem?_insert]
    simp only [Std.LawfulEqCmp.compare_eq_iff_eq]
    grind
  byKey n k := by
    have hin := h.byKey n k
    have hkey : (n, k) ∈ log → k ≠ key := by
      rintro hlogged rfl
      exact hfresh (List.mem_map_of_mem hlogged)
    rw [Std.TreeMap.getElem?_insert]
    simp only [Std.LawfulEqCmp.compare_eq_iff_eq]
    grind

theorem enroll (h : a.Logs log) :
    (a.enroll key).Logs (log.filter (·.2 ≠ key) ++ [(a.nextNumber, key)]) := by
  have hfresh : key ∉ (log.filter (·.2 ≠ key)).map Prod.snd := by simp
  rw [← nextNumber_forget a key]
  exact h.forget.snoc hfresh

theorem get_first (h : a.Logs ((number, key) :: log)) (hmem : number ∈ a.order) :
    a.order.get number hmem = key := by
  have hsome := (h.byNumber number key).2 List.mem_cons_self
  rw [Std.TreeMap.getElem?_eq_some_getElem hmem] at hsome
  exact Option.some.inj hsome

theorem evict_cons (h : a.Logs ((number, key) :: log)) (hover : a.limit < a.released.size) :
    a.evict = Arena.evict
      { a with released := a.released.erase key, order := a.order.erase number } := by
  rw [Arena.evict, if_neg (Nat.not_le_of_lt hover)]
  split
  · rename_i hnone
    simp [h.minKey?] at hnone
  · rename_i n hsome
    obtain rfl : n = number := Option.some.inj (hsome.symm.trans h.minKey?)
    simp only [h.get_first]

/-- Evicting keeps the last entries, as many as the limit allows. -/
theorem evict (h : a.Logs log) : a.evict.Logs (log.rtake a.limit) := by
  induction log generalizing a with
  | nil =>
    rw [evict_of_le (h.size_released.trans_le (Nat.zero_le _)), List.rtake_nil]
    exact h
  | cons oldest log ih =>
    obtain ⟨number, key⟩ := oldest
    by_cases hwithin : a.released.size ≤ a.limit
    · rw [evict_of_le hwithin, rtake_of_length_le (h.size_released ▸ hwithin)]
      exact h
    · have hover := Nat.lt_of_not_le hwithin
      have hlonger : a.limit ≤ log.length := by
        rw [h.size_released, List.length_cons] at hover
        exact Nat.le_of_lt_succ hover
      rw [h.evict_cons hover, rtake_cons_of_le _ hlonger]
      exact ih h.pop

theorem markReleased (h : a.Logs log) :
    (a.markReleased key).Logs
      ((log.filter (·.2 ≠ key) ++ [(a.nextNumber, key)]).rtake a.limit) := by
  rw [← limit_enroll a key]
  exact h.enroll.evict

/-- What is left of the log after several keys were released one after the other. -/
theorem foldl_markReleased (h : a.Logs log) (keys : List String) :
    ∃ log', (keys.foldl Arena.markReleased a).Logs log' ∧ log'.map Prod.snd =
      keys.foldl (fun released key => (Shelf.moveToEnd released key).rtake a.limit)
        (log.map Prod.snd) := by
  induction keys generalizing a log with
  | nil => exact ⟨log, h, rfl⟩
  | cons key keys ih =>
    have hfirst : (a.markReleased key).Logs
        ((log.filter (·.2 ≠ key) ++ [(a.nextNumber, key)]).rtake a.limit) := h.markReleased
    obtain ⟨log', hlog', hreleased⟩ := ih hfirst
    refine ⟨log', hlog', ?_⟩
    rw [hreleased, limit_markReleased, List.foldl_cons, map_rtake, List.map_append,
      Shelf.moveToEnd, List.filter_map]
    rfl

/-- Forgetting the oldest keys never runs out of keys to forget. -/
theorem order_nonempty (h : a.Logs log) {b : Arena} (hevicts : a.Evicts b)
    (hover : b.limit < b.released.size) : b.order.isEmpty = false := by
  induction hevicts generalizing log with
  | start a =>
    rw [h.size_released] at hover
    obtain ⟨oldest, rest, rfl⟩ := List.exists_cons_of_length_pos (Nat.zero_lt_of_lt hover)
    rw [← Std.TreeMap.isSome_minKey?_iff_isEmpty_eq_false, h.minKey?]
    rfl
  | next above first later ih =>
    cases log with
    | nil => simp [h.minKey?] at first
    | cons oldest rest =>
      obtain rfl := Option.some.inj (h.minKey?.symm.trans first)
      refine @ih rest ?_ hover
      rw [h.get_first]
      exact h.pop

end Logs

/-- What an arena that remembers at most `limit` released keys stands for. -/
structure StandsFor (limit : Nat) (a : Arena) (shelf : Shelf) : Prop where
  limited : a.limit = limit
  live_iff : ∀ key, key ∈ a.live ↔ key ∈ shelf.live
  logged : ∃ log, a.Logs log ∧ log.map Prod.snd = shelf.released
  apart : ∀ key ∈ shelf.live, key ∉ shelf.released
  within : shelf.released.length ≤ limit

namespace StandsFor

variable {limit : Nat} {a : Arena} {shelf : Shelf}

theorem keys (h : StandsFor limit a shelf) : a.keys = shelf.live.sort := by
  apply a.keys_ascending.eq_of_mem_iff (Finset.sortedLT_sort shelf.live).pairwise
  intro key
  rw [Finset.mem_sort, ← h.live_iff]
  exact Std.TreeSet.mem_toList

theorem size (h : StandsFor limit a shelf) : a.size = shelf.live.card := by
  rw [← Finset.length_sort (· ≤ ·), ← h.keys]
  exact Std.TreeSet.length_toList.symm

theorem isEmpty (h : StandsFor limit a shelf) : a.isEmpty = true ↔ shelf.live = ∅ := by
  rw [Finset.eq_empty_iff_forall_notMem]
  simp only [← h.live_iff]
  exact Std.TreeSet.isEmpty_iff_forall_not_mem

theorem contains (h : StandsFor limit a shelf) {key : String} :
    a.contains key = true ↔ key ∈ shelf.live :=
  contains_iff.trans (h.live_iff key)

theorem isReleased (h : StandsFor limit a shelf) {key : String} :
    a.isReleased key = true ↔ key ∈ shelf.released := by
  obtain ⟨log, hlog, hreleased⟩ := h.logged
  rw [← hreleased, ← hlog.mem_released]
  exact Std.TreeMap.contains_iff_mem

theorem releasedSize (h : StandsFor limit a shelf) : a.releasedSize = shelf.released.length := by
  obtain ⟨log, hlog, hreleased⟩ := h.logged
  rw [← hreleased, List.length_map]
  exact hlog.size_released

theorem empty (limit : Nat) : StandsFor limit (.empty limit) {} where
  limited := rfl
  live_iff key := by simp [Arena.empty]
  logged := ⟨[], .empty limit, rfl⟩
  apart := nofun
  within := Nat.zero_le _

theorem record (h : StandsFor limit a shelf) (key : String) :
    StandsFor limit (a.record key) (shelf.record key) where
  limited := (limit_forget a key).trans h.limited
  live_iff other := by
    rw [← contains_iff, contains_record, h.contains, Shelf.record, Finset.mem_insert,
      eq_comm (a := key)]
  logged := by
    obtain ⟨log, hlog, hreleased⟩ := h.logged
    refine ⟨log.filter (·.2 ≠ key), hlog.forget.congr rfl rfl rfl, ?_⟩
    rw [Shelf.record, ← hreleased, List.filter_map]
    rfl
  apart := by
    intro other hlive hreleased
    obtain ⟨hin, hne⟩ := List.mem_filter.1 hreleased
    rcases Finset.mem_insert.1 hlive with rfl | hother
    · exact of_decide_eq_true hne rfl
    · exact h.apart other hother hin
  within := (List.length_filter_le _ _).trans h.within

theorem restore (h : StandsFor limit a shelf) (keys : List String) :
    StandsFor limit (a.restore keys) (shelf.restore keys) := by
  induction keys generalizing a shelf with
  | nil => exact h
  | cons key keys ih => exact ih (h.record key)

theorem drained (h : StandsFor limit a shelf) : a.drain.1 = (shelf.drain limit).1 := h.keys

theorem drain (h : StandsFor limit a shelf) :
    StandsFor limit a.drain.2 (shelf.drain limit).2 := by
  obtain ⟨log, hlog, hreleased⟩ := h.logged
  let cleared : Arena := { a with live := ∅ }
  have hcleared : cleared.Logs log := hlog.congr rfl rfl rfl
  obtain ⟨hlive, hlimit, -⟩ := frame_foldl_markReleased cleared a.keys
  obtain ⟨log', hlog', hafter⟩ := hcleared.foldl_markReleased a.keys
  have hfresh : ∀ key ∈ a.keys, key ∉ shelf.released := by
    intro key hkey
    rw [h.keys, Finset.mem_sort] at hkey
    exact h.apart key hkey
  have hnodup : a.keys.Nodup := h.keys ▸ Finset.sort_nodup _ _
  -- Nothing is dropped before the first release, so the marks may be compared with the list.
  have hstart : shelf.released.rtake limit = shelf.released := rtake_of_length_le h.within
  have hmarked : log'.map Prod.snd = (shelf.drain limit).2.released := by
    rw [hafter, hreleased, show cleared.limit = limit from h.limited, ← hstart,
      Shelf.foldl_moveToEnd_rtake limit shelf.released hnodup hfresh, h.keys]
    rfl
  exact {
    limited := hlimit.trans h.limited
    live_iff := by
      intro key
      rw [show a.drain.2.live = ∅ from hlive]
      simp [Shelf.drain]
    logged := ⟨log', hlog', hmarked⟩
    apart := nofun
    within := by
      rw [Shelf.drain, List.rtake, List.length_drop]
      omega }

theorem take (h : StandsFor limit a shelf) (step : ArenaStep) :
    (a.take step).1 = (shelf.take limit step).1 ∧
      StandsFor limit (a.take step).2 (shelf.take limit step).2 := by
  cases step with
  | record key => exact ⟨rfl, h.record key⟩
  | drain => exact ⟨h.drained, h.drain⟩
  | restore keys => exact ⟨rfl, h.restore keys⟩

theorem run (h : StandsFor limit a shelf) (steps : List ArenaStep) :
    (ArenaStep.run Arena.take steps a).1 = (ArenaStep.run (Shelf.take limit) steps shelf).1 ∧
      StandsFor limit (ArenaStep.run Arena.take steps a).2
        (ArenaStep.run (Shelf.take limit) steps shelf).2 := by
  induction steps generalizing a shelf with
  | nil => exact ⟨rfl, h⟩
  | cons step steps ih =>
    obtain ⟨hgiven, hafter⟩ := h.take step
    obtain ⟨hlists, hend⟩ := ih hafter
    exact ⟨congrArg₂ List.cons hgiven hlists, hend⟩

end StandsFor

@[simp] theorem nextNumber_restore (a : Arena) (keys : List String) :
    (a.restore keys).nextNumber = a.nextNumber := by
  induction keys generalizing a with
  | nil => rfl
  | cons key keys ih => exact (ih (a.record key)).trans (nextNumber_forget a key)

/-- Every key that a step gives back takes a number. -/
theorem nextNumber_take (a : Arena) (step : ArenaStep) :
    (a.take step).2.nextNumber = a.nextNumber + (a.take step).1.length := by
  cases step with
  | record key => exact nextNumber_forget a key
  | drain => exact (frame_foldl_markReleased { a with live := ∅ } a.keys).2.2
  | restore keys => exact nextNumber_restore a keys

theorem nextNumber_run (a : Arena) (steps : List ArenaStep) :
    (ArenaStep.run take steps a).2.nextNumber =
      a.nextNumber + (ArenaStep.run take steps a).1.flatten.length := by
  induction steps generalizing a with
  | nil => rfl
  | cons step steps ih =>
    have hstep := nextNumber_take a step
    have hrest := ih (a.take step).2
    simp only [ArenaStep.run, List.flatten_cons, List.length_append]
    omega

end Arena

/-- An arena behaves like a shelf with the same limit: every drain gives the same keys and every
observer the same answer, after any steps whatever. In particular no key is both live and released,
the two maps of the released keys are inverse to each other, no more keys than the limit allows are
remembered, as many numbers were given as keys were released, and the loop that forgets the oldest
keys in the course of a drain always finds one. -/
theorem arena_behaves_like_shelf (limit : Nat) (steps : List ArenaStep) :
    let (given, a) := ArenaStep.run Arena.take steps (.empty limit)
    let (expected, shelf) := ArenaStep.run (Shelf.take limit) steps {}
    (given = expected ∧ a.keys = shelf.live.sort ∧ a.size = shelf.live.card ∧
      (a.isEmpty = true ↔ shelf.live = ∅) ∧
      (∀ key, a.contains key = true ↔ key ∈ shelf.live) ∧
      (∀ key, a.isReleased key = true ↔ key ∈ shelf.released) ∧
      a.releasedSize = shelf.released.length ∧ shelf.released.Nodup) ∧
    (∀ key, ¬ (key ∈ a.live ∧ key ∈ a.released)) ∧
    (∀ (number : Nat) (key : String),
      a.order[number]? = some key ↔ a.released[key]? = some number) ∧
    a.released.size ≤ limit ∧ a.nextNumber = given.flatten.length ∧
    ∀ before key after, a.keys = before ++ key :: after →
      let enrolled := (before.foldl Arena.markReleased { a with live := ∅ }).enroll key
      enrolled.Evicts enrolled.evict ∧
        ∀ b, enrolled.Evicts b → b.limit < b.released.size → b.order.isEmpty = false := by
  obtain ⟨hgiven, h⟩ := (Arena.StandsFor.empty limit).run steps
  have hnext := Arena.nextNumber_run (.empty limit) steps
  obtain ⟨log, hlog, hreleased⟩ := h.logged
  generalize ArenaStep.run Arena.take steps (.empty limit) = actual at *
  generalize ArenaStep.run (Shelf.take limit) steps {} = model at *
  obtain ⟨given, a⟩ := actual
  obtain ⟨expected, shelf⟩ := model
  refine ⟨⟨hgiven, h.keys, h.size, h.isEmpty, fun _ => h.contains, fun _ => h.isReleased,
    h.releasedSize, hreleased ▸ hlog.distinct⟩, ?apart, ?inverse, ?within, ?numbers, ?loop⟩
  case apart =>
    rintro key ⟨hlive, hin⟩
    rw [hlog.mem_released, hreleased] at hin
    exact h.apart key ((h.live_iff key).1 hlive) hin
  case inverse =>
    intro number key
    exact (hlog.byNumber number key).trans (hlog.byKey number key).symm
  case within => exact h.releasedSize.trans_le h.within
  case numbers => exact hnext.trans (Nat.zero_add _)
  case loop =>
    intro before key after _
    refine ⟨Arena.evicts_evict _, ?_⟩
    intro b hevicts hover
    have hcleared : Arena.Logs { a with live := ∅ } log := hlog.congr rfl rfl rfl
    obtain ⟨_, hbefore, -⟩ := hcleared.foldl_markReleased before
    exact hbefore.enroll.order_nonempty hevicts hover

end RemoteHost
