import RemoteHost.Arena

/-! # What every change to an arena does to the live and the released keys -/

namespace RemoteHost.Arena

variable {a : Arena} {key : String}

@[simp] theorem live_forget (a : Arena) (key : String) : (a.forget key).live = a.live := by
  unfold forget
  split <;> rfl

@[simp] theorem live_evict (a : Arena) : a.evict.live = a.live := by
  fun_induction evict a with
  | case1 | case2 => rfl
  | case3 _ _ _ _ _ ih => exact ih

@[simp] theorem live_enroll (a : Arena) (key : String) : (a.enroll key).live = a.live :=
  live_forget a key

@[simp] theorem live_markReleased (a : Arena) (key : String) :
    (a.markReleased key).live = a.live := by
  rw [markReleased, live_evict, live_enroll]

theorem contains_iff : a.contains key = true ↔ key ∈ a.live := Std.TreeSet.contains_iff_mem

theorem contains_record {other : String} :
    (a.record other).contains key = true ↔ other = key ∨ a.contains key = true := by
  rw [contains_iff, contains_iff, record]
  dsimp only
  rw [live_forget, Std.TreeSet.mem_insert, Std.LawfulEqCmp.compare_eq_iff_eq]

theorem contains_restore {keys : List String} :
    (a.restore keys).contains key = true ↔ key ∈ keys ∨ a.contains key = true := by
  unfold restore
  induction keys generalizing a with
  | nil => simp
  | cons first rest ih =>
    rw [List.foldl_cons, ih, contains_record, List.mem_cons, eq_comm (a := first)]
    exact or_left_comm.trans or_assoc.symm

/-- A key that is given again is no longer a released one. -/
theorem isReleased_record_iff {other : String} :
    (a.record other).isReleased key = true ↔ other ≠ key ∧ a.isReleased key = true := by
  unfold record forget isReleased
  dsimp only
  split
  · rename_i hnone
    have hother : a.released.contains other = false := by
      rw [← Bool.not_eq_true, Std.TreeMap.contains_iff_mem]
      simpa using hnone
    refine ⟨fun hkey => ⟨?_, hkey⟩, And.right⟩
    rintro rfl
    rw [hother] at hkey
    cases hkey
  · simp [Std.TreeMap.contains_erase]

theorem isReleased_restore_iff {keys : List String} :
    (a.restore keys).isReleased key = true ↔ key ∉ keys ∧ a.isReleased key = true := by
  unfold restore
  induction keys generalizing a with
  | nil => simp
  | cons first keys ih =>
    rw [List.foldl_cons, ih, isReleased_record_iff, List.mem_cons]
    grind

/-- Draining gives every live key and leaves none. -/
theorem mem_drain : key ∈ a.drain.1 ↔ a.contains key = true := by
  rw [contains_iff]
  exact Std.TreeSet.mem_toList

end RemoteHost.Arena
