import Std.Data.TreeMap
import Std.Data.TreeSet

/-!
# Handle arenas

A session remembers the keys of the handles it was given, so that it can release them together,
and the keys it released last, so that it can refuse to use them. Released keys are numbered as
they come; beyond a limit the oldest is forgotten. A key that is given again is live again.
-/

namespace RemoteHost

structure Arena where
  live : Std.TreeSet String := ∅
  /-- The number each released key got. -/
  released : Std.TreeMap String Nat := ∅
  /-- The released key of each number. -/
  order : Std.TreeMap Nat String := ∅
  nextNumber : Nat := 0
  limit : Nat

namespace Arena

/-- How many released keys are remembered unless another limit is given. -/
def defaultLimit : Nat := 4096

def empty (limit : Nat) : Arena := { limit := limit }

def forget (a : Arena) (key : String) : Arena :=
  match a.released[key]? with
  | none => a
  | some number => { a with released := a.released.erase key, order := a.order.erase number }

theorem mem_of_minKey? {order : Std.TreeMap Nat String} {number : Nat}
    (first : order.minKey? = some number) : number ∈ order :=
  (Std.TreeMap.minKey?_eq_some_iff_mem_and_forall.1 first).1

theorem size_erase_lt {order : Std.TreeMap Nat String} {number : Nat} (h : number ∈ order) :
    (order.erase number).size < order.size := by
  have hpos : order.size ≠ 0 := fun hzero => by
    have hempty : order.isEmpty = true := by simp [Std.TreeMap.isEmpty_eq_size_eq_zero, hzero]
    exact Std.TreeMap.isEmpty_iff_forall_not_mem.1 hempty number h
  rw [Std.TreeMap.size_erase, if_pos (Std.TreeMap.contains_iff_mem.2 h)]
  omega

/-- Forgets the key that was released first, again and again while there are more than the limit
allows. -/
@[semireducible]
def evict (a : Arena) : Arena :=
  if a.released.size ≤ a.limit then a else
  match first : a.order.minKey? with
  | none => a
  | some number =>
    let oldest := a.order.get number (mem_of_minKey? first)
    evict { a with released := a.released.erase oldest, order := a.order.erase number }
termination_by a.order.size
decreasing_by exact size_erase_lt (mem_of_minKey? first)

/-- Gives a key the next number. -/
def enroll (a : Arena) (key : String) : Arena :=
  let a := a.forget key
  { a with
    released := a.released.insert key a.nextNumber
    order := a.order.insert a.nextNumber key
    nextNumber := a.nextNumber + 1 }

/-- Remembers a key as the one released last. -/
def markReleased (a : Arena) (key : String) : Arena := (a.enroll key).evict

/-- A key given by the host is live, whether it was released before or not. -/
def record (a : Arena) (key : String) : Arena :=
  let a := a.forget key
  { a with live := a.live.insert key }

/-- The live keys in ascending order. -/
def keys (a : Arena) : List String := a.live.toList

def contains (a : Arena) (key : String) : Bool := a.live.contains key

def isReleased (a : Arena) (key : String) : Bool := a.released.contains key

def size (a : Arena) : Nat := a.live.size

def isEmpty (a : Arena) : Bool := a.live.isEmpty

def releasedSize (a : Arena) : Nat := a.released.size

/-- Releases every live key, in ascending order, and returns them. -/
def drain (a : Arena) : List String × Arena :=
  (a.keys, a.keys.foldl markReleased { a with live := ∅ })

def restore (a : Arena) (keys : List String) : Arena := keys.foldl record a

end Arena

end RemoteHost
