import RemoteHost.Lineage

/-!
# Gates as lines

A gate at which nobody is overtaken is a line of parties of which the first has the turn. To ask is
to join the line at its end, to pass the turn on or to withdraw is to step out of it.
-/

namespace RemoteHost.Gate

/-- The gate at which parties stand in a line; the first has the turn. -/
def ofLine (line : List Party) : Gate := ⟨line.head?, line.tail⟩

/-- The line after a party has asked for the turn. Who stands in it keeps the place. -/
def joined (line : List Party) (p : Party) : List Party := if p ∈ line then line else line ++ [p]

@[simp] theorem holder_ofLine (line : List Party) : (ofLine line).holder = line.head? := rfl

theorem mem_joined {line : List Party} {p q : Party} : q ∈ joined line p ↔ q ∈ line ∨ q = p := by
  unfold joined
  split
  · rename_i hp
    constructor
    · exact .inl
    · rintro (hq | rfl)
      · exact hq
      · exact hp
  · simp

/-- Whoever has the turn keeps it while others ask. -/
theorem head?_joined {line : List Party} {first : Party} (h : line.head? = some first)
    (p : Party) : (joined line p).head? = some first := by
  unfold joined
  split
  · exact h
  · rw [List.head?_append, h]
    rfl

/-- Whoever has the turn keeps it while others step out of the line. -/
theorem head?_erase {line : List Party} {first p : Party} (h : line.head? = some first)
    (hne : first ≠ p) : (line.erase p).head? = some first := by
  cases line with
  | nil => cases h
  | cons q rest =>
    obtain rfl : q = first := Option.some.inj h
    simp [hne]

theorem nodup_joined {line : List Party} (h : line.Nodup) (p : Party) : (joined line p).Nodup := by
  unfold joined
  split
  · exact h
  · rename_i hp
    rw [List.nodup_append]
    refine ⟨h, by simp, ?_⟩
    intro a ha b hb heq
    rw [List.mem_singleton] at hb
    rw [heq, hb] at ha
    exact hp ha

/-- A party has the turn after asking exactly if it is the first in the line then. -/
theorem ask_ofLine {line : List Party} (hnodup : line.Nodup) (p : Party) :
    (ofLine line).ask p = (decide ((joined line p).head? = some p), ofLine (joined line p)) := by
  cases line with
  | nil => simp [ask, ofLine, joined]
  | cons first rest =>
    have hfirst : first ∉ rest := (List.nodup_cons.mp hnodup).1
    by_cases hp : first = p
    · subst hp
      simp [ask, ofLine, joined]
    · have hne : p ≠ first := fun heq => hp heq.symm
      by_cases hmem : p ∈ rest
      · simp [ask, ofLine, joined, hp, hmem]
      · simp [ask, ofLine, joined, hp, hne, hmem]

theorem withdraw_ofLine (line : List Party) (p : Party) :
    (ofLine line).withdraw p = ofLine (line.erase p) := by
  cases line with
  | nil => rfl
  | cons first rest =>
    by_cases hp : first = p
    · subst hp
      simp [withdraw, ofLine, pass]
    · simp [withdraw, ofLine, hp]

end RemoteHost.Gate
