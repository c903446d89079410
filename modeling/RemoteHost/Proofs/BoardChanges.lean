import RemoteHost.Host.Board

/-! # What every change to a board does to one endpoint -/

namespace RemoteHost.Board

/-- What waits to be taken at an endpoint. -/
def inbox (b : Board) (i : Nat) : List Json := (b[i]?.map (·.inbox)).getD []

/-- Whether the host can still send to an endpoint. -/
def isConnected (b : Board) (i : Nat) : Bool := (b[i]?.map (·.connected)).getD false

theorem inbox_modify (b : Board) (i j : Nat) (f : Endpoint → Endpoint) :
    Board.inbox (b.modify i f) j =
      if i = j then (b[j]?.map fun e => (f e).inbox).getD [] else b.inbox j := by
  simp only [inbox, List.getElem?_modify]
  split <;> cases b[j]? <;> simp

theorem isOpen_modify (b : Board) (i j : Nat) (f : Endpoint → Endpoint) :
    Board.isOpen (b.modify i f) j =
      if i = j then (b[j]?.map fun e => (f e).isOpen).getD false else b.isOpen j := by
  simp only [isOpen, List.getElem?_modify]
  split <;> cases b[j]? <;> simp

theorem isConnected_modify (b : Board) (i j : Nat) (f : Endpoint → Endpoint) :
    Board.isConnected (b.modify i f) j =
      if i = j then (b[j]?.map fun e => (f e).connected).getD false else b.isConnected j := by
  simp only [isConnected, List.getElem?_modify]
  split <;> cases b[j]? <;> simp

theorem lt_length_of_isOpen {b : Board} {i : Nat} (h : b.isOpen i = true) : i < b.length := by
  rcases Nat.lt_or_ge i b.length with hi | hi
  · exact hi
  · simp [isOpen, List.getElem?_eq_none hi] at h

/-! ## Closing and forgetting -/

@[simp] theorem length_close (b : Board) (i : Nat) : (b.close i).length = b.length := by
  simp [close]

@[simp] theorem inbox_close (b : Board) (i j : Nat) : (b.close i).inbox j = b.inbox j := by
  rw [close, inbox_modify]
  simp [inbox]

@[simp] theorem isOpen_close (b : Board) (i j : Nat) :
    (b.close i).isOpen j = (b.isOpen j && i != j) := by
  rw [close, isOpen_modify]
  by_cases h : i = j
  · cases b[j]? <;> simp [h]
  · simp [h]

@[simp] theorem isConnected_close (b : Board) (i j : Nat) :
    (b.close i).isConnected j = b.isConnected j := by
  rw [close, isConnected_modify]
  simp [isConnected]

@[simp] theorem length_disown (b : Board) (token : String) :
    (b.disown token).length = b.length := by
  simp [disown]

theorem getElem?_disown (b : Board) (token : String) (j : Nat) : (b.disown token)[j]? =
    b[j]?.map fun e => if e.token = token then { e with connected := false } else e := by
  simp [disown]

@[simp] theorem inbox_disown (b : Board) (token : String) (j : Nat) :
    (b.disown token).inbox j = b.inbox j := by
  simp only [inbox, getElem?_disown]
  cases b[j]? with
  | none => rfl
  | some e => by_cases h : e.token = token <;> simp [h]

@[simp] theorem isOpen_disown (b : Board) (token : String) (j : Nat) :
    (b.disown token).isOpen j = b.isOpen j := by
  simp only [isOpen, getElem?_disown]
  cases b[j]? with
  | none => rfl
  | some e => by_cases h : e.token = token <;> simp [h]

theorem isConnected_of_disown {b : Board} {token : String} {j : Nat}
    (h : (b.disown token).isConnected j = true) : b.isConnected j = true := by
  simp only [isConnected, getElem?_disown] at h ⊢
  cases hb : b[j]? with
  | none => simp [hb] at h
  | some e => by_cases ht : e.token = token <;> simp_all

/-! ## Opening -/

@[simp] theorem openLine_fst (b : Board) (token : String) : (b.openLine token).1 = b.length := rfl

@[simp] theorem length_openLine (b : Board) (token : String) :
    (b.openLine token).2.length = b.length + 1 := by
  simp [openLine]

@[simp] theorem inbox_openLine (b : Board) (token : String) (j : Nat) :
    (b.openLine token).2.inbox j = b.inbox j := by
  simp only [inbox, openLine, List.getElem?_append]
  split
  · rfl
  · rename_i h
    rw [List.getElem?_eq_none (Nat.le_of_not_lt h)]
    cases j - b.length <;> rfl

theorem isOpen_openLine (b : Board) (token : String) (j : Nat) :
    (b.openLine token).2.isOpen j = (b.isOpen j || j == b.length) := by
  simp only [isOpen, openLine, List.getElem?_append]
  split
  · rename_i h
    simp [Nat.ne_of_lt h]
  · rename_i h
    rw [List.getElem?_eq_none (Nat.le_of_not_lt h)]
    rcases Nat.eq_or_lt_of_le (Nat.le_of_not_lt h) with h | h
    · simp [← h]
    · simp [Nat.sub_ne_zero_of_lt h, Nat.ne_of_gt h]

theorem isConnected_openLine (b : Board) (token : String) (j : Nat) :
    (b.openLine token).2.isConnected j = (b.isConnected j || j == b.length) := by
  simp only [isConnected, openLine, List.getElem?_append]
  split
  · rename_i h
    simp [Nat.ne_of_lt h]
  · rename_i h
    rw [List.getElem?_eq_none (Nat.le_of_not_lt h)]
    rcases Nat.eq_or_lt_of_le (Nat.le_of_not_lt h) with h | h
    · simp [← h]
    · simp [Nat.sub_ne_zero_of_lt h, Nat.ne_of_gt h]

/-! ## Taking -/

@[simp] theorem length_take (b : Board) (i : Nat) : (b.take i).length = b.length := by
  simp [take]

theorem inbox_take (b : Board) (i j : Nat) :
    (b.take i).inbox j = if i = j then (b.inbox j).tail else b.inbox j := by
  rw [take, inbox_modify]
  split
  · cases hb : b[j]? <;> simp [inbox, hb]
  · rfl

@[simp] theorem isOpen_take (b : Board) (i j : Nat) : (b.take i).isOpen j = b.isOpen j := by
  rw [take, isOpen_modify]
  simp [isOpen]

@[simp] theorem isConnected_take (b : Board) (i j : Nat) :
    (b.take i).isConnected j = b.isConnected j := by
  rw [take, isConnected_modify]
  simp [isConnected]

/-! ## Sending and hanging up -/

theorem find_eq_some {b : Board} {token : String} {i : Nat} (h : b.find token = some i) :
    ∃ e, b[i]? = some e ∧ e.token = token ∧ e.connected = true := by
  unfold find at h
  obtain ⟨⟨e, j⟩, hfound, rfl⟩ := Option.map_eq_some_iff.mp h
  have hmem := List.mem_reverse.mp (List.mem_of_find?_eq_some hfound)
  have hprop := List.find?_some hfound
  simp only [Bool.and_eq_true, beq_iff_eq] at hprop
  exact ⟨e, List.mk_mem_zipIdx_iff_getElem?.mp hmem, hprop.1, hprop.2⟩

/-- Which endpoint a token addresses is a matter of tokens and connections only. -/
theorem find_modify {f : Endpoint → Endpoint} (htoken : ∀ e, (f e).token = e.token)
    (hconnected : ∀ e, (f e).connected = e.connected) (b : Board) (i : Nat) (token : String) :
    Board.find (b.modify i f) token = b.find token := by
  have hzip : (b.modify i f).zipIdx =
      b.zipIdx.map fun e => (if i = e.2 then f e.1 else e.1, e.2) := by
    refine List.ext_getElem? fun j => ?_
    rw [List.getElem?_map, List.getElem?_zipIdx, List.getElem?_zipIdx, List.getElem?_modify]
    cases b[j]? <;> simp
  have hsame : ((fun e : Endpoint × Nat => e.1.token == token && e.1.connected) ∘
      fun e => (if i = e.2 then f e.1 else e.1, e.2)) =
      fun e : Endpoint × Nat => e.1.token == token && e.1.connected := by
    funext e
    simp only [Function.comp]
    split
    · rw [htoken, hconnected]
    · rfl
  unfold find
  rw [hzip, ← List.map_reverse, List.find?_map, hsame, Option.map_map]
  rfl

@[simp] theorem find_append (b : Board) (i : Nat) (payload : Json) (token : String) :
    Board.find (b.modify i fun e => { e with inbox := e.inbox ++ [payload] }) token =
      b.find token :=
  find_modify (f := fun e => { e with inbox := e.inbox ++ [payload] }) (fun _ => rfl)
    (fun _ => rfl) b i token

@[simp] theorem find_take (b : Board) (i : Nat) (token : String) :
    (b.take i).find token = b.find token :=
  find_modify (f := fun e => { e with inbox := e.inbox.tail }) (fun _ => rfl) (fun _ => rfl) b i
    token

theorem send_of_find {b : Board} {token : String} {i : Nat} (hfound : b.find token = some i)
    (hopen : b.isOpen i = true) (payload : Json) : b.send token payload =
      (some i, b.modify i fun e => { e with inbox := e.inbox ++ [payload] }) := by
  rw [send, hfound]
  exact if_pos hopen

/-- What is sent arrives at an endpoint that is open on both sides, and nowhere else. -/
theorem send_eq_some {b b' : Board} {token : String} {payload : Json} {i : Nat}
    (h : b.send token payload = (some i, b')) :
    b.isOpen i = true ∧ b.isConnected i = true ∧
      b' = b.modify i fun e => { e with inbox := e.inbox ++ [payload] } := by
  unfold send at h
  split at h
  · cases h
  · rename_i k hk
    split at h
    · rename_i hopen
      simp only [Prod.mk.injEq, Option.some.injEq] at h
      obtain ⟨rfl, rfl⟩ := h
      obtain ⟨e, he, _, hc⟩ := find_eq_some hk
      exact ⟨hopen, by simp [isConnected, he, hc], rfl⟩
    · cases h

theorem send_eq_none {b b' : Board} {token : String} {payload : Json}
    (h : b.send token payload = (none, b')) : b' = b := by
  unfold send at h
  split at h
  · exact (Prod.mk.inj h).2.symm
  · split at h
    · cases h
    · exact (Prod.mk.inj h).2.symm

theorem inbox_append {b : Board} {i : Nat} (hi : i < b.length) (payload : Json) (j : Nat) :
    Board.inbox (b.modify i fun e => { e with inbox := e.inbox ++ [payload] }) j =
      if i = j then b.inbox j ++ [payload] else b.inbox j := by
  rw [inbox_modify]
  split
  · rename_i h
    subst h
    simp [inbox, List.getElem?_eq_getElem hi]
  · rfl

@[simp] theorem isOpen_append (b : Board) (i : Nat) (payload : Json) (j : Nat) :
    Board.isOpen (b.modify i fun e => { e with inbox := e.inbox ++ [payload] }) j =
      b.isOpen j := by
  rw [isOpen_modify]
  simp [isOpen]

@[simp] theorem isConnected_append (b : Board) (i : Nat) (payload : Json) (j : Nat) :
    Board.isConnected (b.modify i fun e => { e with inbox := e.inbox ++ [payload] }) j =
      b.isConnected j := by
  rw [isConnected_modify]
  simp [isConnected]

@[simp] theorem inbox_disconnect (b : Board) (i j : Nat) :
    Board.inbox (b.modify i fun e => { e with connected := false }) j = b.inbox j := by
  rw [inbox_modify]
  simp [inbox]

@[simp] theorem isOpen_disconnect (b : Board) (i j : Nat) :
    Board.isOpen (b.modify i fun e => { e with connected := false }) j = b.isOpen j := by
  rw [isOpen_modify]
  simp [isOpen]

theorem isConnected_disconnect (b : Board) (i j : Nat) :
    Board.isConnected (b.modify i fun e => { e with connected := false }) j =
      (b.isConnected j && i != j) := by
  rw [isConnected_modify]
  by_cases h : i = j
  · cases b[j]? <;> simp [h]
  · simp [h]

theorem hangUp_eq_some {b b' : Board} {token : String} {i : Nat}
    (h : b.hangUp token = (some i, b')) :
    b' = b.modify i fun e => { e with connected := false } := by
  unfold hangUp at h
  split at h
  · cases h
  · simp only [Prod.mk.injEq, Option.some.injEq] at h
    obtain ⟨rfl, rfl⟩ := h
    rfl

theorem hangUp_eq_none {b b' : Board} {token : String} (h : b.hangUp token = (none, b')) :
    b' = b := by
  unfold hangUp at h
  split at h
  · exact (Prod.mk.inj h).2.symm
  · cases h

/-! ## Looking -/

theorem sighting_eq_payload {b : Board} {i : Nat} {payload : Json}
    (h : b.sighting i = .payload payload) : ∃ later, b.inbox i = payload :: later := by
  unfold sighting Endpoint.sighting at h
  cases hb : b[i]? with
  | none => simp [hb] at h
  | some e =>
    simp only [hb, Option.map_some, Option.getD_some] at h
    split at h
    · rename_i first later hinbox
      cases h
      exact ⟨later, by simp [inbox, hb, hinbox]⟩
    · split at h <;> cases h

theorem inbox_of_silent {b : Board} {i : Nat} (h : b.sighting i = .silent) : b.inbox i = [] := by
  unfold sighting Endpoint.sighting at h
  cases hb : b[i]? with
  | none => simp [hb] at h
  | some e =>
    simp only [hb, Option.map_some, Option.getD_some] at h
    split at h
    · cases h
    · rename_i hinbox
      simp [inbox, hb, hinbox]

theorem sighting_of_inbox {b : Board} {i : Nat} {payload : Json} {later : List Json}
    (h : b.inbox i = payload :: later) : b.sighting i = .payload payload := by
  unfold inbox at h
  cases hb : b[i]? with
  | none => simp [hb] at h
  | some e =>
    have hinbox : e.inbox = payload :: later := by simpa [hb] using h
    simp [sighting, Endpoint.sighting, hb, hinbox]

theorem sighting_eq_silent {b : Board} {i : Nat} (hinbox : b.inbox i = [])
    (hconnected : b.isConnected i = true) (hopen : b.isOpen i = true) :
    b.sighting i = .silent := by
  unfold inbox at hinbox
  unfold isConnected at hconnected
  unfold isOpen at hopen
  cases hb : b[i]? with
  | none => simp [hb] at hopen
  | some e =>
    have hnothing : e.inbox = [] := by simpa [hb] using hinbox
    have hboth : e.connected = true ∧ e.isOpen = true :=
      ⟨by simpa [hb] using hconnected, by simpa [hb] using hopen⟩
    simp [sighting, Endpoint.sighting, hb, hnothing, hboth]

/-- An endpoint is over when nothing is left in it and one of its sides is gone. -/
theorem sighting_eq_over {b : Board} {i : Nat} (h : b.sighting i = .over) :
    b.inbox i = [] ∧ (b.isConnected i = false ∨ b.isOpen i = false) := by
  unfold sighting Endpoint.sighting at h
  cases hb : b[i]? with
  | none => simp [inbox, isConnected, hb]
  | some e =>
    simp only [hb, Option.map_some, Option.getD_some] at h
    split at h
    · cases h
    · rename_i hinbox
      split at h
      · cases h
      · rename_i hside
        have side : e.connected = false ∨ e.isOpen = false := by
          cases hc : e.connected
          · exact .inl rfl
          · exact .inr (by simpa [hc] using hside)
        simpa [inbox, isConnected, isOpen, hb, hinbox] using side

end RemoteHost.Board
