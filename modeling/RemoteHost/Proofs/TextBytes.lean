import RemoteHost.Text.Glyph

/-!
# Texts as bytes

A text written as UTF-8 is read back as it was, and a line break among its bytes is one of the text.
-/

namespace RemoteHost.Text

/-- The bytes of a text in UTF-8. -/
def bytes (text : String) : List UInt8 := text.toUTF8.data.toList

theorem bytes_eq (text : String) : bytes text = text.toList.flatMap String.utf8EncodeChar := by
  have h : text.toByteArray = text.toList.utf8Encode := by
    rw [← String.toByteArray_ofList, String.ofList_toList]
  rw [bytes, String.toUTF8_eq_toByteArray, h]
  simp [List.utf8Encode]

/-- How many bytes the code point of a character takes. Surrogates are no characters. -/
inductive Width (v : Nat) : Prop where
  | one (h : v < 0x80)
  | two (hlow : 0x80 ≤ v) (hhigh : v < 0x800)
  | three (hlow : 0x800 ≤ v) (hhigh : v < 0x10000) (hscalar : v < 0xD800 ∨ 0xDFFF < v)
  | four (hlow : 0x10000 ≤ v) (hhigh : v < 0x110000)

theorem width (c : Char) : Width c.toNat := by
  have hvalid : c.toNat < 0xD800 ∨ 0xDFFF < c.toNat ∧ c.toNat < 0x110000 := c.valid
  by_cases h₁ : c.toNat < 0x80
  · exact .one h₁
  by_cases h₂ : c.toNat < 0x800
  · exact .two (by omega) h₂
  by_cases h₃ : c.toNat < 0x10000
  · exact .three (by omega) h₃ (by omega)
  · exact .four (by omega) (by omega)

theorem toNat_ofNat_of_lt {n : Nat} (h : n < 256) : (UInt8.ofNat n).toNat = n := by
  simp [Nat.mod_eq_of_lt h]

/-- A continuation byte within the bounds is taken. -/
theorem continuation?_cons {count acc low high b : Nat} (hbyte : b < 256) (hlow : low ≤ b)
    (hhigh : b ≤ high) (rest : List UInt8) :
    continuation? (count + 1) acc low high (UInt8.ofNat b :: rest) =
      continuation? count (64 * acc + b % 64) 0x80 0xBF rest := by
  rw [continuation?, toNat_ofNat_of_lt hbyte, if_pos ⟨hlow, hhigh⟩]

theorem decodeAfter_lead {lead count low high n : Nat} {rest : List UInt8} (hbyte : lead < 256)
    (hlead : 0x80 ≤ lead) (hshape : sequenceShape lead = some (count, low, high))
    (hcontinued : continuation? count (leadBits count lead) low high rest = some n) :
    decodeAfter 0 (UInt8.ofNat lead :: rest) =
      .char (Char.ofNat n) :: decodeAfter count rest := by
  have hnot : ¬ UInt8.ofNat lead < 0x80 := by
    rw [UInt8.lt_iff_toNat_lt, toNat_ofNat_of_lt hbyte]
    exact Nat.not_lt.mpr hlead
  rw [decodeAfter, if_neg hnot, toNat_ofNat_of_lt hbyte, hshape]
  dsimp only
  rw [hcontinued]

/-- The second byte of a character lies within the bounds that its first byte sets. -/
theorem sequenceShape_three {v : Nat} (hlow : 0x800 ≤ v) (hhigh : v < 0x10000)
    (hscalar : v < 0xD800 ∨ 0xDFFF < v) : ∃ low high,
    sequenceShape (v / 4096 % 16 + 224) = some (2, low, high) ∧
      low ≤ v / 64 % 64 + 128 ∧ v / 64 % 64 + 128 ≤ high := by
  rw [sequenceShape, if_neg (by omega)]
  by_cases hfirst : v / 4096 % 16 + 224 = 0xE0
  · exact ⟨0xA0, 0xBF, if_pos hfirst, by omega, by omega⟩
  by_cases hsurrogate : v / 4096 % 16 + 224 = 0xED
  · exact ⟨0x80, 0x9F, by rw [if_neg hfirst, if_pos hsurrogate], by omega, by omega⟩
  · exact ⟨0x80, 0xBF, by rw [if_neg hfirst, if_neg hsurrogate, if_pos (by omega)], by omega,
      by omega⟩

theorem sequenceShape_four {v : Nat} (hlow : 0x10000 ≤ v) (hhigh : v < 0x110000) : ∃ low high,
    sequenceShape (v / 262144 % 8 + 240) = some (3, low, high) ∧
      low ≤ v / 4096 % 64 + 128 ∧ v / 4096 % 64 + 128 ≤ high := by
  rw [sequenceShape, if_neg (by omega), if_neg (by omega), if_neg (by omega), if_neg (by omega)]
  by_cases hfirst : v / 262144 % 8 + 240 = 0xF0
  · exact ⟨0x90, 0xBF, if_pos hfirst, by omega, by omega⟩
  by_cases hlast : v / 262144 % 8 + 240 = 0xF4
  · exact ⟨0x80, 0x8F, by rw [if_neg hfirst, if_neg (by omega), if_pos hlast], by omega, by omega⟩
  · exact ⟨0x80, 0xBF, by rw [if_neg hfirst, if_pos (by omega)], by omega, by omega⟩

/-- The bytes of a character are read as that character. -/
theorem decodeAfter_char (c : Char) (rest : List UInt8) :
    decodeAfter 0 (String.utf8EncodeChar c ++ rest) = .char c :: decodeAfter 0 rest := by
  have hback : Char.ofNat c.val.toNat = c := Char.ofNat_toNat c
  have hwidth : Width c.val.toNat := width c
  unfold String.utf8EncodeChar
  generalize c.val.toNat = v at hback hwidth
  dsimp only
  cases hwidth with
  | one h =>
    have hbyte : UInt8.ofNat v < 0x80 := by
      rw [UInt8.lt_iff_toNat_lt, toNat_ofNat_of_lt (by omega)]
      exact h
    rw [if_pos (by omega), List.singleton_append, decodeAfter, if_pos hbyte,
      toNat_ofNat_of_lt (by omega), hback]
  | two hlow hhigh =>
    rw [if_neg (by omega), if_pos (by omega)]
    simp only [List.cons_append, List.nil_append]
    have hshape : sequenceShape (v / 64 % 32 + 192) = some (1, 0x80, 0xBF) := by
      rw [sequenceShape, if_pos (by omega)]
    have hbits : leadBits 1 (v / 64 % 32 + 192) = v / 64 := by
      have hpow : Nat.pow 2 (6 - 1) = 32 := rfl
      rw [leadBits, hpow]
      omega
    refine (decodeAfter_lead (n := v) (by omega) (by omega) hshape ?_).trans (by rw [hback]; rfl)
    rw [hbits, continuation?_cons (by omega) (by omega) (by omega), continuation?]
    exact congrArg some (by omega)
  | three hlow hhigh hscalar =>
    rw [if_neg (by omega), if_neg (by omega), if_pos (by omega)]
    simp only [List.cons_append, List.nil_append]
    obtain ⟨low, high, hshape, hsecond, hbound⟩ := sequenceShape_three hlow hhigh hscalar
    have hbits : leadBits 2 (v / 4096 % 16 + 224) = v / 4096 := by
      have hpow : Nat.pow 2 (6 - 2) = 16 := rfl
      rw [leadBits, hpow]
      omega
    refine (decodeAfter_lead (n := v) (by omega) (by omega) hshape ?_).trans (by rw [hback]; rfl)
    rw [hbits, continuation?_cons (by omega) hsecond hbound,
      continuation?_cons (by omega) (by omega) (by omega), continuation?]
    exact congrArg some (by omega)
  | four hlow hhigh =>
    rw [if_neg (by omega), if_neg (by omega), if_neg (by omega)]
    simp only [List.cons_append, List.nil_append]
    obtain ⟨low, high, hshape, hsecond, hbound⟩ := sequenceShape_four hlow hhigh
    have hbits : leadBits 3 (v / 262144 % 8 + 240) = v / 262144 := by
      have hpow : Nat.pow 2 (6 - 3) = 8 := rfl
      rw [leadBits, hpow]
      omega
    refine (decodeAfter_lead (n := v) (by omega) (by omega) hshape ?_).trans (by rw [hback]; rfl)
    rw [hbits, continuation?_cons (by omega) hsecond hbound,
      continuation?_cons (by omega) (by omega) (by omega),
      continuation?_cons (by omega) (by omega) (by omega), continuation?]
    exact congrArg some (by omega)

/-- A text written as UTF-8 is read as its characters, and holds no stray byte. -/
theorem decode_bytes (text : String) : decode (bytes text) = glyphs text := by
  rw [bytes_eq, glyphs, decode]
  induction text.toList with
  | nil => rfl
  | cons c rest ih => rw [List.flatMap_cons, decodeAfter_char, ih, List.map_cons]

theorem decode?_bytes (text : String) : decode? (bytes text) = some text := by
  rw [decode?, decode_bytes, glyphs, characters?_map_char, Option.map_some, String.ofList_toList]

/-! ## Single bytes -/

/-- A byte below 0x80 is a character on its own. -/
theorem eq_of_mem_utf8EncodeChar {c : Char} {n : Nat} (hn : n < 0x80)
    (hmem : UInt8.ofNat n ∈ String.utf8EncodeChar c) : c = Char.ofNat n := by
  have heq : ∀ {m : Nat}, m < 256 → UInt8.ofNat n = UInt8.ofNat m → n = m := by
    intro m hm h
    have hnat := congrArg UInt8.toNat h
    rwa [toNat_ofNat_of_lt (by omega), toNat_ofNat_of_lt hm] at hnat
  rw [← Char.ofNat_toNat c]
  refine congrArg Char.ofNat ?_
  unfold String.utf8EncodeChar at hmem
  have hv : c.toNat = c.val.toNat := rfl
  rw [hv]
  have hwidth : Width c.val.toNat := width c
  generalize c.val.toNat = v at hmem hwidth ⊢
  dsimp only at hmem
  cases hwidth with
  | one h =>
    rw [if_pos (by omega)] at hmem
    exact (heq (by omega) (List.mem_singleton.mp hmem)).symm
  | two hlow hhigh =>
    rw [if_neg (by omega), if_pos (by omega)] at hmem
    simp only [List.mem_cons, List.not_mem_nil, or_false] at hmem
    rcases hmem with h | h <;> have := heq (by omega) h <;> omega
  | three hlow hhigh hscalar =>
    rw [if_neg (by omega), if_neg (by omega), if_pos (by omega)] at hmem
    simp only [List.mem_cons, List.not_mem_nil, or_false] at hmem
    rcases hmem with h | h | h <;> have := heq (by omega) h <;> omega
  | four hlow hhigh =>
    rw [if_neg (by omega), if_neg (by omega), if_neg (by omega)] at hmem
    simp only [List.mem_cons, List.not_mem_nil, or_false] at hmem
    rcases hmem with h | h | h | h <;> have := heq (by omega) h <;> omega

/-- A line break among the bytes of a text is a line break of the text. -/
theorem mem_of_mem_bytes {text : String} (h : 10 ∈ bytes text) : '\n' ∈ text.toList := by
  rw [bytes_eq] at h
  obtain ⟨c, hc, hmem⟩ := List.mem_flatMap.mp h
  have hbreak : c = '\n' := eq_of_mem_utf8EncodeChar (n := 10) (by decide) hmem
  exact hbreak ▸ hc

end RemoteHost.Text
