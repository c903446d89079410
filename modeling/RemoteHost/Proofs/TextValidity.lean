import Mathlib.Tactic.SplitIfs
import RemoteHost.Proofs.TextBytes

/-!
# Bytes that are text

Bytes are read as a text exactly if they are the bytes of one, and then as that one. So what is
called no text are the byte sequences that no text is written as.
-/

namespace RemoteHost.Text

theorem toNat_val_ofNat {n : Nat} (h : n.isValidChar) : (Char.ofNat n).val.toNat = n := by
  rw [Char.ofNat, dif_pos h]
  rfl

theorem decodeAfter_eq_drop (skip : Nat) (bs : List UInt8) :
    decodeAfter skip bs = decodeAfter 0 (bs.drop skip) := by
  induction skip generalizing bs with
  | zero => rfl
  | succ skip ih =>
    cases bs with
    | nil => rfl
    | cons b rest => rw [decodeAfter, ih, List.drop_succ_cons]

theorem continuation?_succ_eq_some {count acc low high n : Nat} {rest : List UInt8}
    (h : continuation? (count + 1) acc low high rest = some n) : ∃ b later, rest = b :: later ∧
      low ≤ b.toNat ∧ b.toNat ≤ high ∧
      continuation? count (64 * acc + b.toNat % 64) 0x80 0xBF later = some n := by
  cases rest with
  | nil => cases h
  | cons b later =>
    rw [continuation?] at h
    split at h
    · rename_i hbounds
      exact ⟨b, later, rfl, hbounds.1, hbounds.2, h⟩
    · cases h

/-- The leading bytes of sequences of each length, with the bounds of the byte after them. -/
theorem sequenceShape_eq_some {lead count low high : Nat}
    (h : sequenceShape lead = some (count, low, high)) :
    (count = 1 ∧ 0xC2 ≤ lead ∧ lead ≤ 0xDF ∧ low = 0x80 ∧ high = 0xBF) ∨
      (count = 2 ∧ 0xE0 ≤ lead ∧ lead ≤ 0xEF ∧ 0x80 ≤ low ∧ high ≤ 0xBF ∧
        (lead = 0xE0 → low = 0xA0) ∧ (lead = 0xED → high = 0x9F)) ∨
      (count = 3 ∧ 0xF0 ≤ lead ∧ lead ≤ 0xF4 ∧ 0x80 ≤ low ∧ high ≤ 0xBF ∧
        (lead = 0xF0 → low = 0x90) ∧ (lead = 0xF4 → high = 0x8F)) := by
  unfold sequenceShape at h
  split_ifs at h <;> cases h <;> omega

/-- A leading byte and the bytes taken after it are the bytes of the character that was read. -/
theorem encode_of_continuation {lead : UInt8} {count low high n : Nat} {rest : List UInt8}
    (hshape : sequenceShape lead.toNat = some (count, low, high))
    (h : continuation? count (leadBits count lead.toNat) low high rest = some n) :
    lead :: rest = String.utf8EncodeChar (Char.ofNat n) ++ rest.drop count := by
  have pow : Nat.pow 2 5 = 32 ∧ Nat.pow 2 4 = 16 ∧ Nat.pow 2 3 = 8 := by decide
  have byte : ∀ {b : UInt8} {m : Nat}, m = b.toNat → UInt8.ofNat m = b := by
    rintro b m rfl
    exact UInt8.ofNat_toNat
  rcases sequenceShape_eq_some hshape with hone | htwo | hthree
  · obtain ⟨rfl, hlow, hhigh, rfl, rfl⟩ := hone
    obtain ⟨b, later, rfl, hb, hb', h⟩ := continuation?_succ_eq_some h
    simp only [continuation?, leadBits, pow, Option.some.injEq] at h
    have hvalid : n.isValidChar := .inl (by omega)
    have hvalue := toNat_val_ofNat hvalid
    rw [String.utf8EncodeChar]
    simp only [hvalue]
    rw [if_neg (by omega), if_pos (by omega), byte (b := lead) (by omega), byte (b := b) (by omega)]
    rfl
  · obtain ⟨rfl, hlow, hhigh, hfirst, hlast, hfewest, hsurrogate⟩ := htwo
    obtain ⟨b, later, rfl, hb, hb', h⟩ := continuation?_succ_eq_some h
    obtain ⟨c, later, rfl, hc, hc', h⟩ := continuation?_succ_eq_some h
    simp only [continuation?, leadBits, pow, Option.some.injEq] at h
    have hvalid : n.isValidChar := by
      change n < 0xD800 ∨ 0xDFFF < n ∧ n < 0x110000
      omega
    have hvalue := toNat_val_ofNat hvalid
    rw [String.utf8EncodeChar]
    simp only [hvalue]
    rw [if_neg (by omega), if_neg (by omega), if_pos (by omega), byte (b := lead) (by omega),
      byte (b := b) (by omega), byte (b := c) (by omega)]
    rfl
  · obtain ⟨rfl, hlow, hhigh, hfirst, hlast, hfewest, hmost⟩ := hthree
    obtain ⟨b, later, rfl, hb, hb', h⟩ := continuation?_succ_eq_some h
    obtain ⟨c, later, rfl, hc, hc', h⟩ := continuation?_succ_eq_some h
    obtain ⟨d, later, rfl, hd, hd', h⟩ := continuation?_succ_eq_some h
    simp only [continuation?, leadBits, pow, Option.some.injEq] at h
    have hvalid : n.isValidChar := .inr ⟨by omega, by omega⟩
    have hvalue := toNat_val_ofNat hvalid
    rw [String.utf8EncodeChar]
    simp only [hvalue]
    rw [if_neg (by omega), if_neg (by omega), if_neg (by omega), byte (b := lead) (by omega),
      byte (b := b) (by omega), byte (b := c) (by omega), byte (b := d) (by omega)]
    rfl

theorem encode_of_lt {b : UInt8} (h : b < 0x80) :
    String.utf8EncodeChar (Char.ofNat b.toNat) = [b] := by
  have hlt : b.toNat < 0x80 := UInt8.lt_iff_toNat_lt.mp h
  have hvalue := toNat_val_ofNat (n := b.toNat) (.inl (by omega))
  rw [String.utf8EncodeChar]
  simp only [hvalue]
  rw [if_pos (by omega), UInt8.ofNat_toNat]

/-- Bytes that are read without a stray byte are those of the characters that were read. -/
theorem eq_flatMap_of_decodeAfter {cs : List Char} {bs : List UInt8}
    (h : decodeAfter 0 bs = cs.map .char) : bs = cs.flatMap String.utf8EncodeChar := by
  -- the bytes of a character are read at once, so the induction is on how many bytes there are
  induction hlength : bs.length using Nat.strongRecOn generalizing bs cs with
  | ind n ih =>
    subst hlength
    cases bs with
    | nil =>
      rw [List.map_eq_nil_iff.mp h.symm]
      rfl
    | cons b rest =>
      have first : ∀ {m : Nat} {skip : Nat},
          .char (Char.ofNat m) :: decodeAfter skip rest = cs.map .char →
          b :: rest = String.utf8EncodeChar (Char.ofNat m) ++ rest.drop skip →
          b :: rest = cs.flatMap String.utf8EncodeChar := by
        intro m skip hread hbytes
        obtain ⟨c, later, rfl, hc, hlater⟩ := List.map_eq_cons_iff.mp hread.symm
        cases hc
        rw [decodeAfter_eq_drop] at hlater
        have hshort : (rest.drop skip).length < (b :: rest).length := by
          rw [List.length_drop, List.length_cons]
          omega
        rw [List.flatMap_cons, ← ih _ hshort hlater.symm rfl, hbytes]
      rw [decodeAfter] at h
      split at h
      · rename_i hascii
        exact first h (by rw [encode_of_lt hascii]; rfl)
      · split at h
        · obtain ⟨c, later, -, hc, -⟩ := List.map_eq_cons_iff.mp h.symm
          cases hc
        · rename_i count low high hshape
          split at h
          · rename_i m hcontinued
            exact first h (encode_of_continuation hshape hcontinued)
          · obtain ⟨c, later, -, hc, -⟩ := List.map_eq_cons_iff.mp h.symm
            cases hc

theorem characters?_eq_some {text : List Glyph} {cs : List Char} (h : characters? text = some cs) :
    text = cs.map .char := by
  induction text generalizing cs with
  | nil =>
    cases h
    rfl
  | cons glyph rest ih =>
    cases glyph with
    | stray byte => simp [characters?, Glyph.char?] at h
    | char c =>
      obtain ⟨later, hlater, rfl⟩ : ∃ later, characters? rest = some later ∧ c :: later = cs := by
        simpa [characters?, List.mapM_cons, Glyph.char?, Option.bind_eq_some_iff] using h
      rw [ih hlater, List.map_cons]

/-- Bytes are read as a text exactly if they are its bytes. -/
theorem decode?_eq_some_iff {bs : List UInt8} {text : String} :
    decode? bs = some text ↔ bytes text = bs := by
  constructor
  · intro h
    obtain ⟨cs, hcs, rfl⟩ := Option.map_eq_some_iff.mp h
    rw [bytes_eq, String.toList_ofList]
    exact (eq_flatMap_of_decodeAfter (characters?_eq_some hcs)).symm
  · rintro rfl
    exact decode?_bytes text

end RemoteHost.Text
