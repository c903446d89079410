import Mathlib.Tactic.SplitIfs
import RemoteHost.Literal.Quoted

/-!
# Quoted strings end where they end

Every character is spelled in one of three ways: by an escape with a letter of its own, by itself,
or by an escape with as many hexadecimal digits as its letter says. A reader that meets a spelling
takes all of it and nothing after it, so a literal is read back whole whatever source follows it.
-/

namespace RemoteHost.Literal

/-- Printable characters of ASCII other than the dollar sign. -/
def IsTame (c : Char) : Prop := 0x20 ≤ c.toNat ∧ c.toNat ≤ 0x7E ∧ c ≠ '$'

instance (c : Char) : Decidable (IsTame c) := inferInstanceAs (Decidable (_ ∧ _ ∧ _))

/-- The ways to spell a character inside a literal. -/
inductive Spelling (c : Char) : List Char → Prop
  | letter (e : Char) (he : plainEscape? e = some c) : Spelling c ['\\', e]
  | itself (hc : IsTame c) (hq : c ≠ '\'') (hb : c ≠ '\\') : Spelling c [c]
  | coded (l : Char) (width : Nat) (hl : escapeWidth? l = some width)
      (hn : c.toNat < Nat.pow 16 width) : Spelling c ('\\' :: l :: Text.hexFixed width c.toNat)

theorem toNat_lt_pow_eight (c : Char) : c.toNat < Nat.pow 16 8 := by
  have h : c.toNat < 0xD800 ∨ 0xDFFF < c.toNat ∧ c.toNat < 0x110000 := c.valid
  have power : Nat.pow 16 8 = 4294967296 := rfl
  omega

theorem spelling_quotedChar (c : Char) : Spelling c (quotedChar c) := by
  unfold quotedChar
  split_ifs with hb hq hd hn hr ht hs hp hx hu
  · subst hb; exact .letter '\\' rfl
  · subst hq; exact .letter '\'' rfl
  · subst hd; exact .letter '"' rfl
  · subst hn; exact .letter 'n' rfl
  · subst hr; exact .letter 'r' rfl
  · subst ht; exact .letter 't' rfl
  · subst hs; exact .coded 'x' 2 rfl (by decide)
  · exact .itself ⟨hp.1, hp.2, hs⟩ hq hb
  · exact .coded 'x' 2 rfl hx
  · exact .coded 'u' 4 rfl hu
  · exact .coded 'U' 8 rfl (toNat_lt_pow_eight c)

/-! ## Reading a spelling back -/

theorem readQuotedBody_skip (taken rest : List Char) :
    readQuotedBody taken.length (taken ++ rest) = readQuotedBody 0 rest := by
  induction taken with
  | nil => rfl
  | cons c taken ih => simpa [readQuotedBody] using ih

theorem readQuotedBody_escape {taken rest : List Char} {c : Char}
    (h : escape? (taken ++ rest) = some (c, taken.length)) :
    readQuotedBody 0 ('\\' :: (taken ++ rest)) =
      (readQuotedBody 0 rest).map fun read => (c :: read.1, read.2) := by
  have back : ('\\' : Char) ≠ '\'' ∧ ('\\' : Char) ≠ '\n' ∧ ('\\' : Char) ≠ '\r' := by decide
  simp only [readQuotedBody, back, or_self, if_false, if_true, h]
  simp only [Option.bind_eq_bind, Option.bind_some, readQuotedBody_skip]
  cases readQuotedBody 0 rest <;> rfl

theorem readQuotedBody_itself {c : Char} {rest : List Char} (hc : IsTame c) (hq : c ≠ '\'')
    (hb : c ≠ '\\') : readQuotedBody 0 (c :: rest) =
      (readQuotedBody 0 rest).map fun read => (c :: read.1, read.2) := by
  have hn : ¬ (c = '\n' ∨ c = '\r') := by
    rintro (rfl | rfl) <;> exact absurd hc (by decide)
  simp only [readQuotedBody, hq, hn, hb, if_false]
  cases readQuotedBody 0 rest <;> rfl

theorem plainEscape?_width {l : Char} {width : Nat} (h : escapeWidth? l = some width) :
    plainEscape? l = none := by
  unfold escapeWidth? at h
  split at h <;> first | rfl | cases h

/-- Digits that are enough for a character are read back as the character. -/
theorem escape?_coded {c l : Char} {width : Nat} (hl : escapeWidth? l = some width)
    (hn : c.toNat < Nat.pow 16 width) (rest : List Char) :
    escape? (l :: (Text.hexFixed width c.toNat ++ rest)) = some (c, width + 1) := by
  have valid : c.toNat.isValidChar := c.valid
  have read := Text.readHex_hexFixed width c.toNat 0 rest
  rw [Nat.mul_zero, Nat.zero_add, Nat.mod_eq_of_lt hn] at read
  rw [escape?, plainEscape?_width hl, hl, Option.bind_eq_bind, Option.bind_some, read,
    Option.bind_eq_bind, Option.bind_some]
  exact dif_pos valid

theorem Spelling.read {c : Char} {spelled : List Char} (h : Spelling c spelled)
    (rest : List Char) : readQuotedBody 0 (spelled ++ rest) =
      (readQuotedBody 0 rest).map fun read => (c :: read.1, read.2) := by
  cases h with
  | letter e he =>
    have taken : escape? ([e] ++ rest) = some (c, [e].length) := by simp [escape?, he]
    exact readQuotedBody_escape taken
  | itself hc hq hb => exact readQuotedBody_itself hc hq hb
  | coded l width hl hn =>
    have taken : escape? (l :: Text.hexFixed width c.toNat ++ rest) =
        some (c, (l :: Text.hexFixed width c.toNat).length) := by
      simpa using escape?_coded hl hn rest
    exact readQuotedBody_escape taken

theorem readQuotedBody_quoted (text rest : List Char) :
    readQuotedBody 0 (text.flatMap quotedChar ++ '\'' :: rest) = some (text, rest) := by
  induction text with
  | nil => simp [readQuotedBody]
  | cons c text ih =>
    rw [List.flatMap_cons, List.append_assoc, (spelling_quotedChar c).read, ih]
    rfl

theorem readQuoted_quotedChars (text rest : List Char) :
    readQuoted (quotedChars text ++ rest) = some (text, rest) := by
  have h := readQuotedBody_quoted text rest
  simpa [quotedChars, readQuoted] using h

/-! ## Which characters a literal is made of -/

theorem isTame_hexFixed (width n : Nat) : ∀ c ∈ Text.hexFixed width n, IsTame c :=
  fun _ hc => Text.of_mem_hexFixed (by decide) hc

theorem isTame_letter {e c : Char} (h : plainEscape? e = some c) : IsTame e := by
  unfold plainEscape? at h
  split at h <;> first | decide | cases h

theorem isTame_width {l : Char} {width : Nat} (h : escapeWidth? l = some width) : IsTame l := by
  unfold escapeWidth? at h
  split at h <;> first | decide | cases h

theorem Spelling.isTame {c : Char} {spelled : List Char} (h : Spelling c spelled) :
    ∀ d ∈ spelled, IsTame d := by
  have back : IsTame '\\' := by decide
  cases h with
  | letter e he => simpa [back] using isTame_letter he
  | itself hc hq hb => simpa using hc
  | coded l width hl hn => simpa [back, isTame_width hl] using isTame_hexFixed width c.toNat

theorem isTame_quotedChars (text : List Char) : ∀ c ∈ quotedChars text, IsTame c := by
  have quote : IsTame '\'' := by decide
  intro c hc
  simp only [quotedChars, List.cons_append, List.mem_cons, List.mem_append, List.mem_flatMap,
    List.not_mem_nil, or_false] at hc
  rcases hc with rfl | ⟨d, _, hd⟩ | rfl
  · exact quote
  · exact (spelling_quotedChar d).isTame c hd
  · exact quote

/-! ## Literals among other text -/

theorem toList_quoted (text : String) : (quoted text).toList = quotedChars text.toList := by
  simp [quoted]

theorem readQuoted_quoted (text rest : String) :
    readQuoted (quoted text ++ rest).toList = some (text.toList, rest.toList) := by
  rw [String.toList_append, toList_quoted, readQuoted_quotedChars]

/-- No literal begins another one. -/
theorem eq_of_quoted_isPrefix {a b : String} (h : (quoted a).toList <+: (quoted b).toList) :
    a = b := by
  obtain ⟨tail, htail⟩ := h
  have ha : readQuoted (quoted b).toList = some (a.toList, tail) := by
    rw [← htail, toList_quoted, readQuoted_quotedChars]
  have hb : readQuoted (quoted b).toList = some (b.toList, []) := by
    simpa using readQuoted_quoted b ""
  rw [ha] at hb
  simp only [Option.some.injEq, Prod.mk.injEq] at hb
  exact String.toList_inj.mp hb.1

/-- A literal is read back to its text and ends where it ends, whatever follows it. It holds tame
characters only, and no literal is another one or begins it. -/
theorem quoted_injection_safe :
    (∀ text rest : String,
      readQuoted (quoted text ++ rest).toList = some (text.toList, rest.toList)) ∧
    (∀ text : String, ∀ c ∈ (quoted text).toList,
      0x20 ≤ c.toNat ∧ c.toNat ≤ 0x7E ∧ c ≠ '$') ∧
    (∀ a b : String, a ≠ b → quoted a ≠ quoted b) ∧
    (∀ a b : String, (quoted a).toList <+: (quoted b).toList → quoted a = quoted b) := by
  refine ⟨readQuoted_quoted, ?_, ?_, ?_⟩
  · intro text c hc
    rw [toList_quoted] at hc
    exact isTame_quotedChars _ c hc
  · intro a b hab h
    exact hab (eq_of_quoted_isPrefix (h ▸ List.prefix_rfl))
  · intro a b h
    rw [eq_of_quoted_isPrefix h]

end RemoteHost.Literal
