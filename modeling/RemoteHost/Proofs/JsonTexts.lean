import Mathlib.Data.List.DropRight
import Mathlib.Tactic.SplitIfs
import RemoteHost.Json.Reader
import RemoteHost.Proofs.EnvelopeFormat

/-!
# JSON that is read back

Strings, whole numbers and the words of JSON are read back as they were written, whatever follows
them, and so are objects of such values.
-/

namespace RemoteHost.Json

open Text (Glyph)

/-- The glyphs of characters. -/
def spelled (cs : List Char) : List Glyph := cs.map .char

@[simp] theorem spelled_nil : spelled [] = [] := rfl

@[simp] theorem spelled_cons (c : Char) (cs : List Char) :
    spelled (c :: cs) = .char c :: spelled cs := rfl

@[simp] theorem spelled_append (cs cs' : List Char) :
    spelled (cs ++ cs') = spelled cs ++ spelled cs' := List.map_append

@[simp] theorem length_spelled (cs : List Char) : (spelled cs).length = cs.length :=
  List.length_map ..

variable {rest : List Glyph}

/-! ## Strings -/

theorem le_byteCount (text : List Glyph) : text.length ≤ Text.byteCount text := by
  have hfold : ∀ n, n + text.length ≤ text.foldl (fun n g => n + g.width) n := by
    induction text with
    | nil => exact fun n => Nat.le_refl n
    | cons g text ih =>
      intro n
      have hwidth : 1 ≤ g.width := by
        cases g with
        | char c => exact c.utf8Size_pos
        | stray _ => exact Nat.le_refl 1
      have hrest := ih (n + g.width)
      rw [List.foldl_cons, List.length_cons]
      omega
  simpa [Text.byteCount] using hfold 0

theorem hexUnit_hexFixed {n : Nat} (h : n < Nat.pow 16 4) :
    hexUnit (spelled (Text.hexFixed 4 n) ++ rest) = .ok n := by
  have htake : (spelled (Text.hexFixed 4 n) ++ rest).take 4 = spelled (Text.hexFixed 4 n) :=
    List.take_left' (by simp)
  have hlong : ¬ Text.byteCount (spelled (Text.hexFixed 4 n)) < 4 := by
    have hlength := le_byteCount (spelled (Text.hexFixed 4 n))
    simp only [length_spelled, Text.length_hexFixed] at hlength
    omega
  have hcharacters : (spelled (Text.hexFixed 4 n)).mapM Glyph.char? =
      some (Text.hexFixed 4 n) := Text.characters?_map_char _
  have hread := Text.readHex_hexFixed 4 n 0 []
  rw [List.append_nil, Nat.mod_eq_of_lt h] at hread
  rw [hexUnit, htake, if_neg hlong, hcharacters, Option.bind_some, hread]
  simp

/-- An escape with hexadecimal digits of a character that is no surrogate. -/
theorem unicodeEscape_hexFixed {c : Char} (h : c.toNat < 0xD800) :
    unicodeEscape (spelled (Text.hexFixed 4 c.toNat) ++ rest) = .ok (c, 4) := by
  have hunit : hexUnit (spelled (Text.hexFixed 4 c.toNat) ++ rest) = .ok c.toNat :=
    hexUnit_hexFixed (Nat.lt_trans h (by decide))
  have hlow : ¬ (0xDC00 ≤ c.toNat ∧ c.toNat ≤ 0xDFFF) := by omega
  simp only [unicodeEscape, hunit, bind, Except.bind, if_neg hlow, if_pos (Or.inl h),
    Char.ofNat_toNat]

/-- What belongs to an escape that was read is passed over. -/
theorem readStringFrom_skip (done : List Char) (doubtful : Option Nat) (skipped : List Glyph) :
    readStringFrom done doubtful skipped.length (skipped ++ rest) =
      readStringFrom done doubtful 0 rest := by
  induction skipped with
  | nil => rfl
  | cons g skipped ih => exact ih

theorem readStringFrom_escape {done : List Char} {c : Char} (escape : List Glyph)
    (h : escapeAt (escape ++ rest) = .ok (c, escape.length)) :
    readStringFrom done none 0 (.char '\\' :: (escape ++ rest)) =
      readStringFrom (c :: done) none 0 rest := by
  have hquote : ('\\' : Char) ≠ '"' := by decide
  rw [readStringFrom, if_neg hquote, if_pos rfl, h]
  exact readStringFrom_skip (c :: done) none escape

/-- A character as it is written in a string is read as that character. -/
theorem readStringFrom_escapedChar (done : List Char) (c : Char) :
    readStringFrom done none 0 (spelled (escapedChar c) ++ rest) =
      readStringFrom (c :: done) none 0 rest := by
  have short : ∀ {letter : Char}, escapeAt (.char letter :: rest) = .ok (c, 1) →
      readStringFrom done none 0 (spelled ['\\', letter] ++ rest) =
        readStringFrom (c :: done) none 0 rest :=
    fun {letter} h => readStringFrom_escape [.char letter] h
  unfold escapedChar
  split_ifs with hquote hbackslash hb hf hn hr ht hcontrol
  · exact short (by rw [hquote]; rfl)
  · exact short (by rw [hbackslash]; rfl)
  · exact short (by rw [hb]; rfl)
  · exact short (by rw [hf]; rfl)
  · exact short (by rw [hn]; rfl)
  · exact short (by rw [hr]; rfl)
  · exact short (by rw [ht]; rfl)
  · have hescape : escapeAt (spelled ('u' :: Text.hexFixed 4 c.toNat) ++ rest) = .ok (c, 5) := by
      rw [spelled_cons, List.cons_append, escapeAt,
        unicodeEscape_hexFixed (Nat.lt_trans hcontrol (by decide))]
      rfl
    refine readStringFrom_escape (spelled ('u' :: Text.hexFixed 4 c.toNat)) ?_
    simpa using hescape
  · rw [spelled_cons, spelled_nil, List.singleton_append, readStringFrom, if_neg hquote,
      if_neg hbackslash, if_neg hcontrol]
    rfl

/-- A string is read back, whatever characters it has. -/
theorem readString_chars (text : String) :
    readString (spelled (text.toList.flatMap escapedChar ++ ['"']) ++ rest) = .ok (text, rest) := by
  have onto : ∀ (cs done : List Char),
      readStringFrom done none 0 (spelled (cs.flatMap escapedChar ++ ['"']) ++ rest) =
        .ok (String.ofList (done.reverse ++ cs), rest) := by
    intro cs
    induction cs with
    | nil =>
      intro done
      simp [readStringFrom]
    | cons c cs ih =>
      intro done
      rw [List.flatMap_cons, List.append_assoc, spelled_append, List.append_assoc,
        readStringFrom_escapedChar, ih, List.reverse_cons, List.append_assoc,
        List.singleton_append]
  simpa [readString] using onto text.toList []

/-! ## Whole numbers -/

/-- Text that a number before it does not run on into. -/
def EndsNumber (rest : List Glyph) : Prop :=
  ∀ g ∈ rest.head?, digitValue? g = none ∧ g ∉ [.char '.', .char 'e', .char 'E']

theorem endsNumber_cons {c : Char} (hdigit : c.isDigit = false) (hc : c ∉ ['.', 'e', 'E'])
    (rest : List Glyph) : EndsNumber (.char c :: rest) := by
  rintro _ ⟨⟩
  refine ⟨by simp [digitValue?, hdigit], ?_⟩
  simpa using hc

theorem digitValue?_of_isDigit {c : Char} (h : c.isDigit = true) :
    digitValue? (.char c) = some (c.toNat - 48) := by
  rw [digitValue?, if_pos h]

theorem le_ofDigitChars (cs : List Char) (n : Nat) : n ≤ Nat.ofDigitChars 10 cs n := by
  induction cs generalizing n with
  | nil => exact Nat.le_refl n
  | cons c cs ih =>
    rw [Nat.ofDigitChars_cons]
    have hrest := ih (10 * n + (c.toNat - '0'.toNat))
    omega

/-- Digits that make up a number of at most 64 bits are all taken. -/
theorem spanDigits_run {cs : List Char} (hdigits : ∀ c ∈ cs, c.isDigit = true)
    (hrest : ∀ g ∈ rest.head?, digitValue? g = none) (digits : Digits) (hnone : digits.dropped = 0)
    (hsmall : Nat.ofDigitChars 10 cs digits.value < Nat.pow 2 64) :
    spanDigits digits (spelled cs ++ rest) =
      (⟨Nat.ofDigitChars 10 cs digits.value, digits.taken + cs.length, 0⟩, rest) := by
  induction cs generalizing digits with
  | nil =>
    obtain ⟨value, taken, dropped⟩ := digits
    cases hnone
    cases rest with
    | nil => rfl
    | cons g rest => simp [spanDigits, hrest g rfl]
  | cons c cs ih =>
    rw [Nat.ofDigitChars_cons] at hsmall ⊢
    have hvalue : 10 * digits.value + (c.toNat - 48) < Nat.pow 2 64 :=
      Nat.lt_of_le_of_lt (le_ofDigitChars cs _) hsmall
    have hadd : digits.add (c.toNat - 48) =
        ⟨10 * digits.value + (c.toNat - 48), digits.taken + 1, 0⟩ := by
      simp [Digits.add, hnone, hvalue]
    rw [spelled_cons, List.cons_append, spanDigits,
      digitValue?_of_isDigit (hdigits c List.mem_cons_self)]
    dsimp only
    rw [hadd, ih (fun c hc => hdigits c (List.mem_cons_of_mem _ hc)) _ rfl hsmall]
    simp only [List.length_cons, Nat.add_assoc, Nat.add_comm 1]
    rfl

/-- Only zero is written with a zero at its start. -/
theorem eq_zero_of_toDigits {n : Nat} {cs : List Char} (h : Nat.toDigits 10 n = '0' :: cs) :
    n = 0 := by
  induction n using Nat.strongRecOn generalizing cs with
  | _ n ih =>
    rw [Nat.toDigits_eq_if (by decide)] at h
    split_ifs at h with hsmall
    · have hdigit : ∀ k : Fin 10, Nat.digitChar k = '0' → k = 0 := by decide
      exact congrArg Fin.val (hdigit ⟨n, hsmall⟩ (List.cons.inj h).1)
    · obtain ⟨c, front, hfront⟩ :=
        List.exists_cons_of_ne_nil (@Nat.toDigits_ne_nil (n / 10) 10)
      rw [hfront, List.cons_append] at h
      obtain ⟨rfl, -⟩ := List.cons.inj h
      have hzero := ih (n / 10) (by omega) hfront
      omega

theorem readScale_of_ends (hrest : EndsNumber rest) (atEnd : ReadCause) (numeral : Numeral) :
    readScale atEnd numeral rest = .ok (numeral, rest) := by
  unfold readScale
  split
  · exact absurd (by simp) (hrest _ rfl).2
  · exact absurd (by simp) (hrest _ rfl).2
  · rfl

/-- A whole number without a fraction or an exponent. -/
theorem readFraction_of_ends (hrest : EndsNumber rest) (atEnd : ReadCause) (value taken : Nat) :
    readFraction atEnd ⟨value, taken, 0⟩ rest =
      .ok ({ digits := value, integral := true }, rest) := by
  unfold readFraction
  split
  · exact absurd (by simp) (hrest _ rfl).2
  · rw [readScale_of_ends hrest]
    rfl

theorem readNumeral_toDigits {n : Nat} (hn : n < Nat.pow 2 64) (hrest : EndsNumber rest)
    (atEnd : ReadCause) : readNumeral atEnd (spelled (Nat.toDigits 10 n) ++ rest) =
      .ok ({ digits := n, integral := true }, rest) := by
  have hdigits : ∀ c ∈ Nat.toDigits 10 n, c.isDigit = true :=
    fun _ hc => Nat.isDigit_of_mem_toDigits (by decide) (by decide) hc
  have hvalue : Nat.ofDigitChars 10 (Nat.toDigits 10 n) 0 = n := Nat.ofDigitChars_ten_toDigits
  have hspan := spanDigits_run hdigits (fun g hg => (hrest g hg).1) ⟨0, 0, 0⟩ rfl
    (by rwa [hvalue])
  obtain ⟨c, cs, hcs⟩ := List.exists_cons_of_ne_nil (@Nat.toDigits_ne_nil n 10)
  -- no digit may follow a leading zero, so that only zero itself starts with one
  by_cases hzero : c = '0'
  · subst hzero
    obtain rfl := eq_zero_of_toDigits hcs
    have hnot : (rest.head?.bind digitValue?).isSome = false := by
      cases hhead : rest.head? with
      | none => rfl
      | some g => simp [(hrest g hhead).1]
    have htext : spelled (Nat.toDigits 10 0) ++ rest = .char '0' :: rest := rfl
    rw [htext, readNumeral, hnot]
    exact readFraction_of_ends hrest atEnd 0 1
  · have hdigit : digitValue? (.char c) = some (c.toNat - 48) :=
      digitValue?_of_isDigit (hdigits c (by simp [hcs]))
    rw [hvalue, hcs, spelled_cons, List.cons_append] at hspan
    rw [hcs, spelled_cons, List.cons_append]
    unfold readNumeral
    split
    · cases ‹_ = []›
    · rename_i heq
      exact absurd (Glyph.char.inj (List.cons.inj heq).1) hzero
    · rename_i heq
      obtain ⟨rfl, -⟩ := List.cons.inj heq
      rw [hdigit]
      dsimp only
      rw [hspan]
      exact readFraction_of_ends hrest atEnd n _

theorem readNumber_toDigits {n : Nat} (hn : n < Nat.pow 2 64) (hrest : EndsNumber rest) :
    readNumber false (spelled (Nat.toDigits 10 n) ++ rest) = .ok (.integer n, rest) := by
  rw [readNumber, readNumeral_toDigits hn hrest]
  rfl

/-! ## Scalars -/

/-- A scalar at the start of a text, and the text after it. -/
inductive ScalarAt : Json → List Glyph → List Glyph → Prop where
  | null {text rest} (h : readWord () "ull".toList text = .ok ((), rest)) :
      ScalarAt .null (.char 'n' :: text) rest
  | true {text rest} (h : readWord () "rue".toList text = .ok ((), rest)) :
      ScalarAt (.bool true) (.char 't' :: text) rest
  | false {text rest} (h : readWord () "alse".toList text = .ok ((), rest)) :
      ScalarAt (.bool false) (.char 'f' :: text) rest
  | string {value text rest} (h : readString text = .ok (value, rest)) :
      ScalarAt (.string value) (.char '"' :: text) rest
  | negative {n text rest} (h : readNumber true text = .ok (n, rest)) :
      ScalarAt (.number n) (.char '-' :: text) rest
  | digit {c n text rest} (hdigit : c.isDigit = Bool.true)
      (h : readNumber Bool.false (.char c :: text) = .ok (n, rest)) :
      ScalarAt (.number n) (.char c :: text) rest

theorem readWord_eq {α : Type} (value : α) (word : List Char) (text : List Glyph) :
    readWord value word text = (readWord () word text).map fun found => (value, found.2) := by
  induction word generalizing text with
  | nil => rfl
  | cons c word ih =>
    cases text with
    | nil => rfl
    | cons g text =>
      rw [readWord, readWord, ih]
      split_ifs <;> rfl

theorem readWord_of_unit {α : Type} {value : α} {word : List Char} {text : List Glyph}
    (h : readWord () word text = .ok ((), rest)) :
    readWord value word text = .ok (value, rest) := by
  rw [readWord_eq, h]
  rfl

theorem readWord_chars (word : List Char) :
    readWord () word (spelled word ++ rest) = .ok ((), rest) := by
  induction word with
  | nil => rfl
  | cons c word ih => rw [spelled_cons, List.cons_append, readWord, if_pos rfl, ih]

/-- A scalar that is read back as it was written. -/
inductive IsPlain : Json → Prop where
  | null : IsPlain .null
  | bool (b : Bool) : IsPlain (.bool b)
  | string (text : String) : IsPlain (.string text)
  | count {n : Nat} (h : n < Nat.pow 2 64) : IsPlain (.ofNat n)

theorem scalarAt_chars {v : Json} (hv : v.IsPlain) (hrest : EndsNumber rest) :
    ScalarAt v (spelled v.chars ++ rest) rest := by
  cases hv with
  | null => exact .null (readWord_chars _)
  | bool b =>
    cases b with
    | true => exact .true (readWord_chars _)
    | false => exact .false (readWord_chars _)
  | string text => exact .string (readString_chars text)
  | @count n h =>
    have hchars : (Json.ofNat n).chars = Nat.toDigits 10 n := Decimal.wholeChars_natCast n
    have hread := readNumber_toDigits h hrest
    obtain ⟨c, cs, hcs⟩ := List.exists_cons_of_ne_nil (@Nat.toDigits_ne_nil n 10)
    have hc : c.isDigit = true :=
      Nat.isDigit_of_mem_toDigits (b := 10) (n := n) (by decide) (by decide) (by simp [hcs])
    rw [hcs, spelled_cons, List.cons_append] at hread
    rw [hchars, hcs, spelled_cons, List.cons_append]
    exact .digit hc hread

theorem skipBlanks_cons {g : Glyph} (h : isBlankGlyph g = false) (text : List Glyph) :
    skipBlanks (g :: text) = g :: text := by
  rw [skipBlanks, List.dropWhile_cons_of_neg (by simp [h])]

theorem ne_of_isDigit {c d : Char} (hc : c.isDigit = true) (hd : d.isDigit = false) :
    Glyph.char c ≠ .char d := by
  rintro ⟨⟩
  rw [hc] at hd
  cases hd

theorem isBlankGlyph_of_isDigit {c : Char} (hc : c.isDigit = true) :
    isBlankGlyph (.char c) = false := by
  have hne : ∀ d : Char, d.isDigit = false → (Glyph.char c == .char d) = false := fun d hd =>
    beq_false_of_ne (ne_of_isDigit hc hd)
  simp [isBlankGlyph, hne]

theorem ScalarAt.skipBlanks_eq {v : Json} {text : List Glyph} (h : ScalarAt v text rest) :
    skipBlanks text = text := by
  cases h with
  | digit hdigit => exact skipBlanks_cons (isBlankGlyph_of_isDigit hdigit) _
  | _ => exact skipBlanks_cons rfl _

theorem readValueWith_digit {c : Char} (hc : c.isDigit = true) (fuel depth : Nat)
    (text : List Glyph) : readValueWith (fuel + 1) depth (.char c :: text) =
      (readNumber false (.char c :: text)).map fun found => (.number found.1, found.2) := by
  have hdigit : (digitValue? (.char c)).isSome = true := by rw [digitValue?_of_isDigit hc]; rfl
  rw [readValueWith, skipBlanks_cons (isBlankGlyph_of_isDigit hc)]
  split
  case h_1 heq => cases heq
  case h_9 heq =>
    obtain ⟨rfl, rfl⟩ := List.cons.inj heq
    rw [if_pos hdigit]
    cases readNumber false (.char c :: text) <;> rfl
  all_goals
    rename_i heq
    cases heq
    exact absurd hc (by decide)

theorem skipBlanks_skipBlanks (text : List Glyph) :
    skipBlanks (skipBlanks text) = skipBlanks text := by
  rw [skipBlanks, skipBlanks, List.dropWhile_idempotent]

theorem readValueWith_skipBlanks (fuel depth : Nat) (text : List Glyph) :
    readValueWith (fuel + 1) depth (skipBlanks text) = readValueWith (fuel + 1) depth text := by
  rw [readValueWith, readValueWith, skipBlanks_skipBlanks]

theorem ScalarAt.readValueWith_eq {v : Json} {text : List Glyph}
    (h : ScalarAt v (skipBlanks text) rest) (fuel depth : Nat) :
    readValueWith (fuel + 1) depth text = .ok (v, rest) := by
  rw [← readValueWith_skipBlanks]
  generalize skipBlanks text = start at h
  cases h with
  | null h | true h | false h => exact readWord_of_unit h
  | @string value text _ h =>
    change (readString text >>= _) = _
    rw [h]
    rfl
  | @negative n text _ h =>
    change (readNumber Bool.true text >>= _) = _
    rw [h]
    rfl
  | digit hdigit h =>
    rw [readValueWith_digit hdigit, h]
    rfl

/-- A value without parts. -/
def IsScalar : Json → Prop
  | .array _ | .object _ => False
  | _ => True

theorem scalarAt_of_readValueWith {v : Json} {fuel depth : Nat} {text : List Glyph}
    (hread : readValueWith (fuel + 1) depth text = .ok (v, rest)) (hscalar : v.IsScalar) :
    ScalarAt v (skipBlanks text) rest := by
  have word : ∀ {value : Json} {word : List Char} {more : List Glyph},
      readWord value word more = .ok (v, rest) →
        value = v ∧ readWord () word more = .ok ((), rest) := by
    intro value word more h
    rw [readWord_eq, Envelope.map_eq_ok] at h
    obtain ⟨⟨⟨⟩, _⟩, h, ⟨⟩⟩ := h
    exact ⟨rfl, h⟩
  rw [readValueWith] at hread
  split at hread
  case h_1 => cases hread
  case h_2 heq =>
    obtain ⟨rfl, h⟩ := word hread
    exact heq ▸ .null h
  case h_3 heq =>
    obtain ⟨rfl, h⟩ := word hread
    exact heq ▸ .true h
  case h_4 heq =>
    obtain ⟨rfl, h⟩ := word hread
    exact heq ▸ .false h
  case h_5 heq =>
    obtain ⟨⟨value, _⟩, h, ⟨⟩⟩ := Envelope.bind_eq_ok.mp hread
    exact heq ▸ .string h
  case h_6 heq =>
    obtain ⟨⟨n, _⟩, h, ⟨⟩⟩ := Envelope.bind_eq_ok.mp hread
    exact heq ▸ .negative h
  case h_7 heq =>
    split_ifs at hread
    split at hread
    · cases hread
      exact hscalar.elim
    · cases hread
    · obtain ⟨_, -, ⟨⟩⟩ := Envelope.bind_eq_ok.mp hread
      exact hscalar.elim
  case h_8 heq =>
    split_ifs at hread
    obtain ⟨_, -, ⟨⟩⟩ := Envelope.bind_eq_ok.mp hread
    exact hscalar.elim
  case h_9 g more _ _ _ _ _ _ _ heq =>
    split_ifs at hread with hdigit
    obtain ⟨⟨n, _⟩, h, ⟨⟩⟩ := Envelope.bind_eq_ok.mp hread
    cases g with
    | stray _ => cases hdigit
    | char c =>
      refine heq ▸ .digit ?_ h
      by_contra hc
      rw [digitValue?, if_neg hc] at hdigit
      cases hdigit

end RemoteHost.Json
