import RemoteHost.Proofs.Quoting
import RemoteHost.Proofs.TextReplacement

/-!
# Marks in literals

The characters of a mark are spelled by themselves in a literal, and no escape holds any of them
that a mark begins with. So a mark occurs in a literal where it occurs in the text of the literal.
If it is replaced there by another literal, the literal ends where the mark began.
-/

namespace RemoteHost.Literal

open Text (IsMark isMarkChar replaceEach beginsWith)

variable {c : Char} {v : String × String} {text mark : List Char}

/-! ## Spellings -/

theorem quotedChar_of_isMarkChar (h : isMarkChar c = true) : quotedChar c = [c] := by
  have hrange : c = '@' ∨ 65 ≤ c.toNat ∧ c.toNat ≤ 90 := by
    rw [isMarkChar, Bool.or_eq_true, beq_iff_eq] at h
    refine h.imp_right fun hupper => ?_
    have hval : 'A'.val ≤ c.val ∧ c.val ≤ 'Z'.val := of_decide_eq_true hupper
    simpa [UInt32.le_iff_toNat_le] using hval
  have hprintable : 0x20 ≤ c.toNat ∧ c.toNat ≤ 0x7E := by
    rcases hrange with rfl | hrange
    · decide
    · omega
  have hnone : ['\\', '\'', '"', '\n', '\r', '\t', '$'].all (fun c => !isMarkChar c) = true := by
    decide
  have hother : ∀ special ∈ ['\\', '\'', '"', '\n', '\r', '\t', '$'], c ≠ special := by
    rintro special hin rfl
    have hnot := List.all_eq_true.mp hnone c hin
    rw [h] at hnot
    cases hnot
  simp only [List.forall_mem_cons] at hother
  obtain ⟨hb, hq, hd, hn, hr, ht, hs, -⟩ := hother
  rw [quotedChar, if_neg hb, if_neg hq, if_neg hd, if_neg hn, if_neg hr, if_neg ht, if_neg hs,
    if_pos hprintable]

/-- Only the sign itself is spelled with a sign. -/
theorem sign_notMem_of_spelling {spelled : List Char} (h : Spelling c spelled) (hc : c ≠ '@') :
    '@' ∉ spelled := by
  have hback : '@' ≠ '\\' := by decide
  cases h with
  | letter e he =>
    have he : '@' ≠ e := by
      rintro rfl
      cases he
    simp [hback, he]
  | itself => simpa using hc.symm
  | coded l width hl hn =>
    have hl : '@' ≠ l := by
      rintro rfl
      cases hl
    have hdigits : '@' ∉ Text.hexFixed width c.toNat := by
      intro hsign
      exact Text.of_mem_hexFixed (P := (· ≠ '@')) (by decide) hsign rfl
    simp [hback, hl, hdigits]

/-- What is in no mark is spelled by something that begins no mark. -/
theorem exists_of_spelling {spelled : List Char} (h : Spelling c spelled)
    (hc : isMarkChar c = false) : ∃ d rest, spelled = d :: rest ∧ isMarkChar d = false := by
  cases h with
  | letter | coded => exact ⟨_, _, rfl, rfl⟩
  | itself => exact ⟨_, _, rfl, hc⟩

/-! ## Marks -/

/-- A mark begins a literal's body where it begins the text of the literal. -/
theorem isPrefixOf_quoted (hmark : ∀ c ∈ mark, isMarkChar c = true) (text rest : List Char) :
    mark.isPrefixOf (text.flatMap quotedChar ++ '\'' :: rest) = mark.isPrefixOf text := by
  induction mark generalizing text with
  | nil => rfl
  | cons m mark ih =>
    obtain ⟨hm, hmark⟩ := List.forall_mem_cons.mp hmark
    have hapart : ∀ {d : Char}, isMarkChar d = false → (m == d) = false := by
      intro d hd
      apply beq_false_of_ne
      rintro rfl
      rw [hm] at hd
      cases hd
    cases text with
    | nil => simp [List.isPrefixOf, hapart (d := '\'') (by decide)]
    | cons c text =>
      rw [List.flatMap_cons, List.append_assoc]
      cases hc : isMarkChar c with
      | true =>
        rw [quotedChar_of_isMarkChar hc]
        exact congrArg (m == c && ·) (ih hmark text)
      | false =>
        obtain ⟨d, spelled, hspelled, hd⟩ := exists_of_spelling (spelling_quotedChar c) hc
        rw [hspelled]
        simp [List.isPrefixOf, hapart hc, hapart hd]

/-- What is left of a literal whose text has no mark at its beginning. -/
def body (text : List Char) : List Char := text.flatMap quotedChar ++ ['\'']

theorem quotedChars_eq (text : List Char) : quotedChars text = '\'' :: body text := rfl

theorem beginsWith_body (hv : IsMark v.1.toList) (text : List Char) :
    beginsWith (body text) v.1 = beginsWith text v.1 :=
  congrArg (· && _) (isPrefixOf_quoted hv.chars text [])

theorem replaceEach_quote (hv : IsMark v.1.toList) (rest : List Char) :
    replaceEach [v] ('\'' :: rest) = '\'' :: replaceEach [v] rest := by
  have hsign : ∀ w ∈ [v], w.1.toList.head? = some '@' := List.forall_mem_singleton.mpr hv.sign
  have hquote : '@' ∉ ['\''] := by decide
  exact Text.replaceEach_plain hsign hquote rest

/-- A character of the text stays as it is spelled, unless a mark begins there. -/
theorem replaceEach_body_cons (hv : IsMark v.1.toList) (h : beginsWith (c :: text) v.1 = false) :
    replaceEach [v] (body (c :: text)) = quotedChar c ++ replaceEach [v] (body text) := by
  have hbody : body (c :: text) = quotedChar c ++ body text := by
    rw [body, List.flatMap_cons, List.append_assoc]
    rfl
  have hsign : ∀ w ∈ [v], w.1.toList.head? = some '@' := List.forall_mem_singleton.mpr hv.sign
  by_cases hc : c = '@'
  · subst hc
    have hnone : beginsWith ('@' :: body text) v.1 = false := by
      have hsame := beginsWith_body hv ('@' :: text)
      rw [hbody, h] at hsame
      exact hsame
    exact Text.replaceEach_cons (List.forall_mem_singleton.mpr hnone)
  · rw [hbody]
    exact Text.replaceEach_plain hsign (sign_notMem_of_spelling (spelling_quotedChar c) hc) _

theorem body_mark (hmark : ∀ c ∈ mark, isMarkChar c = true) (after : List Char) :
    body (mark ++ after) = mark ++ body after := by
  induction mark with
  | nil => rfl
  | cons m mark ih =>
    obtain ⟨hm, hmark⟩ := List.forall_mem_cons.mp hmark
    have hrest := ih hmark
    unfold body at hrest ⊢
    rw [List.cons_append, List.flatMap_cons, quotedChar_of_isMarkChar hm, List.append_assoc, hrest]
    rfl

theorem occurs_cons (hv : IsMark v.1.toList) (c : Char) (text : List Char) :
    Text.occurs v.1.toList (c :: text) =
      (beginsWith (c :: text) v.1 || Text.occurs v.1.toList text) := by
  have hsome : v.1.toList.isEmpty = false := List.isEmpty_eq_false_iff.mpr hv.ne_nil
  rw [Text.occurs, beginsWith, hsome, Bool.not_false, Bool.and_true]

/-- If the mark occurs in the text, the literal goes on with its value where the mark began. -/
theorem replaceEach_body (hv : IsMark v.1.toList) (text : List Char) :
    Text.occurs v.1.toList text = false ∧ replaceEach [v] (body text) = body text ∨
      Text.occurs v.1.toList text = true ∧ ∃ before after tail,
        text = before ++ v.1.toList ++ after ∧
        replaceEach [v] (body text) = before.flatMap quotedChar ++ (v.2.toList ++ tail) := by
  induction text with
  | nil =>
    left
    constructor
    · exact List.isEmpty_eq_false_iff.mpr hv.ne_nil
    · exact replaceEach_quote hv []
  | cons c text ih =>
    cases hbegins : beginsWith (c :: text) v.1 with
    | true =>
      right
      obtain ⟨after, hafter⟩ := List.isPrefixOf_iff_prefix.mp (Bool.and_eq_true_iff.mp hbegins).1
      have hfind : [v].find? (fun w => beginsWith (v.1.toList ++ body after) w.1) = some v := by
        apply List.find?_cons_of_pos
        rw [← body_mark hv.chars, hafter, beginsWith_body hv]
        exact hbegins
      refine ⟨by rw [occurs_cons hv, hbegins, Bool.true_or], [], after,
        replaceEach [v] (body after), hafter.symm, ?_⟩
      rw [← hafter, body_mark hv.chars, Text.replaceEach_mark hfind]
      rfl
    | false =>
      rw [occurs_cons hv, hbegins, Bool.false_or, replaceEach_body_cons hv hbegins]
      rcases ih with ⟨habsent, hsame⟩ | ⟨hoccurs, before, after, tail, rfl, hreplaced⟩
      · left
        refine ⟨habsent, ?_⟩
        rw [hsame, body, body, List.flatMap_cons, List.append_assoc]
      · right
        refine ⟨hoccurs, c :: before, after, tail, rfl, ?_⟩
        rw [hreplaced, List.flatMap_cons, List.append_assoc]

section

variable {value : List Char}

/-- A literal in which a mark is replaced by another literal is read to its text only if the mark
does not occur in it. -/
theorem readQuoted_replaced (hv : IsMark v.1.toList) (hvalue : v.2.toList = quotedChars value)
    (text rest : List Char) :
    readQuoted (replaceEach [v] (quotedChars text) ++ rest) = some (text, rest) ↔
      Text.occurs v.1.toList text = false := by
  rw [quotedChars_eq, replaceEach_quote hv]
  rcases replaceEach_body hv text with
    ⟨habsent, hsame⟩ | ⟨hoccurs, before, after, tail, htext, hreplaced⟩
  · rw [hsame, ← quotedChars_eq, readQuoted_quotedChars, habsent]
    simp
  · have hread := readQuotedBody_quoted before (value.flatMap quotedChar ++ '\'' :: (tail ++ rest))
    have hshort : before ≠ text := by
      intro hsame
      have hlength := congrArg List.length (hsame.trans htext)
      have hpos := List.length_pos_iff.mpr hv.ne_nil
      simp only [List.length_append] at hlength
      omega
    rw [hreplaced, hvalue, hoccurs]
    simp [readQuoted, quotedChars, hread, hshort]

theorem replaceEach_quotedChars (hv : IsMark v.1.toList) (hvalue : v.2.toList = quotedChars value)
    (text : List Char) : replaceEach [v] (quotedChars text) = quotedChars text ↔
      Text.occurs v.1.toList text = false := by
  constructor
  · intro hsame
    apply (readQuoted_replaced hv hvalue text []).1
    rw [hsame]
    exact readQuoted_quotedChars text []
  · intro habsent
    rcases replaceEach_body hv text with ⟨-, hsame⟩ | ⟨hoccurs, -⟩
    · rw [quotedChars_eq, replaceEach_quote hv, hsame]
    · rw [habsent] at hoccurs
      cases hoccurs

end

end RemoteHost.Literal
