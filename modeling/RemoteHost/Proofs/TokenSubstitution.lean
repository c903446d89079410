import RemoteHost.Proofs.SourceSymbols

/-!
# Tokens take the places of placeholders

A text is cut around a mark in one way only, if the sign at which the mark begins does not come
again within it. Where the literals of tokens join the pieces no placeholder comes into being, since
a literal begins and ends with a quote and holds no dollar sign.
-/

namespace RemoteHost

namespace Text

variable {mark marks text piece : List Char} {sign c : Char}

/-! ## Occurrences -/

theorem occurs_of_not_mem (h : sign ∉ text) : occurs (sign :: marks) text = false := by
  induction text with
  | nil => rfl
  | cons c text ih =>
    have hne : (sign == c) = false := beq_false_of_ne fun heq => h (heq ▸ List.mem_cons_self)
    rw [occurs, ih (List.not_mem_of_not_mem_cons h), List.isPrefixOf, hne]
    rfl

/-- Nothing occurs across a character that it does not hold. -/
theorem occurs_append_cons (hc : c ∉ mark) (xs ys : List Char) :
    occurs mark (xs ++ c :: ys) = (occurs mark xs || occurs mark ys) := by
  induction xs with
  | nil =>
    have hstart : mark.isPrefixOf (c :: ys) = mark.isEmpty := by
      rw [← List.nil_append (c :: ys), isPrefixOf_append_cons hc]
      cases mark <;> rfl
    exact congrArg (· || occurs mark ys) hstart
  | cons x xs ih =>
    have hstart := isPrefixOf_append_cons hc (x :: xs) ys
    rw [List.cons_append] at hstart
    rw [List.cons_append, occurs, occurs, hstart, ih, Bool.or_assoc]

/-! ## Cuts -/

/-- A text is cut at all occurrences of a mark. -/
structure IsCut (mark text first : List Char) (later : List (List Char)) : Prop where
  joined : text = first ++ later.flatMap (mark ++ ·)
  clean : ∀ piece ∈ first :: later, occurs mark piece = false

theorem fillIn_eq_flatten (first : List Char) {later fillings : List (List Char)}
    (h : fillings.length = later.length) :
    fillIn (first :: later) fillings =
      first ++ (List.zipWith (· ++ ·) fillings later).flatten := by
  induction later generalizing first fillings with
  | nil => simp [fillIn]
  | cons next later ih =>
    cases fillings with
    | nil => cases h
    | cons filling fillings =>
      rw [fillIn_cons _ _ (List.cons_ne_nil _ _), ih next (Nat.succ.inj h),
        List.zipWith_cons_cons, List.flatten_cons, List.append_assoc, List.append_assoc]

theorem fillIn_replicate (mark first : List Char) (later : List (List Char)) :
    fillIn (first :: later) (List.replicate later.length mark) =
      first ++ later.flatMap (mark ++ ·) := by
  rw [fillIn_eq_flatten first List.length_replicate, List.flatMap_def]
  refine congrArg (fun pieces => first ++ List.flatten pieces) ?_
  induction later with
  | nil => rfl
  | cons next later ih => exact congrArg (_ :: ·) ih

theorem prefix_fillIn (first : List Char) (later fillings : List (List Char)) :
    first <+: fillIn (first :: later) fillings := by
  cases later with
  | nil => exact List.prefix_refl first
  | cons next later =>
    cases fillings with
    | nil => exact List.prefix_append _ _
    | cons filling fillings =>
      rw [fillIn_cons _ _ (List.cons_ne_nil _ _), List.append_assoc]
      exact List.prefix_append _ _

/-- The first piece is where the text begins, so that a mark in it would have been found. -/
theorem clean_piecesAfter (hmark : mark ≠ []) (skip : Nat) (text : List Char) :
    ∀ piece ∈ piecesAfter mark skip text, occurs mark piece = false := by
  have hnil : occurs mark [] = false := by simpa [occurs] using hmark
  fun_induction piecesAfter mark skip text with
  | case1 skip => simpa using hnil
  | case2 skip c rest ih => exact ih
  | case3 c rest hfound ih => exact List.forall_mem_cons.mpr ⟨hnil, ih⟩
  | case4 c rest hmissing ih =>
    have hwhole := fillIn_pieces mark rest
    obtain ⟨first, later, hpieces⟩ := List.exists_cons_of_ne_nil (pieces_ne_nil mark rest)
    change piecesAfter mark 0 rest = first :: later at hpieces
    rw [pieces, hpieces] at hwhole
    rw [hpieces] at ih ⊢
    obtain ⟨hfirst, hlater⟩ := List.forall_mem_cons.mp ih
    refine List.forall_mem_cons.mpr ⟨?_, hlater⟩
    have hbegin : first <+: rest := hwhole ▸ prefix_fillIn first later _
    have hmissed : mark.isPrefixOf (c :: first) = false := by
      refine Bool.eq_false_iff.mpr fun hprefix => hmissing ?_
      have hlonger := (List.isPrefixOf_iff_prefix.mp hprefix).trans
        ((List.prefix_cons_inj c).mpr hbegin)
      rw [List.isPrefixOf_iff_prefix.mpr hlonger]
      simpa using hmark
    rw [occurs, hmissed, hfirst]
    rfl

theorem isCut_pieces (hmark : mark ≠ []) {later : List (List Char)}
    (h : pieces mark text = piece :: later) : IsCut mark text piece later where
  joined := by
    have hlength := length_pieces mark text
    have hwhole := fillIn_pieces mark text
    rw [h, List.length_cons] at hlength
    rwa [h, ← Nat.succ.inj hlength, fillIn_replicate, eq_comm] at hwhole
  clean := h ▸ clean_piecesAfter hmark 0 text

theorem pieces_of_clean (h : occurs mark text = false) : pieces mark text = [text] := by
  induction text with
  | nil => rfl
  | cons c text ih =>
    obtain ⟨hmissing, hlater⟩ := Bool.or_eq_false_iff.mp h
    rw [pieces_cons hmissing, ih hlater]
    rfl

/-- The next mark after a piece is found where it is. None is found earlier, since it would be in
the piece or hold the sign of the next one. -/
theorem pieces_append_mark (hsign : sign ∉ marks) (h : occurs (sign :: marks) piece = false)
    (rest : List Char) :
    pieces (sign :: marks) (piece ++ (sign :: marks ++ rest)) =
      piece :: pieces (sign :: marks) rest := by
  induction piece with
  | nil => exact pieces_mark (List.cons_ne_nil _ _) rest
  | cons c piece ih =>
    obtain ⟨hstart, hlater⟩ := Bool.or_eq_false_iff.mp h
    have hmissing :
        (sign :: marks).isPrefixOf (c :: (piece ++ (sign :: marks ++ rest))) = false := by
      rw [List.isPrefixOf, List.cons_append, isPrefixOf_append_cons hsign]
      exact hstart
    rw [List.cons_append, pieces_cons hmissing, ih hlater]
    rfl

theorem IsCut.pieces_eq (hsign : sign ∉ marks) {first : List Char} {later : List (List Char)}
    (h : IsCut (sign :: marks) text first later) :
    pieces (sign :: marks) text = first :: later := by
  obtain ⟨rfl, hclean⟩ := h
  induction later generalizing first with
  | nil =>
    rw [List.flatMap_nil, List.append_nil]
    exact pieces_of_clean (hclean first List.mem_cons_self)
  | cons next later ih =>
    obtain ⟨hfirst, hrest⟩ := List.forall_mem_cons.mp hclean
    rw [List.flatMap_cons, List.append_assoc, pieces_append_mark hsign hfirst, ih hrest]

end Text

/-! ## Filling a template -/

namespace Program

theorem dollar_not_mem : '$' ∉ "CALLBACK_TOKEN".toList := by decide

/-- No placeholder occurs across the literal of a token, or in it. -/
theorem occurs_quoted (before token after : List Char) :
    Text.occurs placeholder.toList (before ++ (Literal.quotedChars token ++ after)) =
      (Text.occurs placeholder.toList before || Text.occurs placeholder.toList after) := by
  have hquote : '\'' ∉ placeholder.toList := by decide
  have hbody : Text.occurs placeholder.toList (token.flatMap Literal.quotedChar) = false := by
    refine Text.occurs_of_not_mem fun hdollar => ?_
    have hin : '$' ∈ Literal.quotedChars token :=
      List.mem_cons_of_mem _ (List.mem_append_left _ hdollar)
    exact (Literal.isTame_quotedChars token '$' hin).2.2 rfl
  have hliteral : Literal.quotedChars token ++ after =
      '\'' :: (token.flatMap Literal.quotedChar ++ '\'' :: after) := by
    simp [Literal.quotedChars]
  rw [hliteral, Text.occurs_append_cons hquote, Text.occurs_append_cons hquote, hbody,
    Bool.false_or]

/-- Pieces joined by the literals of tokens. -/
def joined (first : List Char) (tokens : List String) (later : List (List Char)) : List Char :=
  first ++ (List.zipWith (fun token piece => (Literal.quoted token).toList ++ piece)
    tokens later).flatten

theorem occurs_joined {first : List Char} (tokens : List String) {later : List (List Char)}
    (h : ∀ piece ∈ first :: later, Text.occurs placeholder.toList piece = false) :
    Text.occurs placeholder.toList (joined first tokens later) = false := by
  induction later generalizing first tokens with
  | nil => simpa [joined] using h
  | cons next later ih =>
    obtain ⟨hfirst, hrest⟩ := List.forall_mem_cons.mp h
    cases tokens with
    | nil => simpa [joined] using hfirst
    | cons token tokens =>
      have hjoined : joined first (token :: tokens) (next :: later) =
          first ++ (Literal.quotedChars token.toList ++ joined next tokens later) := by
        simp [joined, Literal.toList_quoted]
      rw [hjoined, occurs_quoted, hfirst, ih tokens hrest]
      rfl

theorem substituteTokens_of_isCut {template : String} {first : List Char}
    {later : List (List Char)} (h : Text.IsCut placeholder.toList template.toList first later)
    (tokens : List String) :
    substituteTokens template tokens =
      if later.length = tokens.length then .ok (String.ofList (joined first tokens later))
      else .error (.placeholderMismatch tokens.length later.length) := by
  have hpieces : Text.pieces placeholder.toList template.toList = first :: later :=
    h.pieces_eq dollar_not_mem
  have hcount : placeholders template = later.length := by
    rw [placeholders, Text.occurrences, hpieces]
    rfl
  rw [substituteTokens, hcount, hpieces]
  split
  · rename_i hlength
    rw [Text.fillIn_eq_flatten first ((List.length_map _).trans hlength.symm),
      List.zipWith_map_left]
    simp only [joined, Literal.toList_quoted]
  · rfl

/-- A template is cut around its placeholders in one way only. Tokens are put in if there is one for
each placeholder, and then in their order; otherwise both numbers are reported. No placeholder is
left, whatever the tokens and the pieces are. -/
theorem token_substitution_exact (template : String) (tokens : List String) :
    ∃ first later, Text.IsCut placeholder.toList template.toList first later ∧
      (∀ first' later', Text.IsCut placeholder.toList template.toList first' later' →
        first' = first ∧ later' = later) ∧
      (later.length = tokens.length → ∃ result, substituteTokens template tokens = .ok result ∧
        result.toList = joined first tokens later ∧
        Text.occurs placeholder.toList result.toList = false) ∧
      (later.length ≠ tokens.length → substituteTokens template tokens =
        .error (.placeholderMismatch tokens.length later.length)) := by
  obtain ⟨first, later, hpieces⟩ :=
    List.exists_cons_of_ne_nil (Text.pieces_ne_nil placeholder.toList template.toList)
  have hcut := Text.isCut_pieces (List.cons_ne_nil _ _) hpieces
  have hresult := substituteTokens_of_isCut hcut tokens
  refine ⟨first, later, hcut, ?_, ?_, ?_⟩
  · intro first' later' hcut'
    have hsame := (hcut'.pieces_eq dollar_not_mem).symm.trans hpieces
    exact List.cons.inj hsame
  · intro hlength
    rw [if_pos hlength] at hresult
    refine ⟨_, hresult, String.toList_ofList, ?_⟩
    rw [String.toList_ofList]
    exact occurs_joined tokens hcut.clean
  · intro hlength
    rw [hresult, if_neg hlength]

example : substituteTokens "$CALLBACK_$CALLBACK_TOKENTOKEN" ["$CALLBACK_TOKEN"] =
    .ok "$CALLBACK_'\\x24CALLBACK_TOKEN'TOKEN" := by
  rfl

end Program

end RemoteHost
