import RemoteHost.Program.Source
import RemoteHost.Proofs.Quoting
import RemoteHost.Proofs.TextReplacement

/-!
# The symbols of a source text

A source text is a row of literals and of characters outside of them. Reading it tells the two
apart the way the host does: a quote that follows a name would make the literal one of another kind,
and one that follows a literal may be part of the quotes that open a longer one, so neither is read.
-/

namespace RemoteHost

/-- A character outside literals, a literal of a text, or a place where the literal of a token goes.
-/
inductive Symbol where
  | bare (c : Char)
  | literal (text : List Char)
  | slot
  deriving DecidableEq

/-- Characters that stand for themselves outside literals, and start no literal or comment. -/
def isBare (c : Char) : Bool := c != '\'' && c != '"' && c != '#' && c != '$'

namespace Symbol

def chars : Symbol → List Char
  | bare c => [c]
  | literal text => Literal.quotedChars text
  | slot => Program.placeholder.toList

/-- What is left of a symbol if the text of its literal is not looked at. -/
def outline : Symbol → Option Char
  | bare c => some c
  | literal _ | slot => none

def text? : Symbol → Option String
  | literal text => some (String.ofList text)
  | bare _ | slot => none

def spell (symbols : List Symbol) : List Char := symbols.flatMap chars

theorem spell_cons (symbol : Symbol) (symbols : List Symbol) :
    spell (symbol :: symbols) = symbol.chars ++ spell symbols := List.flatMap_cons

theorem spell_append (xs ys : List Symbol) : spell (xs ++ ys) = spell xs ++ spell ys :=
  List.flatMap_append

def texts (symbols : List Symbol) : List String := symbols.filterMap text?

def ofText (text : String) : List Symbol := text.toList.map bare

/-- Puts the literals of tokens in the places for them, one each. -/
def fill : List Symbol → List String → List Symbol
  | [], _ => []
  | slot :: rest, token :: tokens => literal token.toList :: fill rest tokens
  | symbol :: rest, tokens => symbol :: fill rest tokens

end Symbol

/-! ## Reading -/

/-- What a text follows, as far as it matters to a quote at its beginning. -/
inductive Before where
  | nothing
  | name
  | literal
  deriving DecidableEq

def Before.ofChar (c : Char) : Before := if isNameChar c then .name else .nothing

/-- What follows a literal is shorter than the literal and that together. -/
theorem Literal.length_readQuotedBody {skip : Nat} {body text rest : List Char}
    (h : readQuotedBody skip body = some (text, rest)) : rest.length < body.length := by
  induction body generalizing skip text with
  | nil => cases skip <;> cases h
  | cons c body ih =>
    have later : ∀ {skip' : Nat} {f : List Char → List Char},
        ((readQuotedBody skip' body).bind fun read => some (f read.1, read.2)) = some (text, rest) →
          rest.length < (c :: body).length := by
      intro skip' f hread
      obtain ⟨⟨text', rest'⟩, hbody, hsome⟩ := Option.bind_eq_some_iff.mp hread
      obtain rfl : rest' = rest := congrArg Prod.snd (Option.some.inj hsome)
      exact Nat.lt_succ_of_lt (ih hbody)
    cases skip with
    | succ skip => exact Nat.lt_succ_of_lt (ih h)
    | zero =>
      simp only [readQuotedBody] at h
      split_ifs at h
      · obtain rfl : body = rest := congrArg Prod.snd (Option.some.inj h)
        exact Nat.lt_succ_self _
      · obtain ⟨⟨d, used⟩, -, hread⟩ := Option.bind_eq_some_iff.mp h
        exact later hread
      · exact later h

/-- The symbols of a source text. -/
def readSymbols (before : Before) : List Char → Option (List Symbol)
  | [] => some []
  | c :: rest =>
    if c = '\'' then
      if before = .nothing then
        match _hread : Literal.readQuotedBody 0 rest with
        | none => none
        | some (text, rest') => (readSymbols .literal rest').map (.literal text :: ·)
      else none
    else if isBare c then (readSymbols (.ofChar c) rest).map (.bare c :: ·)
    else none
termination_by text => text.length
decreasing_by
  · exact Nat.lt_succ_of_lt (Literal.length_readQuotedBody _hread)
  · exact Nat.lt_succ_self _

/-- A program with each literal replaced by one and the same mark. -/
def skeleton (program : String) : Option (List (Option Char)) :=
  (readSymbols .nothing program.toList).map (List.map Symbol.outline)

/-- The texts of the literals of a program, from left to right. -/
def literalTexts (program : String) : Option (List String) :=
  (readSymbols .nothing program.toList).map Symbol.texts

/-! ## Symbols that can be read back -/

namespace Before

def after (before : Before) : Symbol → Option Before
  | .bare c => if isBare c then some (ofChar c) else none
  | .literal _ | .slot => if before = .nothing then some .literal else none

/-- What stands before a text that follows some symbols, if they can be told apart. -/
def along : Before → List Symbol → Option Before
  | before, [] => some before
  | before, symbol :: rest => (before.after symbol).bind (·.along rest)

theorem after_bare {before next : Before} {c : Char} :
    before.after (.bare c) = some next ↔ isBare c = true ∧ ofChar c = next := by
  simp [after]

theorem along_append (before : Before) (xs ys : List Symbol) :
    before.along (xs ++ ys) = (before.along xs).bind (·.along ys) := by
  induction xs generalizing before with
  | nil => rfl
  | cons x xs ih =>
    simp only [List.cons_append, along]
    cases before.after x with
    | none => rfl
    | some next => exact ih next

theorem isBare_of_along {before after : Before} {symbols : List Symbol}
    (h : before.along symbols = some after) : ∀ c, .bare c ∈ symbols → isBare c = true := by
  induction symbols generalizing before with
  | nil => exact fun _ hc => absurd hc List.not_mem_nil
  | cons symbol symbols ih =>
    obtain ⟨next, hnext, hrest⟩ := Option.bind_eq_some_iff.mp h
    intro c hc
    rcases List.mem_cons.mp hc with rfl | hc
    · exact (after_bare.mp hnext).1
    · exact ih hrest c hc

/-- A token is put where a literal may stand. -/
theorem along_fill (before : Before) (symbols : List Symbol) (tokens : List String) :
    before.along (Symbol.fill symbols tokens) = before.along symbols := by
  induction symbols generalizing before tokens with
  | nil => rfl
  | cons symbol symbols ih =>
    cases symbol with
    | slot =>
      cases tokens with
      | nil => simp only [Symbol.fill, along, ih]
      | cons token tokens =>
        have hsame : before.after (.literal token.toList) = before.after .slot := by
          cases before <;> rfl
        simp only [Symbol.fill, along, ih, hsame]
    | _ => simp only [Symbol.fill, along, ih]

end Before

/-- Symbols that can be told apart are read back from their spelling. -/
theorem readSymbols_spell {before after : Before} {symbols : List Symbol}
    (h : before.along symbols = some after) (hslots : .slot ∉ symbols) :
    readSymbols before (Symbol.spell symbols) = some symbols := by
  induction symbols generalizing before with
  | nil => rw [Symbol.spell, List.flatMap_nil, readSymbols]
  | cons symbol symbols ih =>
    obtain ⟨next, hnext, hrest⟩ := Option.bind_eq_some_iff.mp h
    have hread := ih hrest (List.not_mem_of_not_mem_cons hslots)
    cases symbol with
    | bare c =>
      obtain ⟨hbare, rfl⟩ := Before.after_bare.mp hnext
      have hquote : c ≠ '\'' := by
        rintro rfl
        cases hbare
      change readSymbols before (c :: Symbol.spell symbols) = _
      rw [readSymbols, if_neg hquote, if_pos hbare, hread]
      rfl
    | literal text =>
      obtain ⟨rfl, rfl⟩ : before = .nothing ∧ Before.literal = next := by
        cases before <;> cases hnext
        exact ⟨rfl, rfl⟩
      have hbody := Literal.readQuotedBody_quoted text (Symbol.spell symbols)
      have hspell : Symbol.spell (.literal text :: symbols) =
          '\'' :: (text.flatMap Literal.quotedChar ++ '\'' :: Symbol.spell symbols) := by
        simp [Symbol.spell, Symbol.chars, Literal.quotedChars]
      rw [hspell, readSymbols, if_pos rfl, if_pos rfl]
      split
      · rename_i hnone
        rw [hbody] at hnone
        cases hnone
      · rename_i text' rest' hsome
        rw [hbody] at hsome
        cases hsome
        rw [hread]
        rfl
    | slot => exact absurd List.mem_cons_self hslots

/-! ## Filling in tokens -/

namespace Program

theorem pieces_placeholder (rest : List Char) :
    Text.pieces placeholder.toList (placeholder.toList ++ rest) =
      [] :: Text.pieces placeholder.toList rest :=
  Text.pieces_mark (List.cons_ne_nil _ _) rest

theorem pieces_other {c : Char} (hc : c ≠ '$') (rest : List Char) :
    Text.pieces placeholder.toList (c :: rest) =
      Text.extendFirst c (Text.pieces placeholder.toList rest) := by
  have hmissing : placeholder.toList.isPrefixOf (c :: rest) = false := by
    have hmark : placeholder.toList = '$' :: "CALLBACK_TOKEN".toList := rfl
    have hne : ('$' == c) = false := beq_false_of_ne (Ne.symm hc)
    rw [hmark, List.isPrefixOf, hne]
    rfl
  exact Text.pieces_cons hmissing

theorem fillIn_append {text : List Char} (htext : ∀ c ∈ text, c ≠ '$') (rest : List Char)
    (fillings : List (List Char)) :
    Text.fillIn (Text.pieces placeholder.toList (text ++ rest)) fillings =
      text ++ Text.fillIn (Text.pieces placeholder.toList rest) fillings := by
  induction text with
  | nil => rfl
  | cons c text ih =>
    have hlater := ih fun d hd => htext d (List.mem_cons_of_mem c hd)
    rw [List.cons_append, pieces_other (htext c List.mem_cons_self),
      Text.fillIn_extendFirst c (Text.pieces_ne_nil _ _), hlater]
    rfl

theorem occurrences_append {text : List Char} (htext : ∀ c ∈ text, c ≠ '$') (rest : List Char) :
    Text.occurrences placeholder.toList (text ++ rest) =
      Text.occurrences placeholder.toList rest := by
  induction text with
  | nil => rfl
  | cons c text ih =>
    have hlater := ih fun d hd => htext d (List.mem_cons_of_mem c hd)
    rw [Text.occurrences, List.cons_append, pieces_other (htext c List.mem_cons_self),
      Text.length_extendFirst c (Text.pieces_ne_nil _ _)]
    exact hlater

end Program

namespace Symbol

variable {symbols : List Symbol} {tokens : List String}

theorem fill_append (hslot : slot ∉ symbols) (rest : List Symbol) (tokens : List String) :
    fill (symbols ++ rest) tokens = symbols ++ fill rest tokens := by
  induction symbols with
  | nil => rfl
  | cons symbol symbols ih =>
    have hlater := ih (List.not_mem_of_not_mem_cons hslot)
    cases symbol with
    | slot => exact absurd List.mem_cons_self hslot
    | _ => simp only [List.cons_append, fill, hlater]

theorem outline_fill (symbols : List Symbol) (tokens : List String) :
    (fill symbols tokens).map outline = symbols.map outline := by
  induction symbols generalizing tokens with
  | nil => rfl
  | cons symbol symbols ih =>
    cases symbol with
    | slot =>
      cases tokens with
      | nil => simp only [fill, List.map_cons, ih]
      | cons token tokens =>
        simp only [fill, List.map_cons, ih]
        rfl
    | _ => simp only [fill, List.map_cons, ih]

theorem slot_not_mem_fill (hcount : symbols.count slot = tokens.length) :
    slot ∉ fill symbols tokens := by
  induction symbols generalizing tokens with
  | nil => exact List.not_mem_nil
  | cons symbol symbols ih =>
    cases symbol with
    | slot =>
      rw [List.count_cons_self] at hcount
      cases tokens with
      | nil => cases hcount
      | cons token tokens =>
        have hrest := ih (Nat.succ.inj hcount)
        simpa [fill] using hrest
    | _ =>
      rw [List.count_cons_of_ne (by simp)] at hcount
      simpa [fill] using ih hcount

/-- Where no literal stands, filling in tokens brings in the tokens. -/
theorem texts_fill (hliteral : texts symbols = []) (hcount : symbols.count slot = tokens.length) :
    texts (fill symbols tokens) = tokens := by
  induction symbols generalizing tokens with
  | nil => exact (List.eq_nil_of_length_eq_zero hcount.symm).symm
  | cons symbol symbols ih =>
    cases symbol with
    | bare c =>
      rw [List.count_cons_of_ne (by simp)] at hcount
      exact ih hliteral hcount
    | literal text => cases hliteral
    | slot =>
      rw [List.count_cons_self] at hcount
      cases tokens with
      | nil => cases hcount
      | cons token tokens =>
        have hrest := ih hliteral (Nat.succ.inj hcount)
        simp only [fill, texts, List.filterMap_cons, text?, String.ofList_toList] at hrest ⊢
        rw [hrest]

/-- No symbol but a place for a token is spelled with a dollar sign. -/
theorem not_dollar {symbol : Symbol} (hslot : symbol ≠ slot)
    (hplain : ∀ c, symbol = bare c → isBare c = true) : ∀ c ∈ symbol.chars, c ≠ '$' := by
  cases symbol with
  | bare c =>
    intro d hd
    rw [List.mem_singleton.mp hd]
    rintro rfl
    cases hplain _ rfl
  | literal text => exact fun c hc => (Literal.isTame_quotedChars text c hc).2.2
  | slot => exact absurd rfl hslot

theorem occurrences_spell (hplain : ∀ c, bare c ∈ symbols → isBare c = true) :
    Text.occurrences Program.placeholder.toList (spell symbols) = symbols.count slot := by
  induction symbols with
  | nil => rfl
  | cons symbol symbols ih =>
    have hrest := ih fun c hc => hplain c (List.mem_cons_of_mem symbol hc)
    by_cases hslot : symbol = slot
    · subst hslot
      rw [List.count_cons_self, ← hrest, spell_cons, Text.occurrences, chars,
        Program.pieces_placeholder, List.length_cons, Text.length_pieces]
      rfl
    · have hchars := not_dollar hslot fun c hc => hplain c (hc ▸ List.mem_cons_self)
      rw [List.count_cons_of_ne hslot, ← hrest, spell_cons]
      exact Program.occurrences_append hchars _

theorem fillIn_spell (hplain : ∀ c, bare c ∈ symbols → isBare c = true)
    (hcount : symbols.count slot = tokens.length) :
    Text.fillIn (Text.pieces Program.placeholder.toList (spell symbols))
      (tokens.map fun t => Literal.quotedChars t.toList) = spell (fill symbols tokens) := by
  induction symbols generalizing tokens with
  | nil => rfl
  | cons symbol symbols ih =>
    have hlater : ∀ c, bare c ∈ symbols → isBare c = true :=
      fun c hc => hplain c (List.mem_cons_of_mem symbol hc)
    by_cases hslot : symbol = slot
    · subst hslot
      rw [List.count_cons_self] at hcount
      cases tokens with
      | nil => cases hcount
      | cons token tokens =>
        have hrest := ih hlater (Nat.succ.inj hcount)
        rw [spell_cons, chars, Program.pieces_placeholder, List.map_cons,
          Text.fillIn_cons _ _ (Text.pieces_ne_nil _ _), hrest]
        rfl
    · have hchars := not_dollar hslot fun c hc => hplain c (hc ▸ List.mem_cons_self)
      rw [List.count_cons_of_ne hslot] at hcount
      have hrest := ih hlater hcount
      have hfill : fill (symbol :: symbols) tokens = symbol :: fill symbols tokens := by
        cases symbol <;> first | rfl | exact absurd rfl hslot
      rw [hfill, spell_cons, spell_cons, Program.fillIn_append hchars, hrest]

/-- A template whose places are filled with as many tokens. -/
theorem substituteTokens_spell (hplain : ∀ c, bare c ∈ symbols → isBare c = true)
    (hcount : symbols.count slot = tokens.length) :
    Program.substituteTokens (String.ofList (spell symbols)) tokens =
      .ok (String.ofList (spell (fill symbols tokens))) := by
  have hplaceholders : Program.placeholders (String.ofList (spell symbols)) = tokens.length := by
    rw [Program.placeholders, String.toList_ofList, occurrences_spell hplain, hcount]
  rw [Program.substituteTokens, if_pos hplaceholders, String.toList_ofList,
    fillIn_spell hplain hcount]

end Symbol

end RemoteHost
