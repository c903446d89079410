import RemoteHost.Catalogue.Objects
import RemoteHost.Proofs.ReleasePrograms

/-!
# The path of the host module

Every chain begins at the host module, which the settings name by a path. The host reads the path as
a module and its submodules only if no part of it is a word that is no name.
-/

namespace RemoteHost

/-! ## Parts -/

theorem dotted_ne_nil (path : List Char) : dotted path ≠ [] := by
  cases path with
  | nil => exact List.cons_ne_nil _ _
  | cons c rest =>
    rw [dotted]
    split
    · exact List.cons_ne_nil _ _
    · split <;> exact List.cons_ne_nil _ _

theorem intercalate_dotted (path : List Char) : ['.'].intercalate (dotted path) = path := by
  induction path with
  | nil => rfl
  | cons c rest ih =>
    cases hparts : dotted rest with
    | nil => exact absurd hparts (dotted_ne_nil rest)
    | cons part more =>
      rw [hparts] at ih
      by_cases hc : c = '.'
      · rw [dotted, if_pos hc, hparts, List.intercalate_cons_cons, ih, hc]
        rfl
      · rw [dotted, if_neg hc, hparts]
        cases more with
        | nil =>
          rw [List.intercalate_singleton] at ih ⊢
          rw [ih]
        | cons next more =>
          rw [List.intercalate_cons_cons] at ih ⊢
          rw [List.cons_append, List.cons_append, ih]

def Settings.moduleParts (s : Settings) : List String :=
  (dotted s.hostModule.toList).map String.ofList

/-! ## Tokens -/

namespace Token

theorem read_bare {text : String} (h : IsBareText text) :
    Token.read text = some (ofSymbols [] (Symbol.ofText text)) := by
  obtain ⟨after, hafter⟩ := (Symbol.passes_bare h).fits
  have hread : readSymbols .nothing (Symbol.spell (Symbol.ofText text)) =
      some (Symbol.ofText text) := readSymbols_spell hafter (Symbol.slot_not_mem_ofText text)
  rw [Symbol.spell_ofText] at hread
  rw [Token.read, hread, Option.map_some]

/-- A word ends at a point, whether it is a name or not. -/
theorem ofSymbols_word {word : List Char} (h : isIdentifier word = true) (rest : List Symbol) :
    ofSymbols [] (word.map .bare ++ .bare '.' :: rest) =
      .name (String.ofList word) :: .mark '.' :: ofSymbols [] rest := by
  have hword : ofName word = [.name (String.ofList word)] := by
    cases word with
    | nil => cases h
    | cons c word => rfl
  rw [ofSymbols_nameChars (isNameChar_of_isIdentifier h), List.nil_append, ofSymbols, hword]
  rfl

theorem ofSymbols_path {parts : List (List Char)}
    (hparts : ∀ part ∈ parts, isIdentifier part = true) (hne : parts ≠ [])
    (rest : List Symbol) :
    ofSymbols [] ((['.'].intercalate parts).map .bare ++ .bare '.' :: rest) =
      (parts.map String.ofList).flatMap (fun part => [.name part, .mark '.']) ++
        ofSymbols [] rest := by
  induction parts with
  | nil => exact absurd rfl hne
  | cons part parts ih =>
    obtain ⟨hpart, hparts⟩ := List.forall_mem_cons.mp hparts
    cases parts with
    | nil =>
      rw [List.intercalate_singleton, ofSymbols_word hpart]
      rfl
    | cons next parts =>
      have hlater := ih hparts (List.cons_ne_nil _ _)
      rw [List.intercalate_cons_cons, List.append_assoc, List.map_append, List.append_assoc,
        List.singleton_append, List.map_cons, List.cons_append, ofSymbols_word hpart, hlater]
      rfl

end Token

/-! ## Expressions -/

namespace HostExpression

/-- What one gets to from an expression by one field after the other. -/
def path (e : HostExpression) (parts : List String) : HostExpression := parts.foldl .field e

def ofParts : List String → HostExpression
  | [] => .none
  | first :: rest => (HostExpression.name first).path rest

/-- The active window, which is asked of the host module. -/
def activeWindow (s : Settings) : HostExpression :=
  .call (.field (ofParts s.moduleParts) "active_window") []

theorem path_inj {e e' : HostExpression} {parts : List String} (h : e.path parts = e'.path parts) :
    e = e' := by
  induction parts generalizing e e' with
  | nil => exact h
  | cons part parts ih => exact (HostExpression.field.inj (ih h)).1

end HostExpression

namespace ParseState

open HostExpression (path)

variable {e : HostExpression} {rest : List Token}

theorem run_none {state : ParseState} {t : Token} (h : state.step t = none) :
    state.run (t :: rest) = none := by
  rw [run, List.foldlM_cons, h]
  rfl

/-- Parts are taken as fields as long as they are names. -/
theorem run_parts (parts : List String) :
    (ParseState.field e []).run
        (parts.flatMap (fun part => [.name part, .mark '.']) ++ rest) =
      if parts.all isName then (ParseState.field (e.path parts) []).run rest else none := by
  induction parts generalizing e with
  | nil => rfl
  | cons part parts ih =>
    rw [List.flatMap_cons, List.append_assoc, List.cons_append, List.all_cons]
    by_cases hpart : isName part = true
    · have hname : (ParseState.field e []).step (.name part) =
          some (.operator (.field e part) []) := if_pos hpart
      rw [run_cons hname, List.cons_append, List.nil_append, run_cons rfl, ih, hpart,
        Bool.true_and]
      rfl
    · have hnone : (ParseState.field e []).step (.name part) = none := if_neg hpart
      rw [run_none hnone, if_neg (by simp [hpart])]

/-- The first part is taken as a name, but for the word for no value. -/
theorem run_first (first : String) :
    (ParseState.operand []).run (.name first :: .mark '.' :: rest) =
      if first = "None" then (ParseState.field .none []).run rest
      else if isName first then (ParseState.field (.name first) []).run rest else none := by
  have hstep : (ParseState.operand []).step (.name first) = begin [] (.name first) := rfl
  by_cases hnone : first = "None"
  · rw [if_pos hnone, run_cons (hstep.trans (if_pos hnone)), run_cons rfl]
  · rw [if_neg hnone]
    have hbegin : begin [] (.name first) = if first = "lambda" then some (.colon [])
        else if isName first then some (.operator (.name first) []) else none := if_neg hnone
    by_cases hlambda : first = "lambda"
    · subst hlambda
      rw [run_cons (hstep.trans hbegin), run_none rfl]
      rfl
    · rw [if_neg hlambda] at hbegin
      by_cases hname : isName first = true
      · rw [if_pos hname] at hbegin ⊢
        rw [run_cons (hstep.trans hbegin), run_cons rfl]
      · rw [if_neg hname] at hbegin ⊢
        exact run_none (hstep.trans hbegin)

end ParseState

/-! ## Reading -/

/-- A call of something at the end of a path is read as such exactly if the path has only names. -/
theorem readExpression_path (parts : List String) (hne : parts ≠ []) :
    readExpression (parts.flatMap (fun part => [.name part, .mark '.']) ++
        [.name "active_window", .mark '(', .mark ')']) =
      some (.call (.field (.ofParts parts) "active_window") []) ↔ parts.all isName = true := by
  have hcall : ∀ e, ((ParseState.field e []).run [.name "active_window", .mark '(', .mark ')']).bind
      ParseState.result? = some (.call (.field e "active_window") []) := fun _ => rfl
  cases parts with
  | nil => exact absurd rfl hne
  | cons first parts =>
    rw [readExpression, List.flatMap_cons, List.append_assoc, List.cons_append, List.cons_append,
      List.nil_append, ParseState.run_first, ParseState.run_parts, ParseState.run_parts,
      List.all_cons]
    by_cases hnone : first = "None"
    · have hother : isName first = false := by
        subst hnone
        decide
      rw [if_pos hnone, hother]
      constructor
      · intro hread
        split at hread
        · rw [hcall] at hread
          simp only [Option.some.injEq, HostExpression.call.injEq, HostExpression.field.injEq]
            at hread
          cases HostExpression.path_inj hread.1.1
        · cases hread
      · intro hnames
        cases hnames
    · rw [if_neg hnone]
      cases isName first <;> cases parts.all isName
      case true.true => exact iff_of_true (hcall _) rfl
      all_goals simp

theorem readExpression_activeWindow {s : Settings} (h : isModulePath s.hostModule.toList = true) :
    (Token.read (activeWindowSource s)).bind readExpression = some (.activeWindow s) ↔
      s.moduleParts.all isName = true := by
  have hparts : ∀ part ∈ dotted s.hostModule.toList, isIdentifier part = true :=
    List.all_eq_true.mp h
  have hbare : IsBareText (activeWindowSource s) :=
    isBareText_append (isBare_of_isModulePath h) (by decide)
  have htokens : Token.ofSymbols [] (Symbol.ofText (activeWindowSource s)) =
      s.moduleParts.flatMap (fun part => [.name part, .mark '.']) ++
        [.name "active_window", .mark '(', .mark ')'] := by
    have hpath := Token.ofSymbols_path hparts (dotted_ne_nil _) (Symbol.ofText "active_window()")
    rw [intercalate_dotted] at hpath
    rw [activeWindowSource, Symbol.ofText_append]
    exact hpath
  rw [Token.read_bare hbare, Option.bind_some, htokens]
  exact readExpression_path _ (by simpa [Settings.moduleParts] using dotted_ne_nil _)

end RemoteHost
