import RemoteHost.Proofs.SymbolRows

/-!
# Expressions of the host language

The part of the host language that the expressions of programs are written in: names, texts, lists,
attributes, calls, lists that run through other lists, and functions without parameters. A source
text is cut into tokens, which are read one after the other on a stack of what is not complete yet.
-/

namespace RemoteHost

/-! ## Tokens -/

inductive Token where
  | name (name : String)
  | text (content : String)
  | mark (c : Char)
  deriving DecidableEq

namespace Token

def ofName (name : List Char) : List Token :=
  if name.isEmpty then [] else [.name (String.ofList name)]

/-- The tokens of symbols that come right after the beginning of a name. Spaces end names and are
nothing else. -/
def ofSymbols (name : List Char) : List Symbol → List Token
  | [] => ofName name
  | .bare c :: rest =>
    if isNameChar c then ofSymbols (name ++ [c]) rest
    else if c = ' ' then ofName name ++ ofSymbols [] rest
    else ofName name ++ .mark c :: ofSymbols [] rest
  | .literal content :: rest => ofName name ++ .text (String.ofList content) :: ofSymbols [] rest
  | .slot :: rest => ofName name ++ .mark '$' :: ofSymbols [] rest

/-- The tokens of a source text. -/
def read (source : String) : Option (List Token) :=
  (readSymbols .nothing source.toList).map (ofSymbols [])

end Token

/-- The words of the host language that are no names. -/
def keywords : List String :=
  ["False", "None", "True", "and", "as", "assert", "async", "await", "break", "class", "continue",
    "def", "del", "elif", "else", "except", "finally", "for", "from", "global", "if", "import",
    "in", "is", "lambda", "nonlocal", "not", "or", "pass", "raise", "return", "try", "while",
    "with", "yield"]

def isName (name : String) : Bool := isIdentifier name.toList && name ∉ keywords

/-! ## Expressions -/

inductive HostExpression where
  | name (name : String)
  | none
  | text (content : String)
  | list (items : List HostExpression)
  | field (owner : HostExpression) (name : String)
  | call (function : HostExpression) (arguments : List HostExpression)
  /-- The list of what an item is for each element of another list. -/
  | collect (item : HostExpression) (bound : String) (source : HostExpression)
  /-- A function without parameters. -/
  | thunk (body : HostExpression)

namespace HostExpression

def isThunk : HostExpression → Bool
  | thunk _ => true
  | _ => false

mutual

/-- Whether all names are names, and functions are not called or looked into right where they are
written. -/
def isProper : HostExpression → Bool
  | name n => isName n
  | none | text _ => true
  | list items => areProper items
  | field owner n => owner.isProper && !owner.isThunk && isName n
  | call function arguments => function.isProper && !function.isThunk && areProper arguments
  | collect item bound source => item.isProper && isName bound && source.isProper
  | thunk body => body.isProper

def areProper : List HostExpression → Bool
  | [] => true
  | e :: rest => e.isProper && areProper rest

end

mutual

/-- How an expression is written. The body of a function stands in parentheses. -/
def tokens : HostExpression → List Token
  | name n => [.name n]
  | none => [.name "None"]
  | text content => [.text content]
  | list items => .mark '[' :: itemTokens items ++ [.mark ']']
  | field owner n => owner.tokens ++ [.mark '.', .name n]
  | call function arguments =>
    function.tokens ++ .mark '(' :: itemTokens arguments ++ [.mark ')']
  | collect item bound source => .mark '[' :: item.tokens ++
      [.name "for", .name bound, .name "in"] ++ source.tokens ++ [.mark ']']
  | thunk body => .name "lambda" :: .mark ':' :: .mark '(' :: body.tokens ++ [.mark ')']

def itemTokens : List HostExpression → List Token
  | [] => []
  | [e] => e.tokens
  | e :: rest => e.tokens ++ .mark ',' :: itemTokens rest

end

end HostExpression

/-! ## Reading -/

open HostExpression (areProper itemTokens)

/-- What a row of items is for. -/
inductive Gathering where
  | list
  | arguments (function : HostExpression)

namespace Gathering

def close : Gathering → Char
  | list => ']'
  | arguments _ => ')'

def finish : Gathering → List HostExpression → HostExpression
  | list, items => .list items
  | arguments function, items => .call function items

end Gathering

/-- Something that has begun and waits for the expression that is being read. -/
inductive Frame where
  | group
  | thunk
  | gather (what : Gathering) (done : List HostExpression)
  | source (item : HostExpression) (bound : String)

/-- The functions that end where an expression ends. -/
def endThunks (e : HostExpression) : List Frame → HostExpression × List Frame
  | .thunk :: stack => endThunks (.thunk e) stack
  | stack => (e, stack)

inductive ParseState where
  /-- An expression has to begin. -/
  | operand (stack : List Frame)
  /-- An expression was read, and may go on. -/
  | operator (e : HostExpression) (stack : List Frame)
  | field (owner : HostExpression) (stack : List Frame)
  | colon (stack : List Frame)
  | element (item : HostExpression) (stack : List Frame)
  | word (item : HostExpression) (bound : String) (stack : List Frame)

namespace ParseState

/-- The beginning of an expression, or the end of a row of items. -/
def begin (stack : List Frame) : Token → Option ParseState
  | .name n =>
    if n = "None" then some (.operator .none stack)
    else if n = "lambda" then some (.colon stack)
    else if isName n then some (.operator (.name n) stack)
    else none
  | .text content => some (.operator (.text content) stack)
  | .mark c =>
    if c = '(' then some (.operand (.group :: stack))
    else if c = '[' then some (.operand (.gather .list [] :: stack))
    else match stack with
      | .gather what done :: stack =>
        if c = what.close then some (.operator (what.finish done) stack) else none
      | _ => none

/-- The end of an expression, for what waited for it. -/
def finish (t : Token) : HostExpression × List Frame → Option ParseState
  | (e, .group :: stack) => if t = .mark ')' then some (.operator e stack) else none
  | (e, .gather what done :: stack) =>
    if t = .mark ',' then some (.operand (.gather what (done ++ [e]) :: stack))
    else if t = .mark what.close then some (.operator (what.finish (done ++ [e])) stack)
    else match t, what, done with
      | .name "for", .list, [] => some (.element e stack)
      | _, _, _ => none
  | (e, .source item bound :: stack) =>
    if t = .mark ']' then some (.operator (.collect item bound e) stack) else none
  | _ => none

def step : ParseState → Token → Option ParseState
  | operand stack, t => begin stack t
  | operator e stack, t =>
    if t = .mark '.' then some (.field e stack)
    else if t = .mark '(' then some (.operand (.gather (.arguments e) [] :: stack))
    else finish t (endThunks e stack)
  | field owner stack, .name n => if isName n then some (.operator (.field owner n) stack) else none
  | colon stack, t => if t = .mark ':' then some (.operand (.thunk :: stack)) else none
  | element item stack, .name n => if isName n then some (.word item n stack) else none
  | word item bound stack, t =>
    if t = .name "in" then some (.operand (.source item bound :: stack)) else none
  | _, _ => none

def run (state : ParseState) (tokens : List Token) : Option ParseState := tokens.foldlM step state

/-- What was read when the tokens are over. -/
def result? : ParseState → Option HostExpression
  | operator e stack => match endThunks e stack with
    | (e, []) => some e
    | _ => none
  | _ => none

end ParseState

def readExpression (tokens : List Token) : Option HostExpression :=
  ((ParseState.operand []).run tokens).bind ParseState.result?

/-- Reads a program that sets a name to the value of an expression. -/
def readProgram (source : String) : Option (String × HostExpression) :=
  match Token.read source with
  | some (.name target :: .mark '=' :: value) =>
    if isName target then (readExpression value).map (target, ·) else none
  | _ => none

/-! ## What is written is read -/

namespace ParseState

variable {e : HostExpression} {stack : List Frame}

theorem run_append {state later : ParseState} {ts : List Token} (h : state.run ts = some later)
    (us : List Token) : state.run (ts ++ us) = later.run us := by
  rw [run, List.foldlM_append]
  exact congrArg (· >>= fun s => s.run us) h

theorem run_cons {state later : ParseState} {t : Token} (h : state.step t = some later)
    (us : List Token) : state.run (t :: us) = later.run us := by
  rw [run, List.foldlM_cons, h]
  rfl

/-- The state after an expression. A function is not at its end before something ends it. -/
def after (stack : List Frame) : HostExpression → ParseState
  | .thunk body => .operator body (.thunk :: stack)
  | e => .operator e stack

theorem after_of_not_isThunk (h : e.isThunk = false) : after stack e = .operator e stack := by
  cases e with
  | thunk => cases h
  | _ => rfl

theorem result?_after (stack : List Frame) (e : HostExpression) :
    (after stack e).result? = (ParseState.operator e stack).result? := by
  cases e <;> rfl

/-- What ends an expression ends the functions it is the body of. -/
theorem step_after {t : Token} (hdot : t ≠ .mark '.') (hcall : t ≠ .mark '(') :
    (after stack e).step t = finish t (endThunks e stack) := by
  cases e <;> exact (if_neg hdot).trans (if_neg hcall)

theorem begin_name {n : String} (h : isName n = true) :
    begin stack (.name n) = some (.operator (.name n) stack) := by
  have hword : ∀ word ∈ keywords, n ≠ word := by
    rintro word hword rfl
    simp [isName, hword] at h
  rw [begin, if_neg (hword "None" (by decide)), if_neg (hword "lambda" (by decide)), if_pos h]

/-- A row of items goes on after a comma. -/
theorem step_comma (e : HostExpression) (what : Gathering) (done : List HostExpression)
    (stack : List Frame) : (after (.gather what done :: stack) e).step (.mark ',') =
      some (.operand (.gather what (done ++ [e]) :: stack)) :=
  step_after (by decide) (by decide)

theorem step_close (e : HostExpression) (what : Gathering) (done : List HostExpression)
    (stack : List Frame) : (after (.gather what done :: stack) e).step (.mark what.close) =
      some (.operator (what.finish (done ++ [e])) stack) := by
  cases what with
  | list => exact step_after (by decide) (by decide)
  | arguments => exact step_after (by simp [Gathering.close]) (by simp [Gathering.close])

mutual

theorem run_tokens : ∀ (e : HostExpression) (stack : List Frame), e.isProper = true →
    (ParseState.operand stack).run e.tokens = some (after stack e)
  | .name n, stack, h => by
    have hname : (ParseState.operand stack).step (.name n) = some (.operator (.name n) stack) :=
      begin_name h
    exact run_cons hname []
  | .none, stack, _ => rfl
  | .text content, stack, _ => rfl
  | .list items, stack, h => run_items items .list [] stack h
  | .field owner n, stack, h => by
    simp only [HostExpression.isProper, Bool.and_eq_true, Bool.not_eq_true'] at h
    obtain ⟨⟨howner, hthunk⟩, hn⟩ := h
    have hread := run_tokens owner stack howner
    rw [after_of_not_isThunk hthunk] at hread
    have hname : (ParseState.field owner stack).step (.name n) =
        some (.operator (.field owner n) stack) := if_pos hn
    calc (ParseState.operand stack).run (HostExpression.field owner n).tokens
        = (ParseState.operator owner stack).run [.mark '.', .name n] := run_append hread _
      _ = (ParseState.field owner stack).run [.name n] := run_cons rfl _
      _ = some (.operator (.field owner n) stack) := run_cons hname []
  | .call function arguments, stack, h => by
    simp only [HostExpression.isProper, Bool.and_eq_true, Bool.not_eq_true'] at h
    obtain ⟨⟨hfunction, hthunk⟩, harguments⟩ := h
    have hread := run_tokens function stack hfunction
    rw [after_of_not_isThunk hthunk] at hread
    rw [HostExpression.tokens, List.append_assoc, run_append hread]
    exact run_items arguments (.arguments function) [] stack harguments
  | .collect item bound source, stack, h => by
    simp only [HostExpression.isProper, Bool.and_eq_true] at h
    obtain ⟨⟨hitem, hbound⟩, hsource⟩ := h
    have hfor : (after (.gather .list [] :: stack) item).step (.name "for") =
        some (.element item stack) := step_after (by decide) (by decide)
    have hname : (ParseState.element item stack).step (.name bound) =
        some (.word item bound stack) := if_pos hbound
    have hclose : (after (.source item bound :: stack) source).step (.mark ']') =
        some (.operator (.collect item bound source) stack) := step_after (by decide) (by decide)
    have hshape : (HostExpression.collect item bound source).tokens = .mark '[' :: (item.tokens ++
        .name "for" :: .name bound :: .name "in" :: (source.tokens ++ [.mark ']'])) := by
      simp [HostExpression.tokens]
    rw [hshape]
    calc (ParseState.operand stack).run _
        = (ParseState.operand (.gather .list [] :: stack)).run _ := run_cons rfl _
      _ = (after (.gather .list [] :: stack) item).run _ := run_append (run_tokens item _ hitem) _
      _ = (ParseState.element item stack).run _ := run_cons hfor _
      _ = (ParseState.word item bound stack).run _ := run_cons hname _
      _ = (ParseState.operand (.source item bound :: stack)).run _ := run_cons rfl _
      _ = (after (.source item bound :: stack) source).run _ :=
        run_append (run_tokens source _ hsource) _
      _ = some (.operator (.collect item bound source) stack) := run_cons hclose []
  | .thunk body, stack, h => by
    have hclose : (after (.group :: .thunk :: stack) body).step (.mark ')') =
        some (.operator body (.thunk :: stack)) := step_after (by decide) (by decide)
    calc (ParseState.operand stack).run (HostExpression.thunk body).tokens
        = (ParseState.colon stack).run _ := run_cons rfl _
      _ = (ParseState.operand (.thunk :: stack)).run _ := run_cons rfl _
      _ = (ParseState.operand (.group :: .thunk :: stack)).run _ := run_cons rfl _
      _ = (after (.group :: .thunk :: stack) body).run _ := run_append (run_tokens body _ h) _
      _ = some (.operator body (.thunk :: stack)) := run_cons hclose []

theorem run_items : ∀ (items : List HostExpression) (what : Gathering)
    (done : List HostExpression) (stack : List Frame), areProper items = true →
    (ParseState.operand (.gather what done :: stack)).run (itemTokens items ++ [.mark what.close]) =
      some (.operator (what.finish (done ++ items)) stack)
  | [], what, done, stack, _ => by
    rw [List.append_nil]
    cases what <;> rfl
  | [e], what, done, stack, h => by
    have he : e.isProper = true := (Bool.and_eq_true_iff.mp h).1
    rw [itemTokens, run_append (run_tokens e _ he)]
    exact run_cons (step_close e what done stack) []
  | e :: next :: more, what, done, stack, h => by
    obtain ⟨he, hrest⟩ := Bool.and_eq_true_iff.mp h
    have hshape : itemTokens (e :: next :: more) =
        e.tokens ++ .mark ',' :: itemTokens (next :: more) := by
      rw [itemTokens]
      exact List.cons_ne_nil _ _
    rw [hshape, List.append_assoc, run_append (run_tokens e _ he), List.cons_append,
      run_cons (step_comma e what done stack),
      run_items (next :: more) what (done ++ [e]) stack hrest, List.append_assoc]
    rfl

end

end ParseState

/-- What is written is read again. -/
theorem readExpression_tokens {e : HostExpression} (h : e.isProper = true) :
    readExpression e.tokens = some e := by
  rw [readExpression, ParseState.run_tokens e [] h]
  exact (ParseState.result?_after [] e).trans rfl

/-- A function that is called right where it is written is read as a call in its body. -/
example : readExpression (HostExpression.call (.thunk (.name "f")) []).tokens =
    some (.thunk (.call (.name "f") [])) := rfl

end RemoteHost
