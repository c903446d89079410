import Mathlib.Logic.Function.Basic
import RemoteHost.Proofs.HostExpressions
import RemoteHost.Proofs.NumberTexts

/-!
# Modules of the host language

The part of the host language that a module is written in: it loads libraries, defines functions,
assigns values to names, and provides values for names that may have one already. A module is cut
into the blocks that begin at its margin, and each block is read by its first words. What a module
does to the names of its host is told by the statement that bound each name last.
-/

namespace RemoteHost

open Literal (Stops takeWhile_run dropWhile_run)

/-! ## Values -/

inductive QuoteMark where
  | single
  | double
  deriving DecidableEq

namespace QuoteMark

def char : QuoteMark → Char
  | single => '\''
  | double => '"'

def ofChar? (c : Char) : Option QuoteMark :=
  if c = '\'' then some single else if c = '"' then some double else none

end QuoteMark

/-- What the next character of a value belongs to. -/
inductive ScanMode where
  | code
  /-- After one quote, which begins a literal. -/
  | opened (quote : QuoteMark)
  /-- After two quotes: a literal was empty, or a third one begins a long literal. -/
  | doubled (quote : QuoteMark)
  | literal (quote : QuoteMark)
  | escape (quote : QuoteMark)
  /-- In a long literal, after some quotes in a row. Three of them end it. -/
  | long (quote : QuoteMark) (quotes : Nat)
  | longEscape (quote : QuoteMark)
  | comment
  /-- After a backslash, with which a line goes on in the next one. -/
  | continued
  deriving DecidableEq

/-- Where a value has been read to, and how many brackets are open there. -/
structure Scan where
  mode : ScanMode := .code
  depth : Nat := 0
  deriving DecidableEq

namespace Scan

/-- A character outside literals and comments. -/
def code (depth : Nat) (c : Char) : Option Scan :=
  match QuoteMark.ofChar? c with
  | some quote => some ⟨.opened quote, depth⟩
  | none =>
    if c ∈ ['(', '[', '\x7b'] then some ⟨.code, depth + 1⟩
    else if c ∈ [')', ']', '\x7d'] then
      match depth with
      | 0 => none
      | depth + 1 => some ⟨.code, depth⟩
    else if c = '#' then some ⟨.comment, depth⟩
    else if c = '\\' then some ⟨.continued, depth⟩
    else some ⟨.code, depth⟩

/-- A character of a literal that does not end it. -/
def content (quote : QuoteMark) (depth : Nat) (c : Char) : Option Scan :=
  if c = '\\' then some ⟨.escape quote, depth⟩
  else if c = '\n' ∨ c = '\r' then none
  else some ⟨.literal quote, depth⟩

def step : Scan → Char → Option Scan
  | ⟨.code, depth⟩, c => code depth c
  | ⟨.opened quote, depth⟩, c =>
    if c = quote.char then some ⟨.doubled quote, depth⟩ else content quote depth c
  | ⟨.doubled quote, depth⟩, c =>
    if c = quote.char then some ⟨.long quote 0, depth⟩ else code depth c
  | ⟨.literal quote, depth⟩, c =>
    if c = quote.char then some ⟨.code, depth⟩ else content quote depth c
  | ⟨.escape quote, depth⟩, _ => some ⟨.literal quote, depth⟩
  | ⟨.long quote quotes, depth⟩, c =>
    if c = quote.char then some ⟨if quotes = 2 then .code else .long quote (quotes + 1), depth⟩
    else if c = '\\' then some ⟨.longEscape quote, depth⟩
    else some ⟨.long quote 0, depth⟩
  | ⟨.longEscape quote, depth⟩, _ => some ⟨.long quote 0, depth⟩
  | ⟨.comment, depth⟩, c => some ⟨if c = '\n' ∨ c = '\r' then .code else .comment, depth⟩
  | ⟨.continued, depth⟩, c => if c = '\n' ∨ c = '\r' then some ⟨.code, depth⟩ else none

/-- A character of a value that stands in no brackets itself: a statement ends, or assigns to one
more target, only outside of brackets. -/
def stepOutside (scan : Scan) (c : Char) : Option Scan :=
  if scan.depth = 0 ∧ c ∈ ['\n', '\r', ';', '='] then none else scan.step c

/-- Whether a text may end here. -/
def isDone : Scan → Bool
  | ⟨.code, 0⟩ | ⟨.doubled _, 0⟩ => true
  | _ => false

/-- The same place of a text that stands in more brackets. -/
def raise (scan : Scan) (k : Nat) : Scan := { scan with depth := scan.depth + k }

variable {scan next : Scan} {c : Char}

theorem code_raise {depth : Nat} (h : code depth c = some next) (k : Nat) :
    code (depth + k) c = some (next.raise k) := by
  unfold code at h ⊢
  split at h
  · cases h
    rfl
  · split_ifs at h ⊢
    · cases h
      simp [raise, Nat.add_right_comm]
    · cases depth with
      | zero => cases h
      | succ depth =>
        cases h
        rw [Nat.add_right_comm]
        rfl
    all_goals
      cases h
      rfl

theorem content_raise {quote : QuoteMark} {depth : Nat} (h : content quote depth c = some next)
    (k : Nat) : content quote (depth + k) c = some (next.raise k) := by
  unfold content at h ⊢
  split_ifs at h ⊢ <;> cases h <;> rfl

/-- Brackets around a text change nothing in it. -/
theorem step_raise (h : scan.step c = some next) (k : Nat) :
    (scan.raise k).step c = some (next.raise k) := by
  obtain ⟨mode, depth⟩ := scan
  cases mode with
  | code => exact code_raise h k
  | opened quote | literal quote =>
    simp only [step, raise] at h ⊢
    split_ifs at h ⊢
    · cases h
      rfl
    · exact content_raise h k
  | doubled quote =>
    simp only [step, raise] at h ⊢
    split_ifs at h ⊢
    · cases h
      rfl
    · exact code_raise h k
  | long quote quotes =>
    simp only [step, raise] at h ⊢
    split_ifs at h ⊢ <;> cases h <;> rfl
  | escape | longEscape | comment =>
    cases h
    rfl
  | continued =>
    simp only [step, raise] at h ⊢
    split_ifs at h ⊢
    cases h
    rfl

theorem run_append {text : List Char} (h : text.foldlM stepOutside scan = some next)
    (rest : List Char) :
    (text ++ rest).foldlM stepOutside scan = rest.foldlM stepOutside next := by
  rw [List.foldlM_append, h]
  rfl

/-- In brackets a text may have line breaks. -/
theorem run_raise {text : List Char} (h : text.foldlM step scan = some next) (k : Nat) :
    text.foldlM stepOutside (scan.raise (k + 1)) = some (next.raise (k + 1)) := by
  induction text generalizing scan with
  | nil =>
    cases h
    rfl
  | cons c text ih =>
    rw [List.foldlM_cons] at h ⊢
    obtain ⟨middle, hstep, hrest⟩ := Option.bind_eq_some_iff.mp h
    have hinside : (scan.raise (k + 1)).stepOutside c = some (middle.raise (k + 1)) := by
      rw [stepOutside, if_neg, step_raise hstep]
      rintro ⟨hdepth, -⟩
      cases hdepth
    rw [hinside]
    exact ih hrest

/-- Characters of names go on with a text, whatever is open. -/
theorem stepOutside_nameChar (hc : isNameChar c = true) (depth : Nat) :
    (⟨.code, depth⟩ : Scan).stepOutside c = some ⟨.code, depth⟩ := by
  have hne : ∀ d, isNameChar d = false → c ≠ d := by
    rintro d hd rfl
    rw [hc] at hd
    cases hd
  have hother : c ∉ ['\n', '\r', ';', '=', '\'', '"', '(', '[', '\x7b', ')', ']', '\x7d', '#',
      '\\'] := by
    simp only [List.mem_cons, List.not_mem_nil, or_false, not_or]
    repeat' constructor
    all_goals exact hne _ rfl
  simp only [List.mem_cons, List.not_mem_nil, or_false, not_or] at hother
  simp [stepOutside, step, code, QuoteMark.ofChar?, hother]

theorem run_nameChars {name : List Char} (h : ∀ c ∈ name, isNameChar c = true) (depth : Nat) :
    name.foldlM stepOutside (⟨.code, depth⟩ : Scan) = some ⟨.code, depth⟩ := by
  induction name with
  | nil => rfl
  | cons c name ih =>
    obtain ⟨hc, hname⟩ := List.forall_mem_cons.mp h
    rw [List.foldlM_cons, stepOutside_nameChar hc]
    exact ih hname

end Scan

/-- Whether a text can be the value of an assignment. -/
def isValue (text : List Char) : Bool := (text.foldlM Scan.stepOutside {}).any Scan.isDone

/-- Whether a text can stand in brackets: its literals end in it, and its brackets are those that it
opens itself. -/
def isEnclosable (text : List Char) : Bool := (text.foldlM Scan.step {}).any Scan.isDone

example : isEnclosable "f('a)', [\n1])".toList = true := by decide

/-- The brackets around this text would end in it. -/
example : isEnclosable "1), g(2".toList = false := by decide

/-- In brackets a text leaves as many brackets open as it found. -/
theorem run_enclosed {text : List Char} (h : isEnclosable text = true) (k : Nat) :
    ∃ mode, (Scan.mk mode 0).isDone = true ∧
      text.foldlM Scan.stepOutside (⟨.code, k + 1⟩ : Scan) = some ⟨mode, k + 1⟩ := by
  obtain ⟨⟨mode, depth⟩, hrun, hdone⟩ := (Option.any_eq_true ..).mp h
  obtain rfl : depth = 0 := by
    cases depth with
    | zero => rfl
    | succ => cases mode <;> cases hdone
  refine ⟨mode, hdone, ?_⟩
  have hraised := Scan.run_raise hrun k
  simpa [Scan.raise] using hraised

/-! ## Statements -/

/-- What binds a name. -/
inductive HostStatement where
  | load (name : String)
  /-- Binds a name that nothing has bound. -/
  | provide (name : String) (value : List Char)
  | define (name : String) (parameters : List Char) (body : List (List Char))
  | assign (name : String) (value : List Char)
  deriving DecidableEq

namespace HostStatement

def name : HostStatement → String
  | load name | provide name _ | define name _ _ | assign name _ => name

end HostStatement

/-- The name at the beginning of a text, and what comes after it. -/
def cutName (text : List Char) : Option (String × List Char) :=
  let name := String.ofList (text.takeWhile isNameChar)
  if isName name then some (name, text.dropWhile isNameChar) else none

/-- Reads a text that assigns a value to a name. -/
def readAssignment (text : List Char) : Option (String × List Char) :=
  match cutName text with
  | some (name, ' ' :: '=' :: ' ' :: value) => if isValue value then some (name, value) else none
  | _ => none

theorem cutName_append {name : String} (h : isIdentifier name.toList = true) {rest : List Char}
    (hrest : Stops isNameChar rest) :
    cutName (name.toList ++ rest) = if isName name then some (name, rest) else none := by
  have hrun := isNameChar_of_isIdentifier h
  rw [cutName, takeWhile_run hrun hrest, dropWhile_run hrun hrest, String.ofList_toList]

theorem cutName_whole {name : String} (h : isIdentifier name.toList = true) :
    cutName name.toList = if isName name then some (name, []) else none := by
  have hend : Stops isNameChar [] := by simp [Stops]
  simpa using cutName_append h hend

theorem readAssignment_append {name : String} (h : isIdentifier name.toList = true)
    {value : List Char} (hvalue : isValue value = true) :
    readAssignment (name.toList ++ ' ' :: '=' :: ' ' :: value) =
      if isName name then some (name, value) else none := by
  have hrest : Stops isNameChar (' ' :: '=' :: ' ' :: value) := by
    rintro c ⟨⟩
    rfl
  rw [readAssignment, cutName_append h hrest]
  by_cases hname : isName name = true
  · simp [hname, hvalue]
  · simp [hname]

/-! ## Blocks -/

/-- A line at the margin, with the indented and the empty lines after it. -/
structure Block where
  head : List Char
  body : List (List Char) := []
  deriving DecidableEq

/-- Whether a line does not begin a block. -/
def isInner (line : List Char) : Bool := line.head?.all (· = ' ')

/-- The lines before the first block of some lines, and the blocks. -/
def cutBlocks : List (List Char) → List (List Char) × List Block
  | [] => ([], [])
  | line :: rest =>
    match cutBlocks rest with
    | (body, blocks) =>
      if isInner line then (line :: body, blocks) else ([], ⟨line, body⟩ :: blocks)

namespace Block

def map (f : List Char → List Char) (b : Block) : Block := ⟨f b.head, b.body.map f⟩

/-- What the lines of a block say, without their indentation. -/
def inner (b : Block) : List (List Char) := (b.body.filter (!·.isEmpty)).map (·.drop 4)

/-- Reads a block that is a statement of its own. -/
def read (b : Block) : Option HostStatement :=
  let word := String.ofList (b.head.takeWhile isNameChar)
  match b.head.dropWhile isNameChar with
  | ' ' :: rest =>
    if word = "import" then
      match cutName rest, b.inner with
      | some (name, []), [] => some (.load name)
      | _, _ => none
    else if word = "def" then (cutName rest).map fun (name, parameters) =>
      .define name parameters b.body
    else
      match readAssignment b.head, b.inner with
      | some (name, value), [] => some (.assign name value)
      | _, _ => none
  | _ => none

/-- Reads a block that looks a name up with the one that is for when it is not bound. -/
def readGuard (looked missing : Block) : Option HostStatement :=
  match looked.inner, missing.inner with
  | [probe], [setting] =>
    match cutName probe, readAssignment setting with
    | some (name, []), some (name', value) =>
      if missing.head = "except NameError:".toList ∧ name = name' then some (.provide name value)
      else none
    | _, _ => none
  | _, _ => none

end Block

def readBlocks : List Block → Option (List HostStatement)
  | [] => some []
  | b :: rest =>
    if b.head = "try:".toList then
      match rest with
      | [] => none
      | missing :: rest => do
        let statement ← b.readGuard missing
        let statements ← readBlocks rest
        some (statement :: statements)
    else do
      let statement ← b.read
      let statements ← readBlocks rest
      some (statement :: statements)

/-- The statements of a module. -/
def readModule (text : List Char) : Option (List HostStatement) :=
  match cutBlocks (text.splitOn '\n') with
  | (before, blocks) => if before.all List.isEmpty then readBlocks blocks else none

/-- What is done to lines that keep their places is done to their blocks. -/
theorem cutBlocks_map {f : List Char → List Char} {lines : List (List Char)}
    (h : ∀ line ∈ lines, isInner (f line) = isInner line) :
    cutBlocks (lines.map f) =
      ((cutBlocks lines).1.map f, (cutBlocks lines).2.map (Block.map f)) := by
  induction lines with
  | nil => rfl
  | cons line rest ih =>
    obtain ⟨hline, hrest⟩ := List.forall_mem_cons.mp h
    rw [List.map_cons, cutBlocks, cutBlocks, ih hrest, hline]
    dsimp only
    split <;> rfl

/-! ## How statements are written -/

/-- The blocks of a statement. Where nothing belongs in a block, empty lines may follow. -/
inductive HostStatement.Writes : HostStatement → List Block → Prop
  | load {name : String} {body : List (List Char)} (h : isIdentifier name.toList = true)
    (hbody : ∀ line ∈ body, line = []) :
    Writes (.load name) [⟨"import ".toList ++ name.toList, body⟩]
  | provide {name : String} {value : List Char} {body : List (List Char)}
    (h : isIdentifier name.toList = true) (hvalue : isValue value = true)
    (hbody : ∀ line ∈ body, line = []) :
    Writes (.provide name value) [⟨"try:".toList, ["    ".toList ++ name.toList]⟩,
      ⟨"except NameError:".toList,
        ("    ".toList ++ (name.toList ++ ' ' :: '=' :: ' ' :: value)) :: body⟩]
  | define {name : String} {parameters : List Char} {body : List (List Char)}
    (h : isIdentifier name.toList = true) (hparameters : Stops isNameChar parameters) :
    Writes (.define name parameters body) [⟨"def ".toList ++ (name.toList ++ parameters), body⟩]
  | assign {name : String} {value : List Char} {body : List (List Char)}
    (h : isIdentifier name.toList = true) (hvalue : isValue value = true)
    (hbody : ∀ line ∈ body, line = []) :
    Writes (.assign name value) [⟨name.toList ++ ' ' :: '=' :: ' ' :: value, body⟩]

section

variable {name : String} {body : List (List Char)}

namespace Block

theorem inner_of_empty (head : List Char) (h : ∀ line ∈ body, line = []) :
    (⟨head, body⟩ : Block).inner = [] := by
  simpa [inner] using h

theorem read_load (h : isIdentifier name.toList = true) (hbody : ∀ line ∈ body, line = []) :
    (⟨"import ".toList ++ name.toList, body⟩ : Block).read =
      if isName name then some (.load name) else none := by
  have hcut := cutName_whole h
  change (match cutName name.toList, inner _ with
    | some (name, []), [] => some (HostStatement.load name)
    | _, _ => none) = _
  rw [hcut, inner_of_empty _ hbody]
  by_cases hname : isName name = true <;> simp [hname]

theorem read_define (h : isIdentifier name.toList = true) {parameters : List Char}
    (hparameters : Stops isNameChar parameters) :
    (⟨"def ".toList ++ (name.toList ++ parameters), body⟩ : Block).read =
      if isName name then some (.define name parameters body) else none := by
  change (cutName (name.toList ++ parameters)).map _ = _
  rw [cutName_append h hparameters]
  by_cases hname : isName name = true <;> simp [hname]

theorem read_assign (h : isIdentifier name.toList = true) {value : List Char}
    (hvalue : isValue value = true) (hbody : ∀ line ∈ body, line = []) :
    (⟨name.toList ++ ' ' :: '=' :: ' ' :: value, body⟩ : Block).read =
      if isName name then some (.assign name value) else none := by
  have hrest : Stops isNameChar (' ' :: '=' :: ' ' :: value) := by
    rintro c ⟨⟩
    rfl
  have hrun := isNameChar_of_isIdentifier h
  have hassign := readAssignment_append h hvalue
  have hequals : cutName ('=' :: ' ' :: value) = none := rfl
  simp only [read, takeWhile_run hrun hrest, dropWhile_run hrun hrest, String.ofList_toList]
  -- The words that begin other statements are no names.
  by_cases hload : name = "import"
  · subst hload
    simp [hequals, isName, keywords]
  · by_cases hdef : name = "def"
    · subst hdef
      simp [hequals, isName, keywords]
    · rw [if_neg hload, if_neg hdef, hassign, inner_of_empty _ hbody]
      by_cases hname : isName name = true <;> simp [hname]

theorem readGuard_provide {value : List Char} (h : isIdentifier name.toList = true)
    (hvalue : isValue value = true) (hbody : ∀ line ∈ body, line = []) :
    readGuard ⟨"try:".toList, ["    ".toList ++ name.toList]⟩
      ⟨"except NameError:".toList, ("    ".toList ++ (name.toList ++ ' ' :: '=' :: ' ' :: value)) ::
        body⟩ = if isName name then some (.provide name value) else none := by
  have hcut := cutName_whole h
  have hprobe : inner ⟨"try:".toList, ["    ".toList ++ name.toList]⟩ = [name.toList] := rfl
  have hsetting : inner ⟨"except NameError:".toList,
      ("    ".toList ++ (name.toList ++ ' ' :: '=' :: ' ' :: value)) :: body⟩ =
        [name.toList ++ ' ' :: '=' :: ' ' :: value] := by
    change _ :: inner ⟨[], body⟩ = _
    rw [inner_of_empty _ hbody]
    rfl
  rw [readGuard, hprobe, hsetting]
  dsimp only
  rw [hcut, readAssignment_append h hvalue]
  by_cases hname : isName name = true <;> simp [hname]

end Block

variable {statement : HostStatement} {blocks rest : List Block}

theorem readBlocks_cons {b : Block} (h : b.head ≠ "try:".toList) :
    readBlocks (b :: rest) = b.read.bind fun st => (readBlocks rest).map (st :: ·) := by
  rw [readBlocks.eq_def]
  dsimp only
  rw [if_neg h]
  cases b.read <;> cases readBlocks rest <;> rfl

theorem readBlocks_guard (body : List (List Char)) (missing : Block) :
    readBlocks (⟨"try:".toList, body⟩ :: missing :: rest) =
      (Block.readGuard ⟨"try:".toList, body⟩ missing).bind fun st =>
        (readBlocks rest).map (st :: ·) := by
  rw [readBlocks, if_pos rfl]
  cases Block.readGuard ⟨"try:".toList, body⟩ missing <;> cases readBlocks rest <;> rfl

/-- A statement is read from its blocks if what it binds is a name. -/
theorem HostStatement.Writes.read (h : statement.Writes blocks) (rest : List Block) :
    readBlocks (blocks ++ rest) =
      if isName statement.name then (readBlocks rest).map (statement :: ·) else none := by
  have take : ∀ (p : Bool) (st : HostStatement),
      ((if p then some st else none).bind fun st => (readBlocks rest).map (st :: ·)) =
        if p then (readBlocks rest).map (st :: ·) else none := by
    intro p st
    cases p <;> rfl
  cases h with
  | load h hbody =>
    rw [List.singleton_append, readBlocks_cons (by rintro ⟨⟩), Block.read_load h hbody, take]
    rfl
  | provide h hvalue hbody =>
    rw [List.cons_append, List.singleton_append, readBlocks_guard,
      Block.readGuard_provide h hvalue hbody, take]
    rfl
  | define h hparameters =>
    rw [List.singleton_append, readBlocks_cons (by rintro ⟨⟩), Block.read_define h hparameters,
      take]
    rfl
  | assign h hvalue hbody =>
    have hhead : ∀ {name value : List Char}, name ++ ' ' :: value ≠ "try:".toList := by
      intro name value heq
      have hspace : ' ' ∈ "try:".toList := heq ▸ by simp
      revert hspace
      decide
    rw [List.singleton_append, readBlocks_cons hhead, Block.read_assign h hvalue hbody, take]
    rfl

/-- What is written is read, unless a word is to be bound that is no name. -/
theorem readBlocks_writes {statements : List HostStatement} {written : List (List Block)}
    (h : List.Forall₂ HostStatement.Writes statements written) :
    readBlocks written.flatten =
      if statements.all (isName ·.name) then some statements else none := by
  induction h with
  | nil => rfl
  | cons hfirst _ ih =>
    rw [List.flatten_cons, hfirst.read, ih, List.all_cons]
    split <;> split <;> simp_all

end

/-! ## Names -/

/-- The statement that bound each name last. -/
abbrev Bindings := String → Option HostStatement

namespace HostStatement

def run (bindings : Bindings) : HostStatement → Bindings
  | provide name value =>
    if (bindings name).isSome then bindings
    else Function.update bindings name (some (.provide name value))
  | statement => Function.update bindings statement.name (some statement)

/-- Whether a statement binds its name, or has bound it before. -/
def TakesHold (bindings : Bindings) : HostStatement → Prop
  | provide name value =>
    bindings name = none ∨ bindings name = some (.provide name value)
  | _ => True

variable {bindings : Bindings} {statement : HostStatement} {statements : List HostStatement}

theorem run_self (h : statement.TakesHold bindings) :
    statement.run bindings statement.name = some statement := by
  cases statement with
  | provide n value =>
    rcases h with h | h
    · simp [run, name, h]
    · simp [run, name, h]
  | _ => exact Function.update_self ..

/-- A statement leaves all other names alone. -/
theorem run_other {n : String} (h : n ≠ statement.name) :
    statement.run bindings n = bindings n := by
  cases statement with
  | provide name value =>
    simp only [run]
    split
    · rfl
    · exact Function.update_of_ne h _ _
  | _ => exact Function.update_of_ne h _ _

theorem runAll_other {n : String} (h : ∀ statement ∈ statements, n ≠ statement.name) :
    statements.foldl run bindings n = bindings n := by
  induction statements generalizing bindings with
  | nil => rfl
  | cons statement statements ih =>
    obtain ⟨hfirst, hrest⟩ := List.forall_mem_cons.mp h
    rw [List.foldl_cons, ih hrest, run_other hfirst]

theorem takesHold_congr {bindings' : Bindings}
    (h : bindings' statement.name = bindings statement.name) :
    statement.TakesHold bindings' ↔ statement.TakesHold bindings := by
  cases statement with
  | provide n value =>
    have hsame : bindings' n = bindings n := h
    simp only [TakesHold, hsame]
  | _ => exact Iff.rfl

/-- Statements that bind different names all last. -/
theorem runAll_of_nodup (hnames : (statements.map name).Nodup)
    (hhold : ∀ statement ∈ statements, statement.TakesHold bindings) :
    ∀ statement ∈ statements,
      statements.foldl run bindings statement.name = some statement := by
  induction statements generalizing bindings with
  | nil => exact fun _ hnone => absurd hnone List.not_mem_nil
  | cons first rest ih =>
    rw [List.map_cons, List.nodup_cons] at hnames
    obtain ⟨hfirst, hrest⟩ := List.forall_mem_cons.mp hhold
    have hne : ∀ statement ∈ rest, statement.name ≠ first.name := by
      intro statement hin heq
      exact hnames.1 (heq ▸ List.mem_map_of_mem hin)
    refine List.forall_mem_cons.mpr ⟨?_, fun statement hin => ?_⟩
    · rw [List.foldl_cons, runAll_other fun statement hin => (hne statement hin).symm]
      exact run_self hfirst
    · refine ih hnames.2 (fun other hother => ?_) statement hin
      exact (takesHold_congr (run_other (hne other hother))).mpr (hrest other hother)

/-- Different statements that all last bind different names. -/
theorem nodup_of_runAll (hdifferent : statements.Nodup) {after : Bindings}
    (hlast : ∀ statement ∈ statements, after statement.name = some statement) :
    (statements.map name).Nodup := by
  refine hdifferent.map_on fun a ha b hb hname => ?_
  have hsame := hlast a ha
  rw [hname, hlast b hb] at hsame
  exact (Option.some.inj hsame).symm

end HostStatement

end RemoteHost
