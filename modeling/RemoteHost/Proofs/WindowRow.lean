import Mathlib.Data.List.Infix
import RemoteHost.Catalogue.Objects
import RemoteHost.Proofs.Editor
import RemoteHost.Proofs.Quoting

/-!
# Windows in a row

An editor whose objects are windows in a row, each known by its place, with `.next()` as its only
operation. It reads programs from their text, and counts how often somebody went to a next window.
-/

namespace RemoteHost

structure Row where
  /-- The places of the windows that are kept, in the order in which they were stored. -/
  kept : List Nat := []
  moves : Nat := 0

namespace Row

def key (n : Nat) : String := String.ofList (List.replicate n 'k')

def stored (row : Row) (key : String) : Option Nat :=
  if key = Row.key key.length then row.kept[key.length]? else none

def store (place : Nat) (row : Row) : String × Row :=
  (key row.kept.length, { row with kept := row.kept ++ [place] })

def next (place : Nat) (row : Row) : Except String (Option Nat) × Row :=
  (.ok (some (place + 1)), { row with moves := row.moves + 1 })

/-- The window at which an expression starts, and which it is if nothing is appended. -/
def start (row : Row) (text : List Char) : Except String (Option Nat) :=
  if text = "sublime.active_window()".toList then .ok (some 0)
  else
    match ("__hostlink_handles[".toList.isPrefixOf? text).bind Literal.readQuoted with
    | some (key, [']']) =>
      match row.stored (String.ofList key) with
      | some place => .ok (some place)
      | none => .error "KeyError"
    | _ => .error "SyntaxError"

/-- Evaluates an expression whose text is given from its end. -/
def visit (row : Row) : List Char → Except String (Option Nat) × Row
  | ')' :: '(' :: 't' :: 'x' :: 'e' :: 'n' :: '.' :: text =>
    match visit row text with
    | (.ok (some place), row) => next place row
    | other => other
  | text => (start row text.reverse, row)

/-- The expression and the shape of a program. -/
def parsed (program : String) : Option (String × ResultShape) :=
  ResultShape.all.findSome? fun shape => do
    let rest ← "__hostlink_result = __hostlink_envelope(lambda: (".toList.isPrefixOf? program.toList
    let text ← ("), " ++ Literal.quoted shape.name ++ ")").toList.isSuffixOf? rest
    some (String.ofList text, shape)

/-- A row of windows, apart from how it replies to programs. -/
def mute : Editor Row Nat where
  eval expression row := visit row expression.toList.reverse
  perform _ := next
  stored := stored
  store := store
  primitive place := .ok (.ofNat place)
  items place := .ok (List.range place)
  serve _ row := (.closed, row)
  isExpression _ := True
  isOperation suffix := suffix = ".next()"
  alike row other := row.moves = other.moves

def editor : Editor Row Nat :=
  { mute with
    serve := fun program row =>
      match parsed program with
      | some (expression, shape) => mute.reply shape (mute.eval expression row)
      | none => (.fail "SyntaxError", row) }

theorem length_key (n : Nat) : (key n).length = n := by
  simp [key]

theorem parsed_enveloped (expression : String) (shape : ResultShape) :
    parsed (Program.enveloped {} expression shape) = some (expression, shape) := by
  have hbody : (Program.enveloped {} expression shape).toList =
      "__hostlink_result = __hostlink_envelope(lambda: (".toList ++
        (expression.toList ++ ("), " ++ Literal.quoted shape.name ++ ")").toList) := by
    simp [Program.enveloped, String.toList_append]
  have hopened : "__hostlink_result = __hostlink_envelope(lambda: (".toList.isPrefixOf?
      (Program.enveloped {} expression shape).toList =
        some (expression.toList ++ ("), " ++ Literal.quoted shape.name ++ ")").toList) := by
    rw [List.isPrefixOf?_eq_some_iff_append_eq, hbody]
  have hclosed : ∀ other : ResultShape,
      ("), " ++ Literal.quoted other.name ++ ")").toList.isSuffixOf?
        (expression.toList ++ ("), " ++ Literal.quoted shape.name ++ ")").toList) =
          if other = shape then some expression.toList else none := by
    intro other
    split
    · rename_i heq
      rw [heq, List.isSuffixOf?_eq_some_iff_append_eq]
    · rename_i hne
      rw [List.isSuffixOf?, List.reverse_append]
      cases other <;> cases shape <;> first | exact absurd rfl hne | rfl
  have hsome : parsed (Program.enveloped {} expression shape) =
      ResultShape.all.findSome? fun other =>
        if other = shape then some (expression, other) else none := by
    unfold parsed
    congr 1
    funext other
    rw [hopened, Option.bind_eq_bind, Option.bind_some, hclosed]
    split <;> simp
  rw [hsome]
  cases shape <;> rfl

theorem visit_next (row : Row) (expression : String) :
    visit row (expression ++ ".next()").toList.reverse =
      match visit row expression.toList.reverse with
      | (.ok (some place), row) => next place row
      | other => other := by
  rw [String.toList_append, List.reverse_append]
  rfl

theorem visit_handleRef {row : Row} {key : String} {place : Nat} (h : row.stored key = some place) :
    visit row (Program.handleRef {} key).toList.reverse = (.ok (some place), row) := by
  have htext : (Program.handleRef {} key).toList =
      "__hostlink_handles[".toList ++ (Literal.quoted key ++ "]").toList := by
    simp [Program.handleRef, String.toList_append]
  have hstart : start row (Program.handleRef {} key).toList = .ok (some place) := by
    have hread : ("__hostlink_handles[".toList.isPrefixOf?
        (Program.handleRef {} key).toList).bind Literal.readQuoted = some (key.toList, [']']) := by
      have hopened : "__hostlink_handles[".toList.isPrefixOf? (Program.handleRef {} key).toList =
          some (Literal.quoted key ++ "]").toList := by
        rw [List.isPrefixOf?_eq_some_iff_append_eq, htext]
      rw [hopened, Option.bind_some, Literal.readQuoted_quoted]
      rfl
    have hother : (Program.handleRef {} key).toList ≠ "sublime.active_window()".toList := by
      intro heq
      rw [heq] at htext
      cases htext
    rw [start, if_neg hother, hread]
    simp [h]
  have hlast : (Program.handleRef {} key).toList.reverse =
      ']' :: ("__hostlink_handles[".toList ++ (Literal.quoted key).toList).reverse := by
    rw [htext]
    simp [String.toList_append]
  have hvisit : ∀ text, visit row (']' :: text) = (start row (']' :: text).reverse, row) :=
    fun _ => rfl
  rw [hlast, hvisit, ← hlast, List.reverse_reverse, hstart]

theorem stored_key (row : Row) (n : Nat) : row.stored (key n) = row.kept[n]? := by
  simp [stored, length_key]

theorem editor_stored (row : Row) (name : String) : editor.stored row name = row.stored name := rfl

theorem editor_store (place : Nat) (row : Row) : editor.store place row = store place row := rfl

theorem storeAll_mute (items : List Nat) (row : Row) :
    editor.storeAll items row = mute.storeAll items row := by
  induction items generalizing row with
  | nil => rfl
  | cons place items ih =>
    simp only [Editor.storeAll, ih]
    rfl

theorem reply_mute (shape : ResultShape) (result : Except String (Option Nat) × Row) :
    editor.reply shape result = mute.reply shape result := by
  obtain ⟨_ | found, row⟩ := result
  · rfl
  · cases found with
    | none => rfl
    | some place =>
      cases shape with
      | handleList =>
        have hstored := storeAll_mute (List.range place) row
        simp only [Editor.reply]
        change (match editor.storeAll (List.range place) row with
          | (keys, row) =>
            (Replay.json (Envelope.primitive (.array (keys.map .string))).toJson, row)) = _
        rw [hstored]
        rfl
      | _ => rfl

theorem serve_enveloped (expression : String) (shape : ResultShape) (row : Row) :
    editor.serve (Program.enveloped {} expression shape) row =
      editor.reply shape (visit row expression.toList.reverse) := by
  rw [reply_mute]
  simp only [editor, parsed_enveloped]
  rfl

theorem stored_fresh (place : Nat) (row : Row) : row.stored (store place row).1 = none :=
  (stored_key row row.kept.length).trans (List.getElem?_eq_none (Nat.le_refl _))

theorem stored_stored (place : Nat) (row : Row) :
    (store place row).2.stored (store place row).1 = some place :=
  (stored_key (store place row).2 row.kept.length).trans List.getElem?_concat_length

theorem stored_other {name : String} {row : Row} {place : Nat} (h : name ≠ (store place row).1) :
    (store place row).2.stored name = row.stored name := by
  unfold stored
  split
  · rename_i hname
    have hlength : name.length ≠ row.kept.length := by
      intro heq
      rw [heq] at hname
      exact h hname
    simp only [store]
    rcases Nat.lt_or_gt_of_ne hlength with hlt | hgt
    · rw [List.getElem?_append_left hlt]
    · have hlong : (row.kept ++ [place]).length ≤ name.length := by
        rw [List.length_append, List.length_singleton]
        omega
      rw [List.getElem?_eq_none hlong, List.getElem?_eq_none (Nat.le_of_lt hgt)]
  · rfl

theorem eval_eq (expression : String) (row : Row) :
    editor.eval expression row = visit row expression.toList.reverse := rfl

theorem eval_next {expression : String} {row row' : Row} {place : Nat}
    (h : editor.eval expression row = (.ok (some place), row')) :
    editor.eval (expression ++ ".next()") row = editor.perform ".next()" place row' := by
  rw [eval_eq] at h
  rw [eval_eq, visit_next row expression, h]
  rfl

theorem eval_activeWindow (row : Row) :
    editor.eval ((activeWindow {}).source {}) row = (.ok (some 0), row) := by
  have htext : ((activeWindow {}).source {}).toList = "sublime.active_window()".toList := rfl
  have hstart : start row "sublime.active_window()".toList = .ok (some 0) := if_pos rfl
  rw [eval_eq, htext, ← hstart]
  rfl

theorem eval_handleRef {row : Row} {name : String} {place : Nat}
    (h : editor.stored row name = some place) :
    editor.eval (Program.handleRef {} name) row = (.ok (some place), row) := by
  rw [eval_eq]
  exact visit_handleRef h

/-- Windows in a row make an editor that keeps the laws. -/
theorem editor_lawful : editor.Lawful {} where
  serves expression shape row _ := serve_enveloped expression shape row
  handle _ := trivial
  longer _ _ _ _ := trivial
  applies expression suffix row place row' _ hsuffix heval := by
    cases hsuffix
    exact eval_next heval
  refers row name place hstored := eval_handleRef hstored
  fresh place row := by
    rw [editor_store, editor_stored]
    exact stored_fresh place row
  stores place row := by
    rw [editor_store, editor_stored]
    exact stored_stored place row
  keeps place row name hne := by
    rw [editor_store] at hne ⊢
    rw [editor_stored, editor_stored]
    exact stored_other hne
  alike_refl _ := rfl
  alike_trans _ _ _ huv hvw := Eq.trans huv hvw
  store_alike _ _ := rfl
  perform_alike _ place row other _ halike := ⟨rfl, congrArg (· + 1) halike⟩

end Row

end RemoteHost
