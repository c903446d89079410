/-!
# Cutting a text around a mark

`pieces mark text` are the parts of a text between the occurrences of a mark, found from left to
right without overlap.
-/

namespace RemoteHost.Text

def extendFirst (c : Char) : List (List Char) → List (List Char)
  | [] => [[c]]
  | piece :: more => (c :: piece) :: more

/-- The pieces of what is left after `skip` characters, which belong to a mark already found. -/
def piecesAfter (mark : List Char) : Nat → List Char → List (List Char)
  | _, [] => [[]]
  | skip + 1, _ :: rest => piecesAfter mark skip rest
  | 0, c :: rest =>
    if mark.isPrefixOf (c :: rest) && !mark.isEmpty then
      [] :: piecesAfter mark (mark.length - 1) rest
    else
      extendFirst c (piecesAfter mark 0 rest)

/-- The parts of a text between the occurrences of a mark. An empty mark never occurs. -/
def pieces (mark text : List Char) : List (List Char) :=
  piecesAfter mark 0 text

/-- How often a mark occurs, counted from left to right without overlap. -/
def occurrences (mark text : List Char) : Nat :=
  (pieces mark text).length - 1

/-- Whether a part occurs in a text. The empty part occurs in every text. -/
def occurs (part : List Char) : List Char → Bool
  | [] => part.isEmpty
  | c :: rest => part.isPrefixOf (c :: rest) || occurs part rest

/-- Puts one filling between each two neighbouring pieces. Fillings left over are dropped. -/
def fillIn : List (List Char) → List (List Char) → List Char
  | [], _ => []
  | [piece], _ => piece
  | piece :: more, [] => piece ++ fillIn more []
  | piece :: more, filling :: fillings => piece ++ filling ++ fillIn more fillings

def replaceAll (mark filling text : List Char) : List Char :=
  fillIn (pieces mark text) (List.replicate (occurrences mark text) filling)

theorem extendFirst_ne_nil (c : Char) (ps : List (List Char)) : extendFirst c ps ≠ [] := by
  cases ps <;> simp [extendFirst]

theorem piecesAfter_ne_nil (mark : List Char) (skip : Nat) (text : List Char) :
    piecesAfter mark skip text ≠ [] := by
  fun_induction piecesAfter mark skip text <;> simp_all [extendFirst_ne_nil]

theorem length_pieces (mark text : List Char) :
    (pieces mark text).length = occurrences mark text + 1 := by
  have := List.length_pos_iff.2 (piecesAfter_ne_nil mark 0 text)
  simp only [occurrences, pieces] at *
  omega

end RemoteHost.Text
