import RemoteHost.Text.Hex

/-!
# Quoted strings

A string becomes a literal between single quotes in which everything but printable ASCII is
escaped, so that no text can end its literal early. The dollar sign is escaped too: no literal ever
holds a callback placeholder. `readQuoted` is the host's way of reading such literals.
-/

namespace RemoteHost.Literal

def quotedChar (c : Char) : List Char :=
  if c = '\\' then ['\\', '\\']
  else if c = '\'' then ['\\', '\'']
  else if c = '"' then ['\\', '"']
  else if c = '\n' then ['\\', 'n']
  else if c = '\r' then ['\\', 'r']
  else if c = '\t' then ['\\', 't']
  else if c = '$' then ['\\', 'x', '2', '4']
  else if 0x20 ≤ c.toNat ∧ c.toNat ≤ 0x7E then [c]
  else if c.toNat < 0x100 then '\\' :: 'x' :: Text.hexFixed 2 c.toNat
  else if c.toNat < 0x10000 then '\\' :: 'u' :: Text.hexFixed 4 c.toNat
  else '\\' :: 'U' :: Text.hexFixed 8 c.toNat

def quotedChars (text : List Char) : List Char :=
  '\'' :: text.flatMap quotedChar ++ ['\'']

def quoted (text : String) : String := String.ofList (quotedChars text.toList)

def escapeWidth? : Char → Option Nat
  | 'x' => some 2
  | 'u' => some 4
  | 'U' => some 8
  | _ => none

def plainEscape? : Char → Option Char
  | '\\' => some '\\'
  | '\'' => some '\''
  | '"' => some '"'
  | 'n' => some '\n'
  | 'r' => some '\r'
  | 't' => some '\t'
  | _ => none

/-- The character an escape stands for, read after its backslash, and how many characters it
takes. -/
def escape? : List Char → Option (Char × Nat)
  | [] => none
  | c :: rest =>
    match plainEscape? c with
    | some d => some (d, 1)
    | none => do
      let width ← escapeWidth? c
      let (n, _) ← Text.readHex width 0 rest
      if h : n.isValidChar then some (Char.ofNatAux n h, width + 1) else none

/-- Reads the characters of a literal up to its closing quote, skipping what belongs to an escape
already read. A line break may not stand in a literal. -/
def readQuotedBody : Nat → List Char → Option (List Char × List Char)
  | _, [] => none
  | skip + 1, _ :: rest => readQuotedBody skip rest
  | 0, c :: rest =>
    if c = '\'' then some ([], rest)
    else if c = '\n' ∨ c = '\r' then none
    else if c = '\\' then do
      let (d, used) ← escape? rest
      let (text, rest) ← readQuotedBody used rest
      some (d :: text, rest)
    else do
      let (text, rest) ← readQuotedBody 0 rest
      some (c :: text, rest)

/-- Reads a literal and returns the text it stands for and the text after it. -/
def readQuoted : List Char → Option (List Char × List Char)
  | '\'' :: rest => readQuotedBody 0 rest
  | _ => none

end RemoteHost.Literal
