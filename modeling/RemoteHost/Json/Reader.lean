import RemoteHost.Json.Scanner

/-!
# Reading JSON

A text is one value with nothing but blanks around it. Values nest at most 127 deep.
-/

namespace RemoteHost.Json

open Text (Glyph)

/-- One more than the depth to which arrays and objects may nest. -/
def depthLimit : Nat := 128

/-- The text after the separator that must follow an item of a list; `none` when the list ends. -/
def nextItem (text : List Glyph) : Except ReadFault (Option (List Glyph) × List Glyph) :=
  match skipBlanks text with
  | [] => .error (.peek .endInList [])
  | .char ']' :: rest => .ok (none, rest)
  | .char ',' :: rest =>
    match skipBlanks rest with
    | [] => .error (.peek .endInValue [])
    | .char ']' :: more => .error (.peek .trailingComma (.char ']' :: more))
    | more => .ok (some more, more)
  | more => .error (.peek .listCommaOrEndExpected more)

/-- The text inside the quotes of the next key; `none` when the object ends. -/
def nextKey (first : Bool) (text : List Glyph) :
    Except ReadFault (Option (List Glyph) × List Glyph) :=
  match skipBlanks text with
  | [] => .error (.peek .endInObject [])
  | .char '\x7d' :: rest => .ok (none, rest)
  | .char ',' :: rest =>
    if first then .error (.peek .keyNotString (.char ',' :: rest)) else
    match skipBlanks rest with
    | [] => .error (.peek .endInValue [])
    | .char '"' :: more => .ok (some more, more)
    | .char '\x7d' :: more => .error (.peek .trailingComma (.char '\x7d' :: more))
    | more => .error (.peek .keyNotString more)
  | .char '"' :: rest =>
    if first then .ok (some rest, rest)
    else .error (.peek .objectCommaOrEndExpected (.char '"' :: rest))
  | more => .error (.peek (if first then .keyNotString else .objectCommaOrEndExpected) more)

/-- The text after the colon that must follow a key. -/
def afterColon (text : List Glyph) : Except ReadFault (List Glyph) :=
  match skipBlanks text with
  | [] => .error (.peek .endInObject [])
  | .char ':' :: rest => .ok rest
  | more => .error (.peek .colonExpected more)

mutual

/-- Reads a value at a nesting level `depth` below the limit. -/
def readValueWith : Nat → Nat → List Glyph → Except ReadFault (Found Json)
  | 0, _, text => .error (.peek .tooDeep text)
  | fuel + 1, depth, text =>
    match skipBlanks text with
    | [] => .error (.peek .endInValue [])
    | .char 'n' :: rest => readWord .null "ull".toList rest
    | .char 't' :: rest => readWord (.bool true) "rue".toList rest
    | .char 'f' :: rest => readWord (.bool false) "alse".toList rest
    | .char '"' :: rest => do
      let (s, rest) ← readString rest
      .ok (.string s, rest)
    | .char '-' :: rest => do
      let (n, rest) ← readNumber true rest
      .ok (.number n, rest)
    | .char '[' :: rest =>
      if depth ≤ 1 then .error (.peek .tooDeep (.char '[' :: rest)) else
      match skipBlanks rest with
      | .char ']' :: rest => .ok (.array [], rest)
      | [] => .error (.peek .endInList [])
      | more => do
        let (items, rest) ← readItemsWith fuel (depth - 1) more
        .ok (.array items, rest)
    | .char '\x7b' :: rest =>
      if depth ≤ 1 then .error (.peek .tooDeep (.char '\x7b' :: rest)) else do
        let (fields, rest) ← readFieldsWith fuel (depth - 1) true [] rest
        .ok (.object fields, rest)
    | g :: rest =>
      if (digitValue? g).isSome then do
        let (n, rest) ← readNumber false (g :: rest)
        .ok (.number n, rest)
      else .error (.peek .valueExpected (g :: rest))

/-- Reads the items of a list from its first or next one to its end. -/
def readItemsWith : Nat → Nat → List Glyph → Except ReadFault (Found (List Json))
  | 0, _, text => .error (.peek .tooDeep text)
  | fuel + 1, depth, text => do
    let (item, rest) ← readValueWith fuel depth text
    match ← nextItem rest with
    | (none, rest) => .ok ([item], rest)
    | (some rest, _) => do
      let (items, rest) ← readItemsWith fuel depth rest
      .ok (item :: items, rest)

/-- Reads the fields of an object to its end and sets them one after another. -/
def readFieldsWith : Nat → Nat → Bool → List (String × Json) → List Glyph →
    Except ReadFault (Found (List (String × Json)))
  | 0, _, _, _, text => .error (.peek .tooDeep text)
  | fuel + 1, depth, first, fields, text => do
    match ← nextKey first text with
    | (none, rest) => .ok (fields, rest)
    | (some rest, _) => do
      let (key, rest) ← readString rest
      let (value, rest) ← readValueWith fuel depth (← afterColon rest)
      readFieldsWith fuel depth false (setField key value fields) rest

end

/-- Steps enough for any text: every second step consumes a glyph. -/
def fuelFor (text : List Glyph) : Nat := 2 * text.length + 2

def readValue (text : List Glyph) : Except ReadFault (Found Json) :=
  readValueWith (fuelFor text) depthLimit text

/-- Nothing but blanks may follow. -/
def expectEnd (text : List Glyph) : Except ReadFault Unit :=
  match skipBlanks text with
  | [] => .ok ()
  | rest => .error (.peek .trailingCharacters rest)

def read (text : List Glyph) : Except ReadFault Json := do
  let (value, rest) ← readValue text
  expectEnd rest
  .ok value

def parse (text : String) : Except ReadFault Json := read (Text.glyphs text)

mutual

/-- Passes over a value. Numbers may have any size and nesting any depth. -/
def skipValueWith : Nat → List Glyph → Except ReadFault (List Glyph)
  | 0, text => .error (.peek .tooDeep text)
  | fuel + 1, text =>
    match skipBlanks text with
    | [] => .error (.peek .endInValue [])
    | .char 'n' :: rest => (readWord () "ull".toList rest).map (·.2)
    | .char 't' :: rest => (readWord () "rue".toList rest).map (·.2)
    | .char 'f' :: rest => (readWord () "alse".toList rest).map (·.2)
    | .char '"' :: rest => skipStringFrom 0 rest
    | .char '-' :: rest => (readNumeral .invalidNumber rest).map (·.2)
    | .char '[' :: rest =>
      match skipBlanks rest with
      | .char ']' :: rest => .ok rest
      | [] => .error (.peek .endInList [])
      | more => skipItemsWith fuel more
    | .char '\x7b' :: rest =>
      match skipBlanks rest with
      | .char '\x7d' :: rest => .ok rest
      | [] => .error (.peek .endInObject [])
      | more => skipFieldsWith fuel more
    | g :: rest =>
      if (digitValue? g).isSome then (readNumeral .invalidNumber (g :: rest)).map (·.2)
      else .error (.peek .valueExpected (g :: rest))

def skipItemsWith : Nat → List Glyph → Except ReadFault (List Glyph)
  | 0, text => .error (.peek .tooDeep text)
  | fuel + 1, text => do
    let rest ← skipValueWith fuel text
    match skipBlanks rest with
    | [] => .error (.peek .endInList [])
    | .char ']' :: rest => .ok rest
    | .char ',' :: rest => skipItemsWith fuel rest
    | more => .error (.peek .listCommaOrEndExpected more)

def skipFieldsWith : Nat → List Glyph → Except ReadFault (List Glyph)
  | 0, text => .error (.peek .tooDeep text)
  | fuel + 1, text =>
    match skipBlanks text with
    | [] => .error (.peek .endInObject [])
    | .char '"' :: rest => do
      let rest ← skipStringFrom 0 rest
      let rest ← skipValueWith fuel (← afterColon rest)
      match skipBlanks rest with
      | [] => .error (.peek .endInObject [])
      | .char '\x7d' :: rest => .ok rest
      | .char ',' :: rest => skipFieldsWith fuel rest
      | more => .error (.peek .objectCommaOrEndExpected more)
    | more => .error (.peek .keyNotString more)

end

def skipValue (text : List Glyph) : Except ReadFault (List Glyph) :=
  skipValueWith (fuelFor text) text

end RemoteHost.Json
