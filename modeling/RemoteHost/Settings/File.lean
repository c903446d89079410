import RemoteHost.Json.Reader
import RemoteHost.Settings

/-!
# Settings files

A settings file is JSON, read field by field, so that the first fault in the text is the one
reported, be it of the text or of a field's value. What a file leaves out keeps its default, and
settings that do not pass their check are refused.
-/

namespace RemoteHost

open Text (Glyph)
open Json (ReadFault ReadCause Found Mismatch)

inductive LoadFault where
  | unreadable (fault : IoFault)
  | undecodable (fault : ReadFault) (text : List Glyph)
  | invalid (fault : SettingsFault)

namespace LoadFault

def message (path : String) : LoadFault → String
  | .unreadable _ => "Failed to read config " ++ path
  | .undecodable _ _ => "Failed to deserialize config"
  | .invalid _ => "Invalid config " ++ path

def cause : LoadFault → String
  | .unreadable fault => fault.message
  | .undecodable fault text => fault.message text
  | .invalid fault => fault.fault.message

end LoadFault

namespace Settings.File

/-- Ends with a value of the wrong form just read. -/
def mismatch {α : Type} (fault : Mismatch) (rest : List Glyph) : Except ReadFault α :=
  .error (.here (.mismatch fault) rest)

/-- Refuses the value ahead for its type. A scalar is read first, and may have faults of its own. -/
def refuse {α : Type} (expected : String) (text : List Glyph) : Except ReadFault α :=
  let scalar (found : Except ReadFault (Found Json)) : Except ReadFault α := do
    let (value, rest) ← found
    mismatch (.wrongType value expected) rest
  match text with
  | [] => .error (.peek .endInValue [])
  | .char 'n' :: rest => scalar (Json.readWord .null "ull".toList rest)
  | .char 't' :: rest => scalar (Json.readWord (.bool true) "rue".toList rest)
  | .char 'f' :: rest => scalar (Json.readWord (.bool false) "alse".toList rest)
  | .char '"' :: rest => scalar ((Json.readString rest).map fun (s, r) => (.string s, r))
  | .char '-' :: rest => scalar ((Json.readNumber true rest).map fun (n, r) => (.number n, r))
  | .char '[' :: _ => mismatch (.wrongType (.array []) expected) text
  | .char '\x7b' :: _ => mismatch (.wrongType (.object []) expected) text
  | g :: _ =>
    if (Json.digitValue? g).isSome then
      scalar ((Json.readNumber false text).map fun (n, r) => (.number n, r))
    else .error (.peek .valueExpected text)

def readText (expected : String) (text : List Glyph) : Except ReadFault (Found String) :=
  match Json.skipBlanks text with
  | .char '"' :: rest => Json.readString rest
  | other => refuse expected other

/-- Reads a name out of a list, or an object of such a name and null. -/
def readVariant {α : Type} (variants : List (String × α)) (text : List Glyph) :
    Except ReadFault (Found α) :=
  let variant (text : List Glyph) : Except ReadFault (Found α) := do
    let (name, rest) ← readText "variant identifier" text
    match Json.variantNamed variants name with
    | .ok value => .ok (value, rest)
    | .error fault => mismatch fault rest
  match Json.skipBlanks text with
  | [] => .error (.peek .endInValue [])
  | .char '"' :: rest => variant (.char '"' :: rest)
  | .char '\x7b' :: rest => do
    let (value, rest) ← match Json.skipBlanks rest with
      | [] => .error (.peek .endInObject [])
      | .char '"' :: rest => variant (.char '"' :: rest)
      | .char '\x7d' :: rest => .error (.peek .valueExpected (.char '\x7d' :: rest))
      | other => .error (.peek .keyNotString other)
    let rest ← Json.afterColon rest
    let (_, rest) ← match Json.skipBlanks rest with
      | .char 'n' :: rest => Json.readWord () "ull".toList rest
      | other => refuse "unit" other
    match Json.skipBlanks rest with
    | .char '\x7d' :: rest => .ok (value, rest)
    | [] => .error (.here .endInObject [])
    | other => .error (.here .valueExpected other)
  | other => .error (.peek .valueExpected other)

def readScalar (field : SettingsField) (text : List Glyph) : Except ReadFault (Found Json) :=
  let text := Json.skipBlanks text
  match field with
  | .debug =>
    match text with
    | .char 't' :: rest => Json.readWord (.bool true) "rue".toList rest
    | .char 'f' :: rest => Json.readWord (.bool false) "alse".toList rest
    | other => refuse "a boolean" other
  | .maxChainLength =>
    match text with
    | .char 'n' :: rest => Json.readWord .null "ull".toList rest
    | .char '-' :: rest => (Json.readNumber true rest).map fun (n, r) => (.number n, r)
    | g :: rest =>
      if (Json.digitValue? g).isSome then
        (Json.readNumber false (g :: rest)).map fun (n, r) => (.number n, r)
      else refuse "usize" (g :: rest)
    | [] => .error (.peek .endInValue [])
  | .stepConflict =>
    (readVariant (named ConflictPolicy.name ConflictPolicy.all) text).map
      fun (policy, r) => (.string policy.name, r)
  | _ => (readText "a string" text).map fun (s, r) => (.string s, r)

/-- Reads the value of a field into the settings. -/
def readField (s : Settings) (field : SettingsField) (text : List Glyph) :
    Except ReadFault (Found Settings) := do
  let (value, rest) ← readScalar field text
  match field.set s value with
  | .ok s => .ok (s, rest)
  | .error fault => mismatch fault rest

/-- The text at which an object is left that goes wrong after a key. -/
def leaveObject (text : List Glyph) : List Glyph :=
  match Json.skipBlanks text with
  | .char '\x7d' :: rest => rest
  | rest => rest

/-- Reads the fields of an object to its end. No known field may come twice. -/
def readFields : Nat → List SettingsField → Settings → Bool → List Glyph →
    Except ReadFault (Found Settings)
  | 0, _, _, _, text => .error (.peek .tooDeep text)
  | fuel + 1, seen, s, first, text => do
    match ← Json.nextKey first text with
    | (none, rest) => .ok (s, rest)
    | (some rest, _) => do
      let (key, rest) ← Json.readString rest
      match SettingsField.ofName? key with
      | none => do
        let rest ← Json.skipValue (← Json.afterColon rest)
        readFields fuel seen s false rest
      | some field => do
        if seen.contains field then
          mismatch (.duplicateField field.name) (leaveObject rest)
        let (s, rest) ← readField s field (← Json.afterColon rest)
        readFields fuel (field :: seen) s false rest

/-- The end of an array all of whose fields have been read. -/
def endItems (text : List Glyph) : Except ReadFault (List Glyph) :=
  match Json.skipBlanks text with
  | [] => .error (.peek .endInList [])
  | .char ']' :: rest => .ok rest
  | .char ',' :: rest =>
    match Json.skipBlanks rest with
    | .char ']' :: more => .error (.peek .trailingComma (.char ']' :: more))
    | more => .error (.peek .trailingCharacters more)
  | more => .error (.peek .trailingCharacters more)

/-- Reads leading fields from the items of an array to its end. -/
def readItems (s : Settings) (first : Bool) : List SettingsField → List Glyph →
    Except ReadFault (Found Settings)
  | [], text => do .ok (s, ← endItems text)
  | field :: fields, text => do
    if first then
      match Json.skipBlanks text with
      | [] => .error (.peek .endInList [])
      | .char ']' :: rest => .ok (s, rest)
      | more => do
        let (s, rest) ← readField s field more
        readItems s false fields rest
    else
      match ← Json.nextItem text with
      | (none, rest) => .ok (s, rest)
      | (some more, _) => do
        let (s, rest) ← readField s field more
        readItems s false fields rest

def readAll (text : List Glyph) : Except ReadFault Settings := do
  let (s, rest) ← match Json.skipBlanks text with
    | [] => .error (.peek .endInValue [])
    | .char '\x7b' :: rest => readFields (text.length + 1) [] {} true rest
    | .char '[' :: rest => readItems {} true SettingsField.all rest
    | other => refuse "struct BridgeConfig" other
  Json.expectEnd rest
  .ok s

end Settings.File

/-- Settings loaded from the text of a file, which must pass the check. -/
def Settings.load (text : List Glyph) : Except LoadFault Settings :=
  match Settings.File.readAll text with
  | .error fault => .error (.undecodable fault text)
  | .ok s =>
    match s.check with
    | .error fault => .error (.invalid fault)
    | .ok () => .ok s

end RemoteHost
