import RemoteHost.Fault
import RemoteHost.Text.Blank

/-!
# Settings

The names a session uses inside the host, where callbacks listen, and the limits it keeps to. Any
record of settings can be used; `check` says which ones a settings file may hold.
-/

namespace RemoteHost

structure Settings where
  handleTable : String := "__hostlink_handles"
  resultSlot : String := "__hostlink_result"
  envelopeHelper : String := "__hostlink_envelope"
  callbackHelper : String := "__hostlink_callback"
  hostModule : String := "sublime"
  callbackHost : String := "127.0.0.1"
  maxChainLength : Option Nat := none
  stepConflict : ConflictPolicy := .queue
  debug : Bool := false
  deriving DecidableEq, Repr, Inhabited

/-- Why a record of settings may not be loaded. -/
inductive SettingsFault where
  | notIdentifier (field name : String)
  | notModulePath (path : String)
  | blankCallbackHost
  | noChainLength
  deriving DecidableEq, Repr

def SettingsFault.message : SettingsFault → String
  | .notIdentifier field name => field ++ " must be an identifier, got " ++ Text.shown name
  | .notModulePath path => "host_module must be a dotted module path, got " ++ Text.shown path
  | .blankCallbackHost => "callback_host is empty"
  | .noChainLength => "max_chain_length must be at least 1"

def SettingsFault.fault (cause : SettingsFault) : Fault := .configuration cause.message

def isNameStart (c : Char) : Bool := c == '_' || c.isAlpha

def isNameChar (c : Char) : Bool := c == '_' || c.isAlphanum

/-- A name of ASCII letters, digits and underscores that does not start with a digit. -/
def isIdentifier : List Char → Bool
  | [] => false
  | c :: rest => isNameStart c && rest.all isNameChar

def dotted : List Char → List (List Char)
  | [] => [[]]
  | c :: rest =>
    if c = '.' then [] :: dotted rest
    else
      match dotted rest with
      | [] => [[c]]
      | part :: more => (c :: part) :: more

def isModulePath (path : List Char) : Bool := (dotted path).all isIdentifier

namespace Settings

/-- The globals of the host that the settings name. -/
def globals (s : Settings) : List (String × String) :=
  [("handle_table", s.handleTable), ("result_slot", s.resultSlot),
    ("envelope_helper", s.envelopeHelper), ("callback_helper", s.callbackHelper)]

/-- Everything spliced into programs must be a name, and a chain must admit its root. -/
def check (s : Settings) : Except SettingsFault Unit :=
  match s.globals.find? fun g => !isIdentifier g.2.toList with
  | some (field, name) => .error (.notIdentifier field name)
  | none =>
    if !isModulePath s.hostModule.toList then .error (.notModulePath s.hostModule)
    else if Text.isBlankText s.callbackHost then .error .blankCallbackHost
    else if s.maxChainLength = some 0 then .error .noChainLength
    else .ok ()

/-- The fields in the order in which a file lists them. -/
def fields (s : Settings) : List (String × Json) :=
  [("handle_table", .string s.handleTable),
    ("result_slot", .string s.resultSlot),
    ("envelope_helper", .string s.envelopeHelper),
    ("callback_helper", .string s.callbackHelper),
    ("host_module", .string s.hostModule),
    ("callback_host", .string s.callbackHost),
    ("max_chain_length", (s.maxChainLength.map Json.ofNat).getD .null),
    ("step_conflict", .string s.stepConflict.name),
    ("debug", .bool s.debug)]

def toJson (s : Settings) : Json := Json.ofFields s.fields

def fileText (s : Settings) : String := (Json.object s.fields).pretty

end Settings

inductive SettingsField where
  | handleTable
  | resultSlot
  | envelopeHelper
  | callbackHelper
  | hostModule
  | callbackHost
  | maxChainLength
  | stepConflict
  | debug
  deriving DecidableEq, Repr

namespace SettingsField

def all : List SettingsField :=
  [.handleTable, .resultSlot, .envelopeHelper, .callbackHelper, .hostModule, .callbackHost,
    .maxChainLength, .stepConflict, .debug]

def name : SettingsField → String
  | .handleTable => "handle_table"
  | .resultSlot => "result_slot"
  | .envelopeHelper => "envelope_helper"
  | .callbackHelper => "callback_helper"
  | .hostModule => "host_module"
  | .callbackHost => "callback_host"
  | .maxChainLength => "max_chain_length"
  | .stepConflict => "step_conflict"
  | .debug => "debug"

def ofName? (name : String) : Option SettingsField :=
  all.find? fun f => f.name == name

/-- Sets a field to a value of its form. -/
def set (s : Settings) (value : Json) : SettingsField → Except Json.Mismatch Settings
  | .handleTable => do .ok { s with handleTable := ← value.asString }
  | .resultSlot => do .ok { s with resultSlot := ← value.asString }
  | .envelopeHelper => do .ok { s with envelopeHelper := ← value.asString }
  | .callbackHelper => do .ok { s with callbackHelper := ← value.asString }
  | .hostModule => do .ok { s with hostModule := ← value.asString }
  | .callbackHost => do .ok { s with callbackHost := ← value.asString }
  | .maxChainLength => do .ok { s with maxChainLength := ← value.asOptionalCount }
  | .stepConflict => do .ok { s with stepConflict := ← ConflictPolicy.ofJson value }
  | .debug => do .ok { s with debug := ← value.asBool }

end SettingsField

namespace Settings

/-- Sets the fields of an object one after another; unknown keys are passed over. -/
def ofFields (s : Settings) : List (String × Json) → Except Json.Mismatch Settings
  | [] => .ok s
  | (key, value) :: rest =>
    match SettingsField.ofName? key with
    | none => ofFields s rest
    | some field => do ofFields (← field.set s value) rest

/-- Sets the leading fields to the items of an array. -/
def ofItems (s : Settings) : List SettingsField → List Json → Except Json.Mismatch Settings
  | _, [] => .ok s
  | [], _ :: _ => .ok s
  | field :: fields, item :: items => do ofItems (← field.set s item) fields items

/-- Settings read from an object or an array. What is missing keeps its default. -/
def ofJson : Json → Except Json.Mismatch Settings
  | .object fields => ofFields {} fields
  | .array items => do
    let s ← ofItems {} SettingsField.all items
    if SettingsField.all.length < items.length then
      .error (.wrongLength items.length "fewer elements in array")
    else .ok s
  | other => .error (.wrongType other "struct BridgeConfig")

end Settings

end RemoteHost
