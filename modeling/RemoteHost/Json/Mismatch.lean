import RemoteHost.Json.Printer
import RemoteHost.Text.Shown

/-!
# Values of the wrong form

What can be wrong with a well-formed JSON value where a value of a certain form is expected, and
how a message says it.
-/

namespace RemoteHost.Json

/-- Why a value does not have the expected form. `expected` describes that form. -/
inductive Mismatch where
  | wrongType (found : Json) (expected : String)
  | wrongValue (found : Json) (expected : String)
  | wrongLength (found : Nat) (expected : String)
  | unknownVariant (found : String) (known : List String)
  | missingField (name : String)
  | duplicateField (name : String)

/-- How a message names a value: scalars are spelled out, containers are not. -/
def described : Json → String
  | .null => "null"
  | .bool b => "boolean `" ++ (if b then "true" else "false") ++ "`"
  | .number (.integer n) => "integer `" ++ String.ofList (Decimal.wholeChars n) ++ "`"
  | .number (.float bits) => "floating point `" ++ String.ofList (floatChars bits) ++ "`"
  | .string text => "string " ++ Text.shown text
  | .array _ => "sequence"
  | .object _ => "map"

/-- A list of alternatives: two are joined by a word, more are listed. -/
def alternatives (names : List String) : String :=
  match names with
  | [a] => "`" ++ a ++ "`"
  | [a, b] => "`" ++ a ++ "` or `" ++ b ++ "`"
  | _ => "one of " ++ ", ".intercalate (names.map fun n => "`" ++ n ++ "`")

def Mismatch.message : Mismatch → String
  | .wrongType found expected => "invalid type: " ++ described found ++ ", expected " ++ expected
  | .wrongValue found expected => "invalid value: " ++ described found ++ ", expected " ++ expected
  | .wrongLength found expected => "invalid length " ++ toString found ++ ", expected " ++ expected
  | .unknownVariant found known =>
    "unknown variant `" ++ found ++ "`, expected " ++ alternatives known
  | .missingField name => "missing field `" ++ name ++ "`"
  | .duplicateField name => "duplicate field `" ++ name ++ "`"

end RemoteHost.Json
