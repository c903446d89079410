import RemoteHost.Text.Hex
import RemoteHost.Text.Printable

/-!
# Text shown inside a message

A text is shown between double quotes, with quotes, backslashes, line breaks and unprintable
characters escaped.
-/

namespace RemoteHost.Text

/-- How one character is shown between double quotes. -/
def shownChar (c : Char) : List Char :=
  if c = '"' then ['\\', '"']
  else if c = '\\' then ['\\', '\\']
  else if c = '\n' then ['\\', 'n']
  else if c = '\r' then ['\\', 'r']
  else if c = '\t' then ['\\', 't']
  else if c = '\x00' then ['\\', '0']
  else if isPrintable c then [c]
  else ['\\', 'u', '\x7b'] ++ hexShort c.toNat ++ ['\x7d']

/-- A text as a message shows it. -/
def shown (text : String) : String :=
  String.ofList ('"' :: text.toList.flatMap shownChar ++ ['"'])

end RemoteHost.Text
