import RemoteHost.Json.Reader
import RemoteHost.Text.Blank

/-!
# Lines of a byte stream

Bytes arrive in chunks of any size; a line ends at a line break, and the last one also where the
stream ends. An endpoint's connection delivers the values of the lines that are JSON.
-/

namespace RemoteHost.Wire

def lineBreak : UInt8 := 10

/-- The first line of some bytes, without its break, and the bytes after it. -/
def splitLine : List UInt8 → Option (List UInt8 × List UInt8)
  | [] => none
  | b :: rest =>
    if b = lineBreak then some ([], rest)
    else (splitLine rest).map fun (line, after) => (b :: line, after)

/-- Some bytes cut at every line break: the finished lines and the rest. -/
def cutLines : List UInt8 → List (List UInt8) × List UInt8
  | [] => ([], [])
  | b :: rest =>
    match cutLines rest with
    | (lines, after) =>
      if b = lineBreak then ([] :: lines, after)
      else
        match lines with
        | [] => ([], b :: after)
        | line :: more => ((b :: line) :: more, after)

/-- What a line means to an endpoint. -/
inductive LineContent where
  | payload (value : Json)
  | nothing
  /-- The line is not UTF-8, which ends the connection. -/
  | broken

/-- Blank lines and lines that are no JSON mean nothing. -/
def LineContent.ofBytes (line : List UInt8) : LineContent :=
  match Text.decode? line with
  | none => .broken
  | some text =>
    if Text.isBlankText text then .nothing
    else
      match Json.parse text with
      | .ok value => .payload value
      | .error _ => .nothing

/-- The values that lines deliver up to the first broken one. -/
def payloads : List (List UInt8) → List Json
  | [] => []
  | line :: rest =>
    match LineContent.ofBytes line with
    | .payload value => value :: payloads rest
    | .nothing => payloads rest
    | .broken => []

/-- A connection to an endpoint, between two chunks. -/
structure Inlet where
  partialLine : List UInt8 := []
  broken : Bool := false

/-- The values that lines deliver, and whether one of them was broken. -/
def Inlet.take (broken : Bool) : List (List UInt8) → List Json × Bool
  | [] => ([], broken)
  | line :: rest =>
    if broken then ([], true)
    else
      match LineContent.ofBytes line with
      | .payload value => let (more, b) := take false rest; (value :: more, b)
      | .nothing => take false rest
      | .broken => ([], true)

def Inlet.feed (inlet : Inlet) (chunk : List UInt8) : List Json × Inlet :=
  let (lines, rest) := cutLines (inlet.partialLine ++ chunk)
  let (values, broken) := Inlet.take inlet.broken lines
  (values, ⟨rest, broken⟩)

/-- The stream ends. An unfinished line counts as one. -/
def Inlet.finish (inlet : Inlet) : List Json :=
  if inlet.partialLine.isEmpty then [] else (Inlet.take inlet.broken [inlet.partialLine]).1

end RemoteHost.Wire
