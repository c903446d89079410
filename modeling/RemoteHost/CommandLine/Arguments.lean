import RemoteHost.Shape

/-!
# Arguments

What a command line asks for. Options come before the command they belong to or among its own
arguments, each at most once; after `--` everything is a plain argument. The first thing that is
wrong decides, and so does a request for help, whichever comes first; but a command may be read
before the last value in front of it is looked at.
-/

namespace RemoteHost.CommandLine

inductive Command where
  | eval (source : String) (shape : ResultShape)
  | installPrelude
  | printPrelude
  | release (keys : List String)
  deriving DecidableEq, Repr

def defaultAddress : String := "127.0.0.1:8765"

structure Request where
  address : String
  settingsPath : Option String
  command : Command
  deriving DecidableEq, Repr

inductive Topic where
  | overview
  | eval
  | prelude
  | release
  | help
  deriving DecidableEq, Repr

/-- Why a command line leads to nothing. -/
inductive Refusal where
  | misuse
  | help (topic : Topic)
  deriving DecidableEq, Repr

/-- An option of a command. One that takes no value is a switch. -/
structure OptionSpec where
  name : String
  short : Option Char := none
  takesValue : Bool := true

/-- What an argument is spelled as. -/
inductive Spelling where
  | plain
  | restIsPlain
  | help
  | switch (name : String)
  | option (name : String) (value : Option String)

/-- The part before the first equals sign and, if there is one, the part after it. -/
def splitAtEquals : List Char → List Char × Option (List Char)
  | [] => ([], none)
  | '=' :: rest => ([], some rest)
  | c :: rest =>
    let (name, value) := splitAtEquals rest
    (c :: name, value)

def spellingOfLong (specs : List OptionSpec) (text : List Char) : Except Refusal Spelling :=
  let (name, value) := splitAtEquals text
  let name := String.ofList name
  if name = "help" then
    if value.isSome then .error .misuse else .ok .help
  else
    match specs.find? (·.name == name), value with
    | none, _ => .error .misuse
    | some spec, value =>
      if spec.takesValue then .ok (.option name (value.map String.ofList))
      else if value.isSome then .error .misuse
      else .ok (.switch name)

/-- The short option of a letter with what follows the letter. -/
def spellingOfShort (specs : List OptionSpec) (letter : Char) (text : List Char) :
    Except Refusal Spelling :=
  if letter = 'h' then .ok .help
  else
    match specs.find? (·.short == some letter), text with
    | none, _ => .error .misuse
    | some spec, [] => .ok (if spec.takesValue then .option spec.name none else .switch spec.name)
    | some spec, '=' :: value => .ok (.option spec.name (some (String.ofList value)))
    | some spec, value => .ok (.option spec.name (some (String.ofList value)))

def spelling (specs : List OptionSpec) (argument : String) : Except Refusal Spelling :=
  match argument.toList with
  | ['-', '-'] => .ok .restIsPlain
  | '-' :: '-' :: text => spellingOfLong specs text
  | ['-'] => .ok .plain
  | '-' :: letter :: text => spellingOfShort specs letter text
  | _ => .ok .plain

/-- Whether an argument can be the value of the option before it. -/
def isValue (argument : String) : Bool :=
  match argument.toList with
  | '-' :: _ :: _ => false
  | _ => true

structure Words where
  options : List (String × String) := []
  switches : List String := []
  plain : List String := []

namespace Words

def option? (w : Words) (name : String) : Option String := w.options.lookup name

def addOption (w : Words) (name value : String) : Except Refusal Words :=
  if (w.option? name).isSome then .error .misuse
  else .ok { w with options := w.options ++ [(name, value)] }

def addSwitch (w : Words) (name : String) : Except Refusal Words :=
  if name ∈ w.switches then .error .misuse else .ok { w with switches := w.switches ++ [name] }

def addPlain (w : Words) (texts : List String) : Words := { w with plain := w.plain ++ texts }

end Words

/-- Refuses words that a command does not accept. -/
def Words.checked (accepts : Words → Bool) (w : Words) : Except Refusal Words :=
  if accepts w then .ok w else .error .misuse

/-- Reads arguments that may be mixed with options. What was read so far is checked after every
argument. -/
def readWords (specs : List OptionSpec) (topic : Topic) (accepts : Words → Bool) (w : Words) :
    List String → Except Refusal Words
  | [] => .ok w
  | argument :: rest => do
    match ← spelling specs argument, rest with
    | .help, _ => .error (.help topic)
    | .restIsPlain, rest => (w.addPlain rest).checked accepts
    | .plain, rest =>
      readWords specs topic accepts (← (w.addPlain [argument]).checked accepts) rest
    | .switch name, rest => readWords specs topic accepts (← w.addSwitch name) rest
    | .option name (some value), rest =>
      readWords specs topic accepts (← (← w.addOption name value).checked accepts) rest
    | .option _ none, [] => .error .misuse
    | .option name none, value :: rest =>
      if isValue value then
        readWords specs topic accepts (← (← w.addOption name value).checked accepts) rest
      else .error .misuse

/-- The names of the shapes on the command line. -/
def shapeNames : List (String × ResultShape) :=
  [("value", .value), ("handle", .handle), ("optional-handle", .optionalHandle),
    ("handle-list", .handleList)]

def readEval (arguments : List String) : Except Refusal Command := do
  let accepts (w : Words) : Bool :=
    w.plain.length ≤ 1 && w.options.all fun (_, value) => (shapeNames.lookup value).isSome
  let w ← readWords [{ name := "shape" }] .eval accepts {} arguments
  match w.plain with
  | [source] => .ok (.eval source (((w.option? "shape").bind (shapeNames.lookup ·)).getD .value))
  | _ => .error .misuse

def readPrelude (arguments : List String) : Except Refusal Command := do
  let specs : List OptionSpec := [{ name := "print", takesValue := false }]
  let w ← readWords specs .prelude (·.plain.isEmpty) {} arguments
  .ok (if w.switches.isEmpty then .installPrelude else .printPrelude)

def readRelease (arguments : List String) : Except Refusal Command := do
  let w ← readWords [] .release (fun _ => true) {} arguments
  if w.plain.isEmpty then .error .misuse else .ok (.release w.plain)

def readHelp : List String → Except Refusal Command
  | [] => .error (.help .overview)
  | ["eval"] => .error (.help .eval)
  | ["prelude"] => .error (.help .prelude)
  | ["release"] => .error (.help .release)
  | ["help"] => .error (.help .help)
  | _ => .error .misuse

def readCommand (name : String) (arguments : List String) : Except Refusal Command :=
  match name with
  | "eval" => readEval arguments
  | "prelude" => readPrelude arguments
  | "release" => readRelease arguments
  | "help" => readHelp arguments
  | _ => .error .misuse

def leadingOptions : List OptionSpec :=
  [{ name := "host" }, { name := "config", short := some 'c' }]

/-- Adds a leading option. The path of a settings file is not empty. -/
def addLeading (w : Words) (option : String × String) : Except Refusal Words :=
  if option = ("config", "") then .error .misuse else w.addOption option.1 option.2

/-- Reads the leading options and then the command. A value that is an argument of its own is looked
at when the next option, or all of the command, has been read. -/
def readRequest (w : Words) (held : Option (String × String)) :
    List String → Except Refusal Request
  | [] => .error .misuse
  | argument :: rest => do
    let settled : Except Refusal Words := match held with
      | none => .ok w
      | some option => addLeading w option
    match ← spelling leadingOptions argument, rest with
    | .help, _ => do
      let _ ← settled
      .error (.help .overview)
    | .restIsPlain, _ => .error .misuse
    | .switch _, _ => .error .misuse
    | .plain, rest => do
      let command ← readCommand argument rest
      let w ← settled
      .ok ⟨(w.option? "host").getD defaultAddress, w.option? "config", command⟩
    | .option name (some value), rest =>
      readRequest (← addLeading (← settled) (name, value)) none rest
    | .option _ none, [] => .error .misuse
    | .option name none, value :: rest => do
      let w ← settled
      if isValue value then readRequest w (some (name, value)) rest else .error .misuse

def parse (arguments : List String) : Except Refusal Request := readRequest {} none arguments

end RemoteHost.CommandLine
