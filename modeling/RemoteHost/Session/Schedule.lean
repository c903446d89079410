import RemoteHost.Session.Dispatch

/-!
# Schedules

Who runs when. The parties in the background are looked at in the order in which they became ready;
the foreground runs as far as it can, and lets the background run whenever it has to wait or to rest.
-/

namespace RemoteHost.Session

variable {F α : Type}

/-- Lets a task run until it is done or has to stop. -/
def pursueTask (s : Session F) (index : Nat) : Session F :=
  match s.tasks[index]? with
  | none => s
  | some task =>
    let (rest, s) := stride (.task index) task.rest s
    let s := { s with tasks := s.tasks.set index { task with rest } }
    match task.rest, rest with
    | .done _, _ => s
    | _, .done result =>
      let results := s.journal.results ++ [⟨task.label, result⟩]
      { s with journal := { s.journal with results } }
    | _, _ => s

/-- Lets a party in the background run until it is done or has to stop. -/
def look (behave : Behaviour F) (p : Party) (s : Session F) : Session F :=
  let s := { s with allowance := fullAllowance }
  match p with
  | .task index => s.pursueTask index
  | .callback id => pursue behave id s
  | .foreground | .guest _ => s

/-- Looks at parties in the background that are ready, so many at most. Then all rest is over. -/
def roundWith (behave : Behaviour F) : Nat → Session F → Session F
  | 0, s => s.resume
  | count + 1, s =>
    match s.ready with
    | [] => s.resume
    | p :: rest => roundWith behave count (look behave p { s with ready := rest })

/-- How many parties are looked at before it is the turn of the foreground again. -/
def roundLength : Nat := 61

/-- Lets the background run until it is the turn of the foreground again. -/
def round (behave : Behaviour F) (s : Session F) : Session F := roundWith behave roundLength s

/-- Lets the background run until nobody in it is ready, for so many rounds at most. -/
def settleWith (behave : Behaviour F) : Nat → Session F → Session F
  | 0, s => s
  | fuel + 1, s =>
    let s := s.round behave
    if s.ready.isEmpty then s else settleWith behave fuel s

/-- How many rounds there are before the background is taken to go on for ever. -/
def patience : Nat := 1000000

def settle (behave : Behaviour F) (s : Session F) : Session F := settleWith behave patience s

/-- Runs a routine, and the background whenever the routine has to stop, so many times at most. -/
def performWith (behave : Behaviour F) (p : Party) :
    Nat → Routine F α → Session F → Routine F α × Session F
  | 0, routine, s => (routine, s)
  | fuel + 1, routine, s =>
    match stride p routine s with
    | (.done a, s) => (.done a, s)
    | (.ask request next, s) =>
      if s.ready.isEmpty && p ∉ s.resting then (.ask request next, s)
      else performWith behave p fuel (.ask request next) (s.round behave)

/-- Runs a routine to its end, or as far as it gets without anything arriving from outside. -/
def perform (behave : Behaviour F) (p : Party) (routine : Routine F α) (s : Session F) :
    Routine F α × Session F :=
  performWith behave p patience routine s

def spawn (s : Session F) (label : String) (routine : Routine F (Except Fault Outcome)) :
    Session F :=
  let task : Task F := ⟨label, routine⟩
  { s with tasks := s.tasks ++ [task] }.wake (.task s.tasks.length)

end RemoteHost.Session
