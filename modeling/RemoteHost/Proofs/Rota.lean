import Mathlib.Logic.Function.Basic
import RemoteHost.Evaluation
import RemoteHost.Session.Answer

/-!
# Round trips taking turns

A rota is a session whose parties make round trips in its lineages. A party runs until it has to
wait: for its turn, for the host to take the program, or for the reply. There, and only there,
others may run, and there it may be abandoned. What the host does is left open.
-/

namespace RemoteHost

variable {F : Type}

/-- One call of a round trip. Calls are numbered in the order in which they ask for a turn. -/
structure Ticket where
  number : Nat
  party : Party
  lineage : LineageId
  program : String
  deriving DecidableEq

inductive TurnEvent where
  | asked (t : Ticket)
  | entered (t : Ticket)
  | refused (t : Ticket)
  /-- The session took a program for the host. -/
  | handed (t : Ticket) (program : String)
  /-- The host's side came to an end with the program, well or badly. -/
  | ended (t : Ticket)
  | returned (t : Ticket) (result : Except Fault Json)
  | left (t : Ticket)

structure Rota (F : Type) where
  session : Session F
  trips : Party → Option (Ticket × Routine F (Except Fault Json)) := fun _ => none
  issued : Nat := 0
  log : List TurnEvent := []

inductive RotaMove where
  | begin (p : Party) (lineage : LineageId) (program : String)
  | go (p : Party)
  | abandon (p : Party)
  | addLineage (label : String) (parent : Option LineageId)
  /-- Something changes at the host's side. -/
  | host (host : Host)

/-- Whether a party may have to wait for the answer. -/
def Request.waits : Request F → Bool
  | .enter _ _ | .submit _ | .collect => true
  | _ => false

namespace Rota

/-- Goes on with a routine up to the next request that may have to wait. -/
def coast (p : Party) : Routine F (Except Fault Json) → Session F →
    Routine F (Except Fault Json) × Session F
  | .done result, s => (.done result, s)
  | .ask request next, s =>
    if request.waits then (.ask request next, s)
    else
      match s.answer p request with
      | (some reply, s) => coast p (next reply) s
      | (none, s) => (.ask request next, s)

/-- What the answer to a request is noted as. -/
def noted (t : Ticket) : (request : Request F) → request.Reply → List TurnEvent
  | .enter _ _, .ok () => [.entered t]
  | .enter _ _, .error _ => [.refused t]
  | .submit program, _ => [.handed t program]
  | .collect, _ => [.ended t]
  | _, _ => []

/-- Lets a party wait with a routine, or return if the routine is done. -/
def rest (w : Rota F) (t : Ticket) : Routine F (Except Fault Json) → Rota F
  | .done result =>
    { w with
      trips := Function.update w.trips t.party none
      log := w.log ++ [.returned t result] }
  | routine => { w with trips := Function.update w.trips t.party (some (t, routine)) }

/-- Asks once more what a routine waits for, and goes on if there is an answer. -/
def poll (w : Rota F) (t : Ticket) : Routine F (Except Fault Json) → Rota F
  | .done result => w.rest t (.done result)
  | .ask request next =>
    match w.session.answer t.party request with
    | (none, s) => { w with session := s }.rest t (.ask request next)
    | (some reply, s) =>
      match coast t.party (next reply) s with
      | (routine, s) => { w with session := s, log := w.log ++ noted t request reply }.rest t routine

def begin (w : Rota F) (p : Party) (lineage : LineageId) (program : String) : Rota F :=
  let t : Ticket := ⟨w.issued, p, lineage, program⟩
  let w : Rota F := { w with issued := w.issued + 1, log := w.log ++ [.asked t] }
  w.poll t (roundTrip w.session.settings program lineage).run

def go (w : Rota F) (p : Party) : Rota F :=
  match w.trips p with
  | none => w
  | some (t, routine) => w.poll t routine

/-- The rota after a move. A move that is not possible changes nothing. -/
def act (w : Rota F) : RotaMove → Rota F
  | .begin p lineage program =>
    if (w.trips p).isNone ∧ lineage < w.session.lineages.length then w.begin p lineage program else w
  | .go p => w.go p
  | .abandon p =>
    match w.trips p with
    | none => w
    | some (t, _) =>
      { w with
        session := w.session.abandon p
        trips := Function.update w.trips p none
        log := w.log ++ [.left t] }
  | .addLineage label parent => { w with session := (w.session.addLineage label parent).2 }
  | .host host => { w with session := { w.session with host } }

def run (w : Rota F) (moves : List RotaMove) : Rota F := moves.foldl act w

/-- A new session, in which no call has been made yet. -/
def start (settings : Settings) (host : Host) : Rota F where
  session := { settings, host }

/-- How far a round trip has got: it waits for its turn, for the host to take the program, or for
the reply. -/
inductive Stage where
  | entering
  | submitting
  | collecting

/-- What is left of a round trip. -/
def Stage.rest (s : Settings) (t : Ticket) : Stage → Routine F (Except Fault Json)
  | .entering => (roundTrip s t.program t.lineage).run
  | .submitting => (do
      Job.submit t.program
      let reply ← Job.collect
      Job.complete t.lineage
      Job.ofTransport reply : Job F Json).run
  | .collecting => (do
      let reply ← Job.collect
      Job.complete t.lineage
      Job.ofTransport reply : Job F Json).run

/-- What a round trip returns for a reply. -/
def resultOf : Except TransportFault Json → Except Fault Json
  | .ok value => .ok value
  | .error fault => .error (.transport fault)

end Rota

/-! ## What sessions do to lineages -/

namespace Session

/-- What a session has for the turns of its parties. -/
def turns (s : Session F) : Settings × List Lineage := (s.settings, s.lineages)

@[simp] theorem turns_wake (s : Session F) (p : Party) : (s.wake p).turns = s.turns := by
  unfold wake
  split
  · rfl
  · rfl
  · split <;> rfl
  · split <;> rfl

@[simp] theorem turns_wakeHolder (s : Session F) (id : LineageId) :
    (s.wakeHolder id).turns = s.turns := by
  unfold wakeHolder
  split
  · exact turns_wake s _
  · rfl

@[simp] theorem turns_modifyLineage (s : Session F) (id : LineageId) (f : Lineage → Lineage) :
    (s.modifyLineage id f).turns = (s.settings, s.lineages.modify id f) := rfl

@[simp] theorem turns_leaveWire (s : Session F) (p : Party) : (s.leaveWire p).turns = s.turns := by
  unfold leaveWire
  dsimp only
  split
  · split
    · rfl
    · exact turns_wake _ _
  · rfl

@[simp] theorem turns_submit (s : Session F) (p : Party) (program : String) :
    (s.submit p program).2.turns = s.turns := by
  unfold submit
  split
  · dsimp only
    split <;> rfl
  · rfl

@[simp] theorem turns_collect (s : Session F) (p : Party) : (s.collect p).2.turns = s.turns := by
  unfold collect
  split
  · rfl
  · split
    · rfl
    · exact turns_leaveWire _ p

@[simp] theorem turns_dropEndpoint (s : Session F) (endpoint : EndpointId) :
    (s.dropEndpoint endpoint).turns = s.turns := by
  unfold dropEndpoint
  dsimp only
  split <;> rfl

theorem turns_foldl_dropEndpoint (s : Session F) (endpoints : List EndpointId) :
    (endpoints.foldl dropEndpoint s).turns = s.turns := by
  induction endpoints generalizing s with
  | nil => rfl
  | cons endpoint endpoints ih => simpa using ih (s.dropEndpoint endpoint)

@[simp] theorem turns_leave (s : Session F) (p : Party) (id : LineageId) :
    (s.leave p id).turns =
      (s.settings, s.lineages.modify id fun l => { l with gate := l.gate.withdraw p }) := by
  unfold leave
  dsimp only
  split <;> simp

theorem getElem?_foldl_leave (s : Session F) (p : Party) (ids : List LineageId)
    (hnodup : ids.Nodup) (l : LineageId) :
    (ids.foldl (fun s id => s.leave p id) s).lineages[l]? =
      if l ∈ ids then s.lineages[l]?.map fun x => { x with gate := x.gate.withdraw p }
      else s.lineages[l]? := by
  induction ids generalizing s with
  | nil => rfl
  | cons id ids ih =>
    obtain ⟨hid, hrest⟩ := List.nodup_cons.mp hnodup
    have hleave : (s.leave p id).lineages =
        s.lineages.modify id fun l => { l with gate := l.gate.withdraw p } :=
      congrArg Prod.snd (turns_leave s p id)
    rw [List.foldl_cons, ih (s.leave p id) hrest, hleave, List.getElem?_modify]
    by_cases hl : id = l
    · subst hl
      simp [hid]
    · have hne : l ≠ id := fun heq => hl heq.symm
      simp [hl, hne]

theorem settings_withdraw (s : Session F) (p : Party) : (s.withdraw p).settings = s.settings := by
  have every : ∀ ids : List LineageId,
      (ids.foldl (fun s id => s.leave p id) s).settings = s.settings := by
    intro ids
    induction ids generalizing s with
    | nil => rfl
    | cons id ids ih => exact (ih (s.leave p id)).trans (congrArg Prod.fst (turns_leave s p id))
  exact every _

/-- A party that gives up is taken out of every lineage. -/
theorem turns_abandon (s : Session F) (p : Party) : (s.abandon p).settings = s.settings ∧
    ∀ l : LineageId, (s.abandon p).lineages[l]? =
      s.lineages[l]?.map fun x => { x with gate := x.gate.withdraw p } := by
  obtain ⟨s', endpoints, hs', habandon⟩ : ∃ (s' : Session F) (endpoints : List EndpointId),
      s'.turns = s.turns ∧ s.abandon p = endpoints.foldl dropEndpoint (s'.withdraw p) :=
    ⟨_, _, turns_leaveWire { s with
      inFlight := s.inFlight.filter fun entry => entry.1 ≠ p
      resting := s.resting.erase p } p, rfl⟩
  have hturns := turns_foldl_dropEndpoint (s'.withdraw p) endpoints
  rw [← habandon] at hturns
  have hlineages : s'.lineages = s.lineages := congrArg Prod.snd hs'
  constructor
  · have hsettings : s'.settings = s.settings := congrArg Prod.fst hs'
    exact (congrArg Prod.fst hturns).trans ((settings_withdraw s' p).trans hsettings)
  · intro l
    have hl : (s.abandon p).lineages = (s'.withdraw p).lineages := congrArg Prod.snd hturns
    rw [hl, withdraw, getElem?_foldl_leave s' p _ List.nodup_range, hlineages]
    split
    · rfl
    · rename_i hout
      rw [List.mem_range] at hout
      rw [List.getElem?_eq_none (Nat.le_of_not_lt hout)]
      rfl

theorem turns_complete (s : Session F) (id : LineageId) : (s.complete id).turns =
    (s.settings, s.lineages.modify id fun l =>
      { l with roundTrips := l.roundTrips + 1, gate := l.gate.pass }) := by
  simp [complete]

/-- Asking for a turn: under the queueing policy, or where nobody else has the turn, the gate is
asked; otherwise the answer is a conflict. -/
theorem enter_eq (s : Session F) (p : Party) (id : LineageId) (policy : ConflictPolicy)
    {lineage : Lineage} (hlineage : s.lineages[id]? = some lineage) : s.enter p id policy =
      if policy = .reject ∧ lineage.gate.isTakenFrom p then
        (some (.error (.stepConflict lineage.label)), s)
      else
        (if (lineage.gate.ask p).1 then some (.ok ()) else none,
          s.modifyLineage id ({ · with gate := (lineage.gate.ask p).2 })) := by
  unfold enter
  rw [hlineage]

end Session

namespace Rota

variable {w : Rota F} {t : Ticket}

/-! ## The stages of a round trip -/

theorem rest_entering (s : Settings) (t : Ticket) :
    Stage.rest s t .entering = (.ask (.enter t.lineage s.stepConflict) fun
      | .ok () => Stage.rest s t .submitting
      | .error fault => .done (.error (.usage fault)) : Routine F (Except Fault Json)) := by
  change Routine.ask _ _ = _
  congr
  funext reply
  cases reply <;> rfl

theorem rest_submitting (s : Settings) (t : Ticket) :
    Stage.rest s t .submitting =
      (.ask (.submit t.program) fun _ => Stage.rest s t .collecting : Routine F _) := rfl

theorem rest_collecting (s : Settings) (t : Ticket) :
    Stage.rest s t .collecting = (.ask .collect fun reply =>
      .ask (.complete t.lineage) fun _ => .done (resultOf reply) : Routine F _) := by
  change Routine.ask _ _ = _
  congr
  funext reply
  cases reply <;> rfl

theorem coast_stage (s : Settings) (t : Ticket) (p : Party) (stage : Stage) (session : Session F) :
    coast p (Stage.rest s t stage) session = (Stage.rest s t stage, session) := by
  cases stage with
  | entering => simp [rest_entering, coast, Request.waits]
  | submitting => simp [rest_submitting, coast, Request.waits]
  | collecting => simp [rest_collecting, coast, Request.waits]

theorem rest_stage (w : Rota F) (s : Settings) (t : Ticket) (stage : Stage) :
    w.rest t (Stage.rest s t stage) =
      { w with trips := Function.update w.trips t.party (some (t, Stage.rest s t stage)) } := by
  cases stage with
  | entering => rw [rest_entering]; rfl
  | submitting => rfl
  | collecting => rw [rest_collecting]; rfl

/-- The first thing that a round trip does, now or when it is looked at again. -/
theorem poll_entering (w : Rota F) (s : Settings) {lineage : Lineage}
    (hlineage : w.session.lineages[t.lineage]? = some lineage) :
    w.poll t (Stage.rest s t .entering) =
      if s.stepConflict = .reject ∧ lineage.gate.isTakenFrom t.party then
        { w with
          trips := Function.update w.trips t.party none
          log := w.log ++ [.refused t] ++
            [.returned t (.error (.usage (.stepConflict lineage.label)))] }
      else
        { w with
          session := w.session.modifyLineage t.lineage
            ({ · with gate := (lineage.gate.ask t.party).2 })
          trips := Function.update w.trips t.party (some (t, Stage.rest s t
            (if (lineage.gate.ask t.party).1 then .submitting else .entering)))
          log := if (lineage.gate.ask t.party).1 then w.log ++ [.entered t] else w.log } := by
  have henter := w.session.enter_eq t.party t.lineage s.stepConflict hlineage
  rw [rest_entering]
  simp only [poll, Session.answer, henter]
  by_cases hrefused : s.stepConflict = .reject ∧ lineage.gate.isTakenFrom t.party = true
  · simp [hrefused, coast, noted, rest]
  · rw [if_neg hrefused, if_neg hrefused]
    cases hgranted : (lineage.gate.ask t.party).1 with
    | false => simp [rest, ← rest_entering]
    | true => simp [rest_submitting, coast, Request.waits, noted, rest]

theorem poll_submitting (w : Rota F) (s : Settings) : w.poll t (Stage.rest s t .submitting) =
    match w.session.submit t.party t.program with
    | (none, session) => { w with
        session
        trips := Function.update w.trips t.party (some (t, Stage.rest s t .submitting)) }
    | (some (), session) => { w with
        session
        trips := Function.update w.trips t.party (some (t, Stage.rest s t .collecting))
        log := w.log ++ [.handed t t.program] } := by
  have hwaits := fun session : Session F => rest_stage { w with session } s t .submitting
  have hgoes := fun session : Session F =>
    rest_stage { w with session, log := w.log ++ [.handed t t.program] } s t .collecting
  simp only [rest_submitting] at hwaits ⊢
  simp only [poll, Session.answer, coast_stage]
  cases w.session.submit t.party t.program with
  | mk answer session =>
    cases answer with
    | none => exact hwaits session
    | some done => exact hgoes session

theorem poll_collecting (w : Rota F) (s : Settings) : w.poll t (Stage.rest s t .collecting) =
    match w.session.collect t.party with
    | (none, session) => { w with
        session
        trips := Function.update w.trips t.party (some (t, Stage.rest s t .collecting)) }
    | (some reply, session) => { w with
        session := session.complete t.lineage
        trips := Function.update w.trips t.party none
        log := w.log ++ [.ended t] ++ [.returned t (resultOf reply)] } := by
  rw [rest_collecting]
  simp only [poll, Session.answer]
  cases w.session.collect t.party with
  | mk answer session => cases answer <;> rfl

end Rota

end RemoteHost
