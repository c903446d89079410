import RemoteHost.Catalogue.Query
import RemoteHost.Proofs.Exchange
import RemoteHost.Proofs.Rota

/-!
# Editors

An editor is the other side of a session: it evaluates the expressions of the programs that it is
given, and keeps objects under keys. What its operations do is left open; the laws say how
expressions are put together and what keeping an object means.
-/

namespace RemoteHost

variable {F α β σ Obj : Type}

/-- A program's side of things, as far as expressions go. Evaluation fails with a message, or yields
an object or nothing at all, and may change the state. -/
structure Editor (σ Obj : Type) where
  eval : String → σ → Except String (Option Obj) × σ
  /-- What the operation of a suffix does with an object. -/
  perform : String → Obj → σ → Except String (Option Obj) × σ
  /-- The object that is kept under a key. -/
  stored : σ → String → Option Obj
  store : Obj → σ → String × σ
  /-- The value of an object that can be handed out as such. -/
  primitive : Obj → Except String Json
  items : Obj → Except String (List Obj)
  /-- The reply to a program. -/
  serve : String → σ → Replay × σ
  isExpression : String → Prop
  isOperation : String → Prop
  /-- States that differ in nothing but the objects that are kept. -/
  alike : σ → σ → Prop

namespace Editor

variable (e : Editor σ Obj)

def storeAll : List Obj → σ → List String × σ
  | [], w => ([], w)
  | o :: rest, w =>
    match e.store o w with
    | (key, w) =>
      match storeAll rest w with
      | (keys, w) => (key :: keys, w)

/-- The envelope of what an expression came to, in the shape that is asked for. Objects are kept,
and their keys handed out. -/
def reply (shape : ResultShape) : Except String (Option Obj) × σ → Replay × σ
  | (.error message, w) => (.json (Envelope.error message).toJson, w)
  | (.ok none, w) => (.json Envelope.none.toJson, w)
  | (.ok (some o), w) =>
    match shape with
    | .handleList =>
      match e.items o with
      | .error message => (.fail message, w)
      | .ok items =>
        match e.storeAll items w with
        | (keys, w) => (.json (Envelope.primitive (.array (keys.map .string))).toJson, w)
    | .handle | .optionalHandle =>
      match e.store o w with
      | (key, w) => (.json (Envelope.handle key).toJson, w)
    | .value =>
      match e.primitive o with
      | .error message => (.json (Envelope.error message).toJson, w)
      | .ok value => (.json (Envelope.primitive value).toJson, w)

/-- What holds of an editor that evaluates an expression part by part and keeps objects for good.
-/
structure Lawful (s : Settings) : Prop where
  serves : ∀ p shape w, e.isExpression p →
    e.serve (Program.enveloped s p shape) w = e.reply shape (e.eval p w)
  handle : ∀ key, e.isExpression (Program.handleRef s key)
  longer : ∀ p suffix, e.isExpression p → e.isOperation suffix → e.isExpression (p ++ suffix)
  applies : ∀ p suffix w o w', e.isExpression p → e.isOperation suffix →
    e.eval p w = (.ok (some o), w') → e.eval (p ++ suffix) w = e.perform suffix o w'
  refers : ∀ w key o, e.stored w key = some o →
    e.eval (Program.handleRef s key) w = (.ok (some o), w)
  fresh : ∀ o w, e.stored w (e.store o w).1 = none
  stores : ∀ o w, e.stored (e.store o w).2 (e.store o w).1 = some o
  keeps : ∀ o w key, key ≠ (e.store o w).1 → e.stored (e.store o w).2 key = e.stored w key
  alike_refl : ∀ w, e.alike w w
  alike_trans : ∀ u v w, e.alike u v → e.alike v w → e.alike u w
  store_alike : ∀ o w, e.alike (e.store o w).2 w
  perform_alike : ∀ suffix o v w, e.isOperation suffix → e.alike v w →
    (e.perform suffix o v).1 = (e.perform suffix o w).1 ∧
      e.alike (e.perform suffix o v).2 (e.perform suffix o w).2

/-- Has the reply to a program ready when a party hands it over. -/
def prompt : Request F → Session F → σ → Session F × σ
  | .submit program, s, w =>
    match e.serve program w with
    | (reply, w) => ({ s with host := .replaying { replies := [reply] } }, w)
  | _, s, w => (s, w)

/-- Runs a routine of a party to its end, with nobody else around. A routine that would have to wait
has no result. -/
def attend (p : Party) : Routine F α → Session F → σ → Option α × Session F × σ
  | .done a, s, w => (some a, s, w)
  | .ask request next, s, w =>
    match e.prompt request s w with
    | (s, w) =>
      match s.answer p request with
      | (some reply, s) => attend p (next reply) s w
      | (none, s) => (none, s, w)

variable {e} {p : Party} {s s' : Session F} {w w' : σ}

theorem attend_bind (m : Routine F α) (f : α → Routine F β) (s : Session F) (w : σ) :
    e.attend p (m.bind f) s w =
      match e.attend p m s w with
      | (some a, s, w) => e.attend p (f a) s w
      | (none, s, w) => (none, s, w) := by
  induction m generalizing s w with
  | done a => rfl
  | ask request next ih =>
    simp only [Routine.bind, attend]
    cases e.prompt request s w with
    | mk s w =>
      dsimp only
      cases s.answer p request with
      | mk answer s =>
        cases answer with
        | none => rfl
        | some reply => exact ih reply s w

theorem attend_job_ok {m : Job F α} {a : α} (h : e.attend p m.run s w = (some (.ok a), s', w'))
    (f : α → Job F β) : e.attend p (m >>= f).run s w = e.attend p (f a).run s' w' := by
  have hbind := attend_bind (e := e) (p := p) m.run (ExceptT.bindCont f) s w
  rw [h] at hbind
  exact hbind

theorem attend_job_error {m : Job F α} {fault : Fault}
    (h : e.attend p m.run s w = (some (.error fault), s', w')) (f : α → Job F β) :
    e.attend p (m >>= f).run s w = (some (.error fault), s', w') := by
  have hbind := attend_bind (e := e) (p := p) m.run (ExceptT.bindCont f) s w
  rw [h] at hbind
  exact hbind

end Editor

/-! ## Sessions that nobody else uses -/

namespace Session

/-- Nobody has or waits for a turn. -/
def AtRest (s : Session F) : Prop :=
  ∀ (l : LineageId) x, s.lineages[l]? = some x → x.gate = {}

/-- A session after some programs were sent and some handles received. -/
structure Served (s s' : Session F) (programs keys : List String) : Prop where
  atRest : s'.AtRest
  events : s'.journal.events = s.journal.events ++ programs.map .executed
  arena : s'.arena = s.arena.restore keys

theorem Served.refl {s : Session F} (h : s.AtRest) : Served s s [] [] :=
  ⟨h, (List.append_nil _).symm, rfl⟩

theorem Served.trans {s₁ s₂ s₃ : Session F} {programs more keys others : List String}
    (h₁ : Served s₁ s₂ programs keys) (h₂ : Served s₂ s₃ more others) :
    Served s₁ s₃ (programs ++ more) (keys ++ others) where
  atRest := h₂.atRest
  events := by rw [h₂.events, h₁.events, List.map_append, List.append_assoc]
  arena := by
    rw [h₂.arena, h₁.arena, Arena.restore, Arena.restore, Arena.restore, List.foldl_append]

theorem enter_atRest {s : Session F} (h : s.AtRest) (p : Party) (l : LineageId)
    (policy : ConflictPolicy) : s.enter p l policy =
      (some (.ok ()), s.modifyLineage l ({ · with gate := ⟨some p, []⟩ })) := by
  cases hlineage : s.lineages[l]? with
  | none =>
    have hsame : s.lineages.modify l ({ · with gate := ⟨some p, []⟩ }) = s.lineages :=
      List.modify_eq_self (List.getElem?_eq_none_iff.mp hlineage)
    simp [enter, hlineage, modifyLineage, hsame]
  | some lineage =>
    have hgate := h l lineage hlineage
    rw [s.enter_eq p l policy hlineage, hgate]
    simp [Gate.isTakenFrom, Gate.ask]

theorem wakeHolder_eq (s : Session F) (l : LineageId) :
    ∃ ready, s.wakeHolder l = { s with ready } := by
  unfold wakeHolder
  split
  · exact s.wake_eq _
  · exact ⟨s.ready, rfl⟩

/-- After a turn everything is at rest again. -/
theorem gates_after_turn {lineages : List Lineage}
    (h : ∀ (l : LineageId) x, lineages[l]? = some x → x.gate = {}) (p : Party) (l k : LineageId)
    (x : Lineage)
    (hx : ((lineages.modify l ({ · with gate := ⟨some p, []⟩ })).modify l fun x =>
      { x with roundTrips := x.roundTrips + 1, gate := x.gate.pass })[k]? = some x) :
    x.gate = {} := by
  rw [List.getElem?_modify, List.getElem?_modify] at hx
  by_cases hl : l = k
  · subst hl
    cases hold : lineages[l]? with
    | none =>
      rw [hold] at hx
      cases hx
    | some y =>
      rw [hold] at hx
      obtain rfl : _ = x := by simpa using hx
      rfl
  · cases hold : lineages[k]? with
    | none =>
      rw [hold] at hx
      cases hx
    | some y =>
      obtain rfl : y = x := by simpa [hold, hl] using hx
      exact h k y hold

end Session

namespace Editor

variable {e : Editor σ Obj} {p : Party} {s s' : Session F} {w w' : σ}

/-- A round trip of a party that is alone sends its program and returns what the editor replies. -/
theorem attend_roundTrip (hrest : s.AtRest) (st : Settings) {program : String} {reply : Replay}
    (hserve : e.serve program w = (reply, w')) (l : LineageId) : ∃ s',
      s.Served s' [program] [] ∧
        e.attend p (roundTrip st program l).run s w =
          (some (Rota.resultOf reply.result), s', w') := by
  let t : Ticket := ⟨0, p, l, program⟩
  let s₁ := s.modifyLineage l ({ · with gate := ⟨some p, []⟩ })
  let s₂ : Session F := { s₁ with
    host := .replaying {}
    inFlight := s₁.inFlight.filter fun entry => entry.1 ≠ p }.note [.executed program]
  have henter : s.answer p (.enter l st.stepConflict) = (some (.ok ()), s₁) :=
    Session.enter_atRest hrest p l st.stepConflict
  have hsubmit :
      ({ s₁ with host := .replaying { replies := [reply] } } : Session F).submit p program =
        (some (), { s₂ with inFlight := (p, .answered reply.result) :: s₂.inFlight }) := by
    simp [Session.submit, Host.isExclusive, Session.handOver, Host.submit, s₂, Session.note,
      ReplayingHost.reply]
  have hcollect : ({ s₂ with inFlight := (p, .answered reply.result) :: s₂.inFlight } :
      Session F).collect p = (some reply.result, s₂.leaveWire p) := by
    simp [Session.collect, Host.collect, s₂, Session.note]
  obtain ⟨ready, hleave⟩ := s₂.leaveWire_eq p
  obtain ⟨ready', hwake⟩ := Session.wakeHolder_eq ((s₂.leaveWire p).modifyLineage l fun x =>
    { x with roundTrips := x.roundTrips + 1, gate := x.gate.pass }) l
  refine ⟨(s₂.leaveWire p).complete l, ?_, ?_⟩
  · rw [Session.complete, hwake, hleave]
    refine { atRest := ?_, events := ?_, arena := rfl }
    · exact Session.gates_after_turn hrest p l
    · rfl
  · have hrun : ((roundTrip st program l).run : Routine F (Except Fault Json)) =
        Rota.Stage.rest st t .entering := rfl
    rw [hrun, Rota.rest_entering]
    simp only [attend, prompt, henter, t, Rota.rest_submitting, Rota.rest_collecting]
    simp only [hserve, Session.answer, hsubmit, hcollect]

end Editor

/-! ## Envelopes -/

/-- An envelope is read back from its own form. -/
theorem outcomeOfReply_toJson (envelope : Envelope) :
    outcomeOfReply envelope.toJson = match envelope.outcome with
      | .error message => .error (.remote message)
      | .ok outcome => .ok outcome := by
  cases envelope <;> rfl

namespace Editor

variable {e : Editor σ Obj} {p : Party} {s s' : Session F} {w w' : σ} {st : Settings}

/-! ## Evaluating -/

/-- What a reply says, where some shape is asked for. -/
def outcomeOf (shape : ResultShape) (reply : Replay) : Except Fault Outcome :=
  match reply.result with
  | .error fault => .error (.transport fault)
  | .ok value => outcomeOfShape shape value

/-- The keys that a session is given by an outcome. -/
def keysOf (shape : ResultShape) : Except Fault Outcome → List String
  | .error _ => []
  | .ok outcome => shape.received outcome

theorem attend_recordAll (keys : List String) (s : Session F) :
    e.attend p (recordAll keys : Job F Unit).run s w =
      (some (.ok ()), { s with arena := s.arena.restore keys }, w) := by
  induction keys generalizing s with
  | nil => rfl
  | cons key keys ih =>
    have hrecord : e.attend p (Job.record key : Job F Unit).run s w =
        (some (.ok ()), { s with arena := s.arena.record key }, w) := rfl
    exact (attend_job_ok hrecord fun _ => recordAll keys).trans (ih _)

/-- Evaluating an expression sends one program and yields what the editor replies to it. -/
theorem attend_evaluate (h : e.Lawful st) (hrest : s.AtRest) {expression : String}
    (hexpression : e.isExpression expression) (shape : ResultShape) (l : LineageId) {reply : Replay}
    (hreply : e.reply shape (e.eval expression w) = (reply, w')) : ∃ s',
      s.Served s' [Program.enveloped st expression shape] (keysOf shape (outcomeOf shape reply)) ∧
        e.attend p (evaluate st expression shape l).run s w =
          (some (outcomeOf shape reply), s', w') := by
  have hserve := h.serves expression shape w hexpression
  rw [hreply] at hserve
  obtain ⟨s₁, hserved, hround⟩ := attend_roundTrip (p := p) hrest st hserve l
  cases hresult : reply.result with
  | error fault =>
    rw [hresult] at hround
    have houtcome : outcomeOf shape reply = .error (.transport fault) := by
      simp [outcomeOf, hresult]
    rw [houtcome]
    exact ⟨s₁, hserved, attend_job_error hround _⟩
  | ok value =>
    rw [hresult] at hround
    have hrun := attend_job_ok hround fun value =>
      match outcomeOfShape shape value with
      | .error fault => (throw fault : Job F Outcome)
      | .ok outcome => do
        recordAll (shape.received outcome)
        pure outcome
    have hevaluate : e.attend p (evaluate st expression shape l).run s w = _ := hrun
    rw [hevaluate]
    cases houtcome : outcomeOfShape shape value with
    | error fault =>
      have hread : outcomeOf shape reply = .error fault := by simp [outcomeOf, hresult, houtcome]
      rw [hread]
      exact ⟨s₁, hserved, rfl⟩
    | ok outcome =>
      have hread : outcomeOf shape reply = .ok outcome := by simp [outcomeOf, hresult, houtcome]
      have hrecord := attend_recordAll (e := e) (p := p) (w := w') (shape.received outcome) s₁
      rw [hread]
      refine ⟨{ s₁ with arena := s₁.arena.restore (shape.received outcome) }, ?_,
        attend_job_ok hrecord _⟩
      refine { atRest := hserved.atRest, events := hserved.events, arena := ?_ }
      dsimp only
      rw [hserved.arena]
      rfl

end Editor

end RemoteHost
