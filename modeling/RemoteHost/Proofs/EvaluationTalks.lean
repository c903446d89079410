import RemoteHost.Proofs.GivenKeys

/-!
# What evaluations ask for

An evaluation asks for its turn, hands its program over, waits for the reply and ends its turn; then
it records the keys that the reply gives. The reply alone decides what is recorded and what the
evaluation comes to.
-/

namespace RemoteHost

variable {F α : Type} {s : Settings} {expression : String} {shape : ResultShape}
  {lineage : LineageId} {talk : Talk F}

/-! ## Readings of replies -/

/-- What an evaluation comes to by the answer to its program. -/
def ResultShape.comesTo (shape : ResultShape) :
    Except TransportFault Json → Except Fault Outcome
  | .error fault => .error (.transport fault)
  | .ok reply => outcomeOfShape shape reply

/-- The keys that the answer to a program gives. -/
def ResultShape.keysOf (shape : ResultShape) : Except TransportFault Json → List String
  | .error _ => []
  | .ok reply => shape.given reply

/-- The keys that come with an outcome: that of a handle, or the strings of a list of handles. -/
inductive ResultShape.Brings : ResultShape → Outcome → String → Prop
  | handle (shape : ResultShape) (key : String) : Brings shape (.handle key) key
  | listed {items : List Json} {key : String} (h : .string key ∈ items) :
    Brings .handleList (.value (.array items)) key

/-- The ways in which a program can be answered, each with what comes of it. -/
inductive ResultShape.Reads (shape : ResultShape) :
    Except TransportFault Json → Except Fault Outcome → Prop
  | accepted {reply : Json} {outcome : Outcome} (h : Spells reply (.ofOutcome outcome))
    (hfits : shape.fits outcome = true) : Reads shape (.ok reply) (.ok outcome)
  | unfit {reply : Json} {outcome : Outcome} (h : Spells reply (.ofOutcome outcome))
    (hfits : shape.fits outcome = false) :
    Reads shape (.ok reply) (.error (.transport (.unexpectedKind shape outcome.kind)))
  | remote {reply : Json} {message : String} (h : Spells reply (.error message)) :
    Reads shape (.ok reply) (.error (.remote message))
  | malformed {reply : Json} {mismatch : Json.Mismatch} (h : ∀ e, ¬ Spells reply e)
    (hmismatch : Envelope.ofJson reply = .error mismatch) :
    Reads shape (.ok reply) (.error (.transport (.malformed (.envelope mismatch))))
  | broken (fault : TransportFault) : Reads shape (.error fault) (.error (.transport fault))

namespace ResultShape

variable {answer : Except TransportFault Json} {result : Except Fault Outcome} {reply : Json}
  {outcome : Outcome}

theorem Reads.comesTo (h : shape.Reads answer result) : shape.comesTo answer = result := by
  cases h with
  | accepted h hfits => exact outcomeOfShape_of_spells h hfits
  | unfit h hfits =>
    rw [ResultShape.comesTo, outcomeOfShape, outcomeOfReply_eq_ok.mpr h]
    simp [accept, hfits]
  | remote h =>
    rw [ResultShape.comesTo, outcomeOfShape, outcomeOfReply, Envelope.ofJson_eq_ok.mpr h]
    rfl
  | malformed h hmismatch =>
    rw [ResultShape.comesTo, outcomeOfShape, outcomeOfReply, hmismatch]
  | broken fault => rfl

theorem reads_comesTo (shape : ResultShape) (answer : Except TransportFault Json) :
    shape.Reads answer (shape.comesTo answer) := by
  cases answer with
  | error fault => exact .broken fault
  | ok reply =>
    cases hread : Envelope.ofJson reply with
    | error mismatch =>
      have hnone : ∀ e, ¬ Spells reply e := by
        intro e he
        rw [Envelope.ofJson_eq_ok.mpr he] at hread
        cases hread
      have hreads : shape.Reads (.ok reply) _ := .malformed hnone hread
      rwa [hreads.comesTo]
    | ok envelope =>
      have hspells : Spells reply envelope := Envelope.ofJson_eq_ok.mp hread
      cases hout : envelope.outcome with
      | error message =>
        obtain rfl : envelope = .error message := by
          cases envelope <;> cases hout
          rfl
        have hreads : shape.Reads (.ok reply) _ := .remote hspells
        rwa [hreads.comesTo]
      | ok outcome =>
        obtain rfl := Envelope.outcome_eq_ok.mp hout
        cases hfits : shape.fits outcome with
        | true =>
          have hreads : shape.Reads (.ok reply) _ := .accepted hspells hfits
          rwa [hreads.comesTo]
        | false =>
          have hreads : shape.Reads (.ok reply) _ := .unfit hspells hfits
          rwa [hreads.comesTo]

/-- An answer is read in one way. -/
theorem reads_iff : shape.Reads answer result ↔ shape.comesTo answer = result := by
  constructor
  · exact Reads.comesTo
  · rintro rfl
    exact reads_comesTo shape answer

/-- An evaluation succeeds exactly with an outcome of its shape that the reply spells. -/
theorem comesTo_eq_ok : shape.comesTo answer = .ok outcome ↔
    ∃ reply, answer = .ok reply ∧ Spells reply (.ofOutcome outcome) ∧
      shape.fits outcome = true := by
  rw [← reads_iff]
  constructor
  · intro h
    cases h with
    | accepted h hfits => exact ⟨_, rfl, h, hfits⟩
  · rintro ⟨reply, rfl, h, hfits⟩
    exact .accepted h hfits

theorem mem_received {key : String} : key ∈ shape.received outcome ↔ shape.Brings outcome key := by
  constructor
  · intro hkey
    unfold received at hkey
    split at hkey
    · obtain rfl := List.mem_singleton.mp hkey
      exact .handle _ _
    · obtain ⟨item, hitem, htext⟩ := List.mem_filterMap.mp hkey
      cases item with
      | string text =>
        cases htext
        exact .listed hitem
      | _ => cases htext
    · cases hkey
  · intro hbrings
    cases hbrings with
    | handle => exact List.mem_singleton_self key
    | listed h => exact List.mem_filterMap.mpr ⟨_, h, rfl⟩

/-- Whatever was refused gives no keys. -/
theorem keysOf_of_error {fault : Fault} (h : shape.comesTo answer = .error fault) :
    shape.keysOf answer = [] := by
  cases answer with
  | error cause => rfl
  | ok reply =>
    have hrefused : outcomeOfShape shape reply = .error fault := h
    rw [keysOf, given, hrefused]

theorem keysOf_of_ok (h : shape.comesTo answer = .ok outcome) :
    shape.keysOf answer = shape.received outcome := by
  cases answer with
  | error cause => cases h
  | ok reply =>
    have haccepted : outcomeOfShape shape reply = .ok outcome := h
    rw [keysOf, given, haccepted]

end ResultShape

/-! ## Talks -/

/-- What it takes to record keys. -/
def Talk.recordings (keys : List String) : Talk F := keys.map fun key => ⟨.record key, ()⟩

/-- Records keys and ends. -/
def recording (result : α) : List String → Routine F α
  | [] => .done result
  | key :: keys => .ask (.record key) fun _ => recording result keys

/-- The exchanges of an evaluation that has its turn. -/
def Talk.answered (s : Settings) (expression : String) (shape : ResultShape) (lineage : LineageId)
    (answer : Except TransportFault Json) : Talk F :=
  ⟨.enter lineage s.stepConflict, .ok ()⟩ ::
    ⟨.submit (Program.enveloped s expression shape), ()⟩ :: ⟨.collect, answer⟩ ::
    ⟨.complete lineage, ()⟩ :: Talk.recordings (shape.keysOf answer)

/-- The exchanges of an evaluation, and what it comes to. -/
inductive EvaluationTalk (s : Settings) (expression : String) (shape : ResultShape)
    (lineage : LineageId) : Talk F → Except Fault Outcome → Prop
  | refused (fault : UsageFault) : EvaluationTalk s expression shape lineage
      [⟨.enter lineage s.stepConflict, .error fault⟩] (.error (.usage fault))
  | answered (answer : Except TransportFault Json) : EvaluationTalk s expression shape lineage
      (Talk.answered s expression shape lineage answer) (shape.comesTo answer)

theorem run_recordAll (keys : List String) (a : α) :
    (recordAll keys >>= fun _ => pure a : Job F α).run = recording (.ok a) keys := by
  induction keys with
  | nil => rfl
  | cons key keys ih => exact congrArg (Routine.ask _) (funext fun _ => ih)

/-- An evaluation as a routine. -/
theorem run_evaluate (s : Settings) (expression : String) (shape : ResultShape)
    (lineage : LineageId) : (evaluate s expression shape lineage : Job F Outcome).run =
      .ask (.enter lineage s.stepConflict) fun
        | .error fault => .done (.error (.usage fault))
        | .ok _ =>
          .ask (.submit (Program.enveloped s expression shape)) fun _ =>
          .ask .collect fun answer =>
          .ask (.complete lineage) fun _ =>
            recording (shape.comesTo answer) (shape.keysOf answer) := by
  unfold evaluate
  apply congrArg (Routine.ask _)
  funext entered
  cases entered with
  | error fault => rfl
  | ok =>
    apply congrArg (Routine.ask _)
    funext _
    apply congrArg (Routine.ask _)
    funext answer
    apply congrArg (Routine.ask _)
    funext _
    cases answer with
    | error fault => rfl
    | ok reply =>
      change (Routine.done (.ok reply)).bind (ExceptT.bindCont _) = _
      simp only [Routine.bind, ExceptT.bindCont]
      rw [ResultShape.comesTo, ResultShape.keysOf, ResultShape.given]
      cases outcomeOfShape shape reply with
      | error fault => rfl
      | ok outcome => exact run_recordAll _ outcome

theorem leads_recording {result final : α} {keys : List String} :
    (recording result keys : Routine F α).Leads talk (.done final) ↔
      talk = Talk.recordings keys ∧ final = result := by
  induction keys generalizing talk with
  | nil =>
    constructor
    · intro h
      cases h
      exact ⟨rfl, rfl⟩
    · rintro ⟨rfl, rfl⟩
      exact .here _
  | cons key keys ih =>
    constructor
    · intro h
      cases h with
      | ask _ h =>
        obtain ⟨rfl, rfl⟩ := ih.mp h
        exact ⟨rfl, rfl⟩
    · rintro ⟨rfl, rfl⟩
      exact .ask _ (ih.mpr ⟨rfl, rfl⟩)

variable {result : Except Fault Outcome}

/-- These are the talks of an evaluation, and there are no others. -/
theorem leads_evaluate :
    (evaluate s expression shape lineage : Job F Outcome).run.Leads talk (.done result) ↔
      EvaluationTalk s expression shape lineage talk result := by
  rw [run_evaluate]
  constructor
  · intro h
    cases h with
    | ask entered h =>
      cases entered with
      | error fault =>
        cases h
        exact .refused fault
      | ok =>
        cases h with
        | ask _ h =>
          cases h with
          | ask answer h =>
            cases h with
            | ask _ h =>
              obtain ⟨rfl, rfl⟩ := leads_recording.mp h
              exact .answered answer
  · intro h
    cases h with
    | refused fault => exact .ask _ (.here _)
    | answered answer =>
      exact .ask _ (.ask _ (.ask _ (.ask _ (leads_recording.mpr ⟨rfl, rfl⟩))))

theorem Talk.mem_recordings {keys : List String} {exchange : (r : Request F) × r.Reply} :
    exchange ∈ (Talk.recordings keys : Talk F) ↔ ∃ key ∈ keys, exchange = ⟨.record key, ()⟩ := by
  simp [Talk.recordings, eq_comm]

/-- An evaluation has one answer. -/
theorem Talk.collect_mem_answered {answer other : Except TransportFault Json} :
    ⟨.collect, other⟩ ∈ (Talk.answered s expression shape lineage answer : Talk F) ↔
      other = answer := by
  constructor
  · intro hmem
    simp only [Talk.answered, List.mem_cons, Talk.mem_recordings] at hmem
    obtain h | h | h | h | ⟨key, -, h⟩ := hmem <;> cases h
    rfl
  · rintro rfl
    simp [Talk.answered]

/-- An evaluation hands over one program. -/
theorem Talk.submit_mem_answered {answer : Except TransportFault Json} {program : String} :
    ⟨.submit program, ()⟩ ∈ (Talk.answered s expression shape lineage answer : Talk F) ↔
      program = Program.enveloped s expression shape := by
  constructor
  · intro hmem
    simp only [Talk.answered, List.mem_cons, Talk.mem_recordings] at hmem
    obtain h | h | h | h | ⟨key, -, h⟩ := hmem <;> cases h
    rfl
  · rintro rfl
    simp [Talk.answered]

/-- Only the reply that was waited for can make an evaluation succeed. -/
theorem EvaluationTalk.eq_ok_iff (h : EvaluationTalk s expression shape lineage talk result)
    (outcome : Outcome) : result = .ok outcome ↔ ∃ reply, ⟨.collect, .ok reply⟩ ∈ talk ∧
      Spells reply (.ofOutcome outcome) ∧ shape.fits outcome = true := by
  cases h with
  | refused fault =>
    refine ⟨nofun, ?_⟩
    rintro ⟨reply, hmem, -⟩
    cases List.mem_singleton.mp hmem
  | answered answer =>
    rw [ResultShape.comesTo_eq_ok]
    simp only [Talk.collect_mem_answered, eq_comm]

/-- An evaluation fails by misuse only where it is turned away. -/
theorem EvaluationTalk.of_usage {fault : UsageFault}
    (h : EvaluationTalk s expression shape lineage talk (.error (.usage fault))) :
    talk = [⟨.enter lineage s.stepConflict, .error fault⟩] := by
  generalize hresult : (.error (.usage fault) : Except Fault Outcome) = result at h
  cases h with
  | refused fault' =>
    cases hresult
    rfl
  | answered answer =>
    have hreads := shape.reads_comesTo answer
    rw [← hresult] at hreads
    cases hreads

end RemoteHost
