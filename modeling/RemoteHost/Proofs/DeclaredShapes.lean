import RemoteHost.Catalogue.Command
import RemoteHost.Proofs.HandleLists

/-!
# Kinds that a declared shape rules out

Whoever reads the result of an operation has an arm for every kind, also for kinds that the declared
shape does not let through. The shape is checked once, where the reply is read, and is carried there
unchanged; so the arms for other kinds are never taken, whatever stands in them. Faults about kinds
come from the check alone, and name the declared shape and the kind that was received.
-/

namespace RemoteHost

variable {F α β : Type} {s : Settings} {shape : ResultShape} {outcome : Outcome}

/-! ## Outcomes that were checked -/

/-- What a job comes to that is spared nothing was checked against the declared shape. -/
theorem Job.EndsBy.fits {job : Job F Outcome} (h : job.EndsBy s shape nothing .ok) {talk : Talk F}
    (hleads : job.run.Leads talk (.done (.ok outcome))) : shape.fits outcome = true := by
  rcases (h _ _ hleads).of_ok rfl with hnothing | ⟨_, found, -, -, hfits, hfound⟩
  · exact hnothing.elim
  · cases hfound
    exact hfits

/-- Only what is done with outcomes of the declared shape matters. -/
theorem Job.EndsBy.andThen_congr {job : Job F Outcome} (h : job.EndsBy s shape nothing .ok)
    {f g : Outcome → Job F β} (hfg : ∀ outcome, shape.fits outcome = true → f outcome = g outcome) :
    job >>= f = job >>= g :=
  Job.andThen_congr fun _ outcome hleads => hfg outcome (h.fits hleads)

theorem handle_of_fits (h : ResultShape.handle.fits outcome = true) :
    ∃ key, outcome = .handle key := by
  cases outcome with
  | handle key => exact ⟨key, rfl⟩
  | value | absent => cases h

/-! ## Detours -/

/-- What could stand in the arms for kinds that the declared shapes rule out: where an object is
asked for, where an answer is read, where a pending object is produced, where keys are read from
what is no list, and where a value is read from a handle, of a list or of a count. -/
structure Detours (F : Type) where
  object : Outcome → Job F Proxy
  answer : Reading → Outcome → Job F Answer
  produced : Outcome → Job F Proxy
  keys : Json → Except TransportFault (List String)
  listed : String → Job F (List String)
  counted : String → Job F Nat

namespace Detours

/-- The arms as they are. -/
def asWritten : Detours F where
  object other := throw (.transport (.unexpectedKind .handle other.kind))
  answer reading other := throw (.transport (.unexpectedKind reading.shape other.kind))
  produced other := throw (.transport (.unexpectedKind .handle other.kind))
  keys other := .error (.malformed (.notHandleList other))
  listed _ := throw (.transport (.unexpectedKind .handleList .handle))
  counted _ := throw (.transport (.unexpectedKind .value .handle))

variable (d : Detours F)

def keysOf : Json → Except TransportFault (List String)
  | .array items => handleKeys (.array items)
  | other => d.keys other

def askObject (s : Settings) (receiver : Proxy) (suffix : String) (step : Option LineageId) :
    Job F Proxy := do
  match ← call s receiver ⟨suffix, .handle⟩ step with
  | .pending pending => pure pending.proxy
  | .resolved (.handle key) => pure (.resolved key)
  | .resolved other => d.object other

def read (reading : Reading) (outcome : Outcome) : Job F Answer :=
  let value (v : Json) : Job F Answer :=
    ExceptT.mk (pure ((reading.ofValue v).mapError fun cause => .transport (.malformed cause)))
  match reading, outcome with
  | .object, .handle key => pure (.object (.resolved key))
  | .object, other => d.answer .object other
  | .optionalObject, .handle key => pure (.optionalObject (some (.resolved key)))
  | .optionalObject, .absent => pure (.optionalObject none)
  | .optionalObject, other => d.answer .optionalObject other
  | .objects, .value v =>
    match d.keysOf v with
    | .ok keys => pure (.objects (keys.map .resolved))
    | .error fault => throw (.transport fault)
  | .objects, other => d.answer .objects other
  | _, .value v => value v
  | _, .absent => value .null
  | other, .handle key => d.answer other (.handle key)

def ask (s : Settings) (receiver : Proxy) (q : Query) (step : Option LineageId) : Job F Answer :=
  if q.reading = .object then do
    pure (.object (← d.askObject s receiver q.suffix step))
  else do
    d.read q.reading (← settle s receiver q.operation step)

def materialize (s : Settings) (object : Proxy) (lineage : LineageId) : Job F Proxy := do
  match object with
  | .resolved key => pure (.resolved key)
  | .pending chain =>
    match ← evaluate s chain.source .handle lineage with
    | .handle key => pure (.resolved key)
    | other => d.produced other

def evaluateAs (detour : String → Job F α) (s : Settings) (expression : String)
    (shape : ResultShape) (lineage : LineageId) (read : Json → Except Fault α) : Job F α := do
  match ← evaluate s expression shape lineage with
  | .value v => ExceptT.mk (pure (read v))
  | .absent => ExceptT.mk (pure (read .null))
  | .handle key => detour key

def windows (s : Settings) (lineage : LineageId) : Job F (List Proxy) := do
  let keys ← evaluateAs d.listed s (s.hostModule ++ ".windows()") .handleList lineage fun v =>
    (d.keysOf v).mapError .transport
  pure (keys.map .resolved)

def releaseHandles (s : Settings) (lineage : LineageId) : Job F Nat := do
  let keys ← Job.drain
  if keys.isEmpty then pure 0
  else
    tryCatch (evaluateAs d.counted s (Program.releaseExpression s keys) .value lineage
      readReleaseCount) fun fault => do
        Job.restore keys
        throw fault

/-! ### No detour is taken -/

theorem keysOf_array (items : List Json) : d.keysOf (.array items) = handleKeys (.array items) := rfl

theorem askObject_eq (s : Settings) (receiver : Proxy) (suffix : String) (step : Option LineageId) :
    d.askObject s receiver suffix step = RemoteHost.askObject s receiver suffix step := by
  apply Job.andThen_congr
  intro talk answer hleads
  cases answer with
  | pending pending => rfl
  | resolved outcome =>
    rcases (endsBy_call s receiver ⟨suffix, .handle⟩ step _ _ hleads).of_ok rfl with
      hpending | ⟨_, found, -, -, hfits, hfound⟩
    · cases hpending
    · cases hfound
      obtain ⟨key, rfl⟩ := handle_of_fits hfits
      rfl

theorem read_eq {reading : Reading} (h : reading.shape.fits outcome = true) :
    d.read reading outcome = ExceptT.mk (pure (reading.ofOutcome outcome)) := by
  cases reading with
  | objects =>
    obtain ⟨items, rfl⟩ := list_of_fits h
    rw [read, keysOf_array, Reading.ofOutcome]
    cases handleKeys (.array items) <;> rfl
  | object =>
    obtain ⟨key, rfl⟩ := handle_of_fits h
    rfl
  | optionalObject =>
    cases outcome with
    | handle | absent => rfl
    | value => cases h
  | _ =>
    cases outcome with
    | handle => cases h
    | value | absent => rfl

theorem ask_eq (s : Settings) (receiver : Proxy) (q : Query) (step : Option LineageId) :
    d.ask s receiver q step = q.ask s receiver step := by
  unfold ask Query.ask
  split
  · rw [askObject_eq]
  · exact (endsBy_settle s receiver q.operation step).andThen_congr fun _ hfits => d.read_eq hfits

theorem materialize_eq (s : Settings) (object : Proxy) (lineage : LineageId) :
    d.materialize s object lineage = RemoteHost.materialize s object lineage := by
  cases object with
  | resolved key => rfl
  | pending chain =>
    apply (endsBy_evaluate s chain.source .handle lineage).andThen_congr
    intro outcome hfits
    obtain ⟨key, rfl⟩ := handle_of_fits hfits
    rfl

/-- A value is never read from a handle if the shape lets no handle through. -/
theorem evaluateAs_eq (detour : String → Job F α) (s : Settings) (expression : String)
    {shape : ResultShape} (lineage : LineageId) {read : Json → Except Fault α}
    (read' : Json → Except Fault α) (hread : ∀ outcome, shape.fits outcome = true →
      (∀ key, outcome ≠ .handle key) ∧ (∀ v, outcome = .value v → read v = read' v) ∧
        (outcome = .absent → read .null = read' .null)) :
    evaluateAs detour s expression shape lineage read =
      RemoteHost.evaluateAs s expression shape lineage read' := by
  apply (endsBy_evaluate s expression shape lineage).andThen_congr
  intro outcome hfits
  obtain ⟨hhandle, hvalue, habsent⟩ := hread outcome hfits
  cases outcome with
  | value v => exact congrArg (fun r => ExceptT.mk (pure r)) (hvalue v rfl)
  | absent => exact congrArg (fun r => ExceptT.mk (pure r)) (habsent rfl)
  | handle key => exact absurd rfl (hhandle key)

theorem windows_eq (s : Settings) (lineage : LineageId) :
    d.windows s lineage = RemoteHost.windows s lineage := by
  unfold windows RemoteHost.windows
  rw [evaluateAs_eq _ _ _ _ fun v => (handleKeys v).mapError .transport]
  intro outcome hfits
  obtain ⟨items, rfl⟩ := list_of_fits hfits
  refine ⟨nofun, ?_, nofun⟩
  rintro v ⟨⟩
  rfl

theorem releaseHandles_eq (s : Settings) (lineage : LineageId) :
    d.releaseHandles s lineage = RemoteHost.releaseHandles s lineage := by
  have hcounted (keys : List String) :
      evaluateAs d.counted s (Program.releaseExpression s keys) .value lineage readReleaseCount =
        RemoteHost.evaluateAs s (Program.releaseExpression s keys) .value lineage
          readReleaseCount := by
    apply evaluateAs_eq
    intro outcome hfits
    refine ⟨?_, fun _ _ => rfl, fun _ => rfl⟩
    rintro key rfl
    cases hfits
  unfold releaseHandles RemoteHost.releaseHandles
  simp only [hcounted]

/-! ### The arms stand where the library has them -/

theorem keysOf_asWritten (v : Json) : (asWritten : Detours F).keysOf v = handleKeys v := by
  cases v <;> rfl

/-- For every outcome, also for one that no declared shape lets through. -/
theorem read_asWritten (reading : Reading) (outcome : Outcome) :
    (asWritten : Detours F).read reading outcome =
      ExceptT.mk (pure (reading.ofOutcome outcome)) := by
  cases reading with
  | objects =>
    cases outcome with
    | value v =>
      simp only [read, keysOf_asWritten, Reading.ofOutcome]
      cases handleKeys v <;> rfl
    | handle | absent => rfl
  | _ => cases outcome <;> rfl

theorem askObject_asWritten (s : Settings) (receiver : Proxy) (suffix : String)
    (step : Option LineageId) : (asWritten : Detours F).askObject s receiver suffix step =
      RemoteHost.askObject s receiver suffix step := rfl

theorem materialize_asWritten (s : Settings) (object : Proxy) (lineage : LineageId) :
    (asWritten : Detours F).materialize s object lineage =
      RemoteHost.materialize s object lineage := rfl

theorem evaluateAs_asWritten (s : Settings) (expression : String) (shape : ResultShape)
    (lineage : LineageId) (read : Json → Except Fault α) :
    evaluateAs (F := F) (fun _ => throw (.transport (.unexpectedKind shape .handle))) s expression
      shape lineage read = RemoteHost.evaluateAs s expression shape lineage read := rfl

end Detours

/-! ## Kinds in faults and results -/

/-- What an outcome answers to a query. -/
inductive Reading.Takes : Reading → Outcome → Answer → Prop
  | object (key : String) : Takes .object (.handle key) (.object (.resolved key))
  | found (key : String) :
    Takes .optionalObject (.handle key) (.optionalObject (some (.resolved key)))
  | missing : Takes .optionalObject .absent (.optionalObject none)
  | objects (keys : List String) :
    Takes .objects (.value (.array (keys.map .string))) (.objects (keys.map .resolved))
  | value {reading : Reading} {v : Json} {answer : Answer} (hshape : reading.shape = .value)
    (h : reading.ofValue v = .ok answer) : Takes reading (.value v) answer
  | null {reading : Reading} {answer : Answer} (hshape : reading.shape = .value)
    (h : reading.ofValue .null = .ok answer) : Takes reading .absent answer

/-- A reading of outcomes that fit the shape: it takes some, and what it has against the others is
not their kind. -/
structure ReadsKinds (shape : ResultShape) (read : Outcome → Except Fault α)
    (takes : Outcome → α → Prop) : Prop where
  takes : ∀ outcome a, shape.fits outcome = true → (read outcome = .ok a ↔ takes outcome a)
  blames : ∀ outcome expected found, shape.fits outcome = true →
    read outcome ≠ .error (.transport (.unexpectedKind expected found))

/-- A job makes nothing of a reply that its shape does not let through. A fault about a kind comes
from the way to the host, or it names the declared shape and the kind of the outcome that was
received and does not fit it; and the program asked for that very shape. A success takes the outcome
that was received as what it is. -/
structure Job.KeepsKinds (s : Settings) (shape : ResultShape) (takes : Outcome → α → Prop)
    (job : Job F α) : Prop where
  faults : ∀ (talk : Talk F) expected found,
    job.run.Leads talk (.done (.error (.transport (.unexpectedKind expected found)))) →
      ⟨.collect, .error (.unexpectedKind expected found)⟩ ∈ talk ∨
      expected = shape ∧ ∃ reply outcome, ⟨.collect, .ok reply⟩ ∈ talk ∧
        Spells reply (.ofOutcome outcome) ∧ shape.fits outcome = false ∧ found = outcome.kind
  programs : ∀ (talk : Talk F) result program, job.run.Leads talk (.done result) →
    ⟨.submit program, ()⟩ ∈ talk → ∃ expression, program = Program.enveloped s expression shape
  takes : ∀ (talk : Talk F) result reply, job.run.Leads talk (.done result) →
    ⟨.collect, .ok reply⟩ ∈ talk → ∀ a, result = .ok a ↔
      ∃ outcome, Spells reply (.ofOutcome outcome) ∧ shape.fits outcome = true ∧ takes outcome a

section KeepsKinds

variable {spared : α → Prop} {read : Outcome → Except Fault α} {takes : Outcome → α → Prop}

theorem Job.EndsBy.keepsKinds {job : Job F α} (h : job.EndsBy s shape spared read)
    (hread : ReadsKinds shape read takes) : job.KeepsKinds s shape takes where
  faults talk expected found hleads := by
    generalize hresult :
      (.error (.transport (.unexpectedKind expected found)) : Except Fault α) = result at hleads
    cases h _ _ hleads with
    | misused | spared => cases hresult
    | evaluated hquiet htalk =>
      cases htalk with
      | refused => cases hresult
      | answered answer =>
        have hanswer {quiet : Talk F} {expression : String} {lineage : LineageId} :
            ⟨.collect, answer⟩ ∈ quiet ++ Talk.answered s expression shape lineage answer :=
          List.mem_append_right _ (Talk.collect_mem_answered.mpr rfl)
        have hreads := shape.reads_comesTo answer
        generalize shape.comesTo answer = middle at hreads hresult
        cases hreads with
        | accepted hspells hfits => exact absurd hresult.symm (hread.blames _ _ _ hfits)
        | unfit hspells hfits =>
          cases hresult
          exact .inr ⟨rfl, _, _, hanswer, hspells, hfits, rfl⟩
        | remote | malformed => cases hresult
        | broken fault =>
          cases hresult
          exact .inl hanswer
  programs talk result program hleads hprogram := by
    have hloud {quiet : Talk F} (hquiet : quiet.IsQuiet) : ⟨.submit program, ()⟩ ∉ quiet :=
      fun hmem => Bool.false_ne_true (hquiet _ hmem)
    cases h _ _ hleads with
    | misused hquiet | spared hquiet => exact absurd hprogram (hloud hquiet)
    | @evaluated _ _ expression _ _ hquiet htalk =>
      have hlater := (List.mem_append.mp hprogram).resolve_left (hloud hquiet)
      cases htalk with
      | refused => cases List.mem_singleton.mp hlater
      | answered answer => exact ⟨expression, Talk.submit_mem_answered.mp hlater⟩
  takes talk result reply hleads hreply a := by
    rw [h.eq_ok_iff hleads hreply]
    exact exists_congr fun outcome => and_congr_right fun _ =>
      and_congr_right fun hfits => hread.takes outcome a hfits

/-! ### The readings -/

theorem mapError_eq_ok {ε δ : Type} {x : Except ε α} {f : ε → δ} {a : α} :
    x.mapError f = .ok a ↔ x = .ok a := by
  cases x <;> simp [Except.mapError]

theorem malformed_ne_unexpectedKind {x : Except Malformation α} {expected : ResultShape}
    {found : Kind} : x.mapError (fun cause => Fault.transport (.malformed cause)) ≠
      .error (.transport (.unexpectedKind expected found)) := by
  cases x <;> rintro ⟨⟩

/-- Whatever is read from values is read from values and from nothing at all. -/
theorem readsKinds_value {reading : Reading} (hshape : reading.shape = .value)
    (hvalue : ∀ v, reading.ofOutcome (.value v) =
      (reading.ofValue v).mapError fun cause => .transport (.malformed cause))
    (habsent : reading.ofOutcome .absent =
      (reading.ofValue .null).mapError fun cause => .transport (.malformed cause)) :
    ReadsKinds .value reading.ofOutcome reading.Takes where
  takes outcome answer hfits := by
    cases outcome with
    | handle key => cases hfits
    | value v =>
      rw [hvalue, mapError_eq_ok]
      refine ⟨.value hshape, fun htakes => ?_⟩
      cases htakes with
      | objects => cases hshape
      | value _ h => exact h
    | absent =>
      rw [habsent, mapError_eq_ok]
      refine ⟨.null hshape, fun htakes => ?_⟩
      cases htakes with
      | missing => cases hshape
      | null _ h => exact h
  blames outcome expected found hfits := by
    cases outcome with
    | handle key => cases hfits
    | value v =>
      rw [hvalue]
      exact malformed_ne_unexpectedKind
    | absent =>
      rw [habsent]
      exact malformed_ne_unexpectedKind

/-- An object is read from a handle. -/
def IsObject (outcome : Outcome) (object : Proxy) : Prop :=
  ∃ key, outcome = .handle key ∧ object = .resolved key

theorem readsKinds_objectOf : ReadsKinds .handle objectOf IsObject where
  takes outcome object hfits := by
    obtain ⟨key, rfl⟩ := handle_of_fits hfits
    constructor
    · rintro ⟨⟩
      exact ⟨key, rfl, rfl⟩
    · rintro ⟨_, ⟨⟩, rfl⟩
      rfl
  blames outcome expected found hfits := by
    obtain ⟨key, rfl⟩ := handle_of_fits hfits
    exact nofun

/-- A list is read as keys, or what is wrong with it is not its kind. -/
theorem handleKeys_ne_unexpectedKind {items : List Json} {expected : ResultShape} {found : Kind} :
    handleKeys (.array items) ≠ .error (.unexpectedKind expected found) := by
  induction items with
  | nil => exact nofun
  | cons item items ih =>
    cases item with
    | string key =>
      rw [handleKeys_cons_string]
      cases hkeys : handleKeys (.array items) with
      | ok keys => exact nofun
      | error fault =>
        rintro ⟨⟩
        exact ih hkeys
    | _ =>
      rw [handleKeys_cons_other (by rintro key ⟨⟩)]
      exact nofun

/-- Objects are read from a list of strings. -/
def AreObjects (outcome : Outcome) (objects : List Proxy) : Prop :=
  ∃ keys : List String, outcome = .value (.array (keys.map .string)) ∧
    objects = keys.map .resolved

/-- Where keys are read from a list, objects are read from strings. -/
theorem ReadsList.readsKinds {present : List Proxy → α} {read : Outcome → Except Fault α}
    (hread : ReadsList present read) : ReadsKinds .handleList read fun outcome a =>
      ∃ objects, AreObjects outcome objects ∧ a = present objects where
  takes outcome a hfits := by
    obtain ⟨items, rfl⟩ := list_of_fits hfits
    rw [hread.eq_ok_iff]
    constructor
    · rintro ⟨keys, hitems, rfl⟩
      exact ⟨_, ⟨keys, congrArg _ hitems, rfl⟩, rfl⟩
    · rintro ⟨_, ⟨keys, hitems, rfl⟩, rfl⟩
      exact ⟨keys, Outcome.value.inj hitems, rfl⟩
  blames outcome expected found hfits := by
    obtain ⟨items, rfl⟩ := list_of_fits hfits
    rw [hread]
    cases hkeys : handleKeys (.array items) with
    | ok keys => exact nofun
    | error fault =>
      rintro ⟨⟩
      exact handleKeys_ne_unexpectedKind hkeys

theorem ReadsKinds.congr {read : Outcome → Except Fault α} {takes takes' : Outcome → α → Prop}
    (h : ReadsKinds shape read takes)
    (hsame : ∀ outcome a, shape.fits outcome = true → (takes outcome a ↔ takes' outcome a)) :
    ReadsKinds shape read takes' where
  takes outcome a hfits := (h.takes outcome a hfits).trans (hsame outcome a hfits)
  blames := h.blames

theorem readsKinds_ofOutcome (reading : Reading) :
    ReadsKinds reading.shape reading.ofOutcome reading.Takes := by
  cases reading with
  | object =>
    refine ⟨fun outcome answer hfits => ?_, fun outcome expected found hfits => ?_⟩
    · obtain ⟨key, rfl⟩ := handle_of_fits hfits
      constructor
      · rintro ⟨⟩
        exact .object key
      · rintro ⟨⟩
        rfl
    · obtain ⟨key, rfl⟩ := handle_of_fits hfits
      exact nofun
  | optionalObject =>
    refine ⟨fun outcome answer hfits => ?_, fun outcome expected found hfits => ?_⟩
    · cases outcome with
      | handle key =>
        constructor
        · rintro ⟨⟩
          exact .found key
        · rintro ⟨⟩
          rfl
      | absent =>
        constructor
        · rintro ⟨⟩
          exact .missing
        · intro htakes
          cases htakes with
          | missing => rfl
          | null hshape => cases hshape
      | value v => cases hfits
    · cases outcome with
      | handle | absent => exact nofun
      | value v => cases hfits
  | objects =>
    have hread : ReadsList .objects Reading.objects.ofOutcome := fun _ => rfl
    refine hread.readsKinds.congr ?_
    intro outcome answer hfits
    constructor
    · rintro ⟨_, ⟨keys, rfl, rfl⟩, rfl⟩
      exact .objects keys
    · intro htakes
      cases htakes with
      | objects keys => exact ⟨_, ⟨keys, rfl, rfl⟩, rfl⟩
      | value hshape | null hshape => cases hshape
  | _ => exact readsKinds_value rfl (fun _ => rfl) rfl

/-- The count of a release is read from a number. -/
theorem readsKinds_count : ReadsKinds .value (readAs .value readReleaseCount)
    fun outcome n => ∃ v, outcome = .value v ∧ v.nat? = some n where
  takes outcome n hfits := by
    cases outcome with
    | handle key => cases hfits
    | absent =>
      constructor
      · exact nofun
      · rintro ⟨v, ⟨⟩, -⟩
    | value v =>
      simp only [readAs, readReleaseCount, Outcome.value.injEq, exists_eq_left']
      cases v.nat? <;> simp
  blames outcome expected found hfits := by
    cases outcome with
    | handle key => cases hfits
    | absent => exact nofun
    | value v =>
      simp only [readAs, readReleaseCount]
      cases v.nat? <;> exact nofun

end KeepsKinds

/-- The shapes for which an outcome of its kind can be taken. -/
def Outcome.shapes : Outcome → List ResultShape
  | .handle _ => [.handle, .optionalHandle]
  | .value _ => [.value, .handleList]
  | .absent => [.value, .optionalHandle]

theorem Reading.shape_mem_of_takes {reading : Reading} {answer : Answer}
    (h : reading.Takes outcome answer) : reading.shape ∈ outcome.shapes := by
  cases h with
  | object | found | missing | objects => simp [Reading.shape, Outcome.shapes]
  | value hshape | null hshape => simp [hshape, Outcome.shapes]

/-- The arms for kinds that a declared shape rules out are dead: whatever stands in them, queries,
the window of a command, the production of pending objects, the list of windows and releases do the
same. So a fault about a kind names the declared shape, which the program asked for, and the kind
that was received and does not fit it; an outcome is taken for what it is, a handle for an object
and a value for a value; and nothing at all is taken only where a value or an optional object was
asked for. -/
theorem kinds_are_never_coerced (s : Settings) :
    (∀ d : Detours F,
      (∀ receiver q step, d.ask s receiver q step = q.ask s receiver step) ∧
      (∀ command lineage, d.askObject s (.resolved command) (Operation.member "window").suffix
        (some lineage) = commandWindow s command lineage) ∧
      (∀ object lineage, d.materialize s object lineage = materialize s object lineage) ∧
      (∀ lineage, d.windows s lineage = windows s lineage) ∧
      ∀ lineage, d.releaseHandles s lineage = releaseHandles s lineage) ∧
    (∀ receiver (q : Query) step,
      (q.ask s receiver step : Job F Answer).KeepsKinds s q.reading.shape q.reading.Takes) ∧
    (∀ command lineage,
      (commandWindow s command lineage : Job F Proxy).KeepsKinds s .handle IsObject) ∧
    (∀ object lineage,
      (materialize s object lineage : Job F Proxy).KeepsKinds s .handle IsObject) ∧
    (∀ lineage, (windows s lineage : Job F (List Proxy)).KeepsKinds s .handleList AreObjects) ∧
    (∀ keys lineage, (evaluateAs s (Program.releaseExpression s keys) .value lineage
      readReleaseCount : Job F Nat).KeepsKinds s .value
        fun outcome n => ∃ v, outcome = .value v ∧ v.nat? = some n) ∧
    ∀ (reading : Reading) outcome answer, reading.Takes outcome answer →
      reading.shape ∈ outcome.shapes := by
  refine ⟨fun d => ⟨d.ask_eq s, fun command lineage => d.askObject_eq s _ _ _, d.materialize_eq s,
    d.windows_eq s, d.releaseHandles_eq s⟩, ?_, ?_, ?_, ?_, ?_, fun _ _ _ => Reading.shape_mem_of_takes⟩
  · exact fun receiver q step =>
      (endsBy_ask s receiver q step).keepsKinds (readsKinds_ofOutcome q.reading)
  · exact fun command lineage =>
      (endsBy_askObject s _ _ _).keepsKinds readsKinds_objectOf
  · exact fun object lineage => (endsBy_materialize s object lineage).keepsKinds readsKinds_objectOf
  · intro lineage
    apply (endsBy_windows s lineage).keepsKinds
    exact readsList_windows.readsKinds.congr fun outcome objects _ => by simp
  · exact fun keys lineage => (endsBy_evaluateAs s _ .value lineage _).keepsKinds readsKinds_count

/-- What is asked for when a stored window is asked for the number of its groups. -/
def groupsTalk (reply : Json) : Talk Unit :=
  ⟨.isReleased "w", false⟩ :: Talk.answered {}
    (Program.handleRef {} "w" ++ (WindowOperation.numGroups.query {}).suffix) .value 0 (.ok reply)

/-- The host gives a handle for a number. The fault names both kinds, and the reply is a handle. -/
theorem handle_for_number :
    let reply := (Envelope.handle "v1").toJson
    let job : Job Unit Answer := (WindowOperation.numGroups.query {}).ask {} (.resolved "w") (some 0)
    job.run.Leads (groupsTalk reply) (.done (.error (.transport (.unexpectedKind .value .handle)))) ∧
      ∃ outcome, Spells reply (.ofOutcome outcome) ∧ ResultShape.value.fits outcome = false ∧
        .handle = outcome.kind := by
  intro reply job
  obtain ⟨-, hqueries, -⟩ := kinds_are_never_coerced (F := Unit) {}
  have hkeeps := hqueries (.resolved "w") (WindowOperation.numGroups.query {}) (some 0)
  have hleads : job.run.Leads (groupsTalk reply)
      (.done (.error (.transport (.unexpectedKind .value .handle)))) :=
    .ask _ (.ask _ (.ask _ (.ask _ (.ask _ (.here _)))))
  have hanswer {answer : Except TransportFault Json}
      (hmem : ⟨.collect, answer⟩ ∈ groupsTalk reply) : answer = .ok reply := by
    rcases List.mem_cons.mp hmem with hlook | hmem
    · cases hlook
    · exact Talk.collect_mem_answered.mp hmem
  refine ⟨hleads, ?_⟩
  rcases hkeeps.faults _ _ _ hleads with hbroken | ⟨-, other, outcome, hreply, hfound⟩
  · cases hanswer hbroken
  · cases hanswer hreply
    exact ⟨outcome, hfound⟩

end RemoteHost
