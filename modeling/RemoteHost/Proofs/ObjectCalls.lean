import RemoteHost.Proofs.ProgramSkeletons
import RemoteHost.Session.Schedule

/-!
# Calls on windows, views and sheets

The calls that a caller can make on an object, with the objects that they give in return. A query
looks at its receiver before it does anything: it is refused if the key of the receiver was released
or if its chain may not grow. Panels do neither.
-/

namespace RemoteHost

variable {F α β γ : Type} {s : Settings}

/-! ## Talks of parts -/

/-- What a routine came to that goes on with the result of another one. -/
theorem Routine.Comes.of_bind {f : α → Routine F β} {routine : Routine F α} {talk : Talk F}
    {b : β} (h : (routine.bind f).Comes talk (some b)) : ∃ a first second,
      routine.Comes first (some a) ∧ (f a).Comes second (some b) ∧ talk = first ++ second := by
  induction routine generalizing talk with
  | done a => exact ⟨a, [], talk, .done a, h, rfl⟩
  | ask request next ih =>
    cases h with
    | ask reply h =>
      obtain ⟨a, first, second, hfirst, hsecond, rfl⟩ := ih reply h
      exact ⟨a, _, second, .ask reply hfirst, hsecond, rfl⟩

/-- A job that went well did so in its first part. -/
theorem Routine.Comes.of_andThen {job : Job F α} {f : α → Job F β} {talk : Talk F} {b : β}
    (h : (job >>= f).run.Comes talk (some (.ok b))) : ∃ a first second,
      job.run.Comes first (some (.ok a)) ∧ (f a).run.Comes second (some (.ok b)) ∧
        talk = first ++ second := by
  obtain ⟨result, first, second, hfirst, hsecond, rfl⟩ := Routine.Comes.of_bind h
  cases result with
  | ok a => exact ⟨a, first, second, hfirst, hsecond, rfl⟩
  | error fault => cases hsecond

/-- A routine does what another one does, goes on with its result, and fails where it does. -/
def Routine.ContinuesFrom (routine : Routine F (Except Fault β))
    (first : Routine F (Except Fault α)) : Prop :=
  ∃ rest, routine = first.bind rest ∧ ∀ fault, rest (.error fault) = .done (.error fault)

namespace Routine

theorem bind_assoc (routine : Routine F α) (f : α → Routine F β) (g : β → Routine F γ) :
    (routine.bind f).bind g = routine.bind fun a => (f a).bind g := by
  induction routine with
  | done a => rfl
  | ask request next ih => exact congrArg (Routine.ask request) (funext ih)

theorem continuesFrom_andThen (job : Job F α) (f : α → Job F β) :
    (job >>= f).run.ContinuesFrom job.run :=
  ⟨_, rfl, fun _ => rfl⟩

theorem ContinuesFrom.trans {third : Routine F (Except Fault γ)}
    {second : Routine F (Except Fault β)} {first : Routine F (Except Fault α)}
    (h : third.ContinuesFrom second) (h' : second.ContinuesFrom first) :
    third.ContinuesFrom first := by
  obtain ⟨rest, rfl, hrest⟩ := h
  obtain ⟨rest', rfl, hrest'⟩ := h'
  refine ⟨_, bind_assoc first rest' rest, fun fault => ?_⟩
  rw [hrest']
  exact hrest fault

theorem ContinuesFrom.failed {routine : Routine F (Except Fault β)} {fault : Fault}
    (h : routine.ContinuesFrom (.done (.error fault : Except Fault α))) :
    routine = .done (.error fault) := by
  obtain ⟨rest, rfl, hrest⟩ := h
  exact hrest fault

end Routine

/-! ## Calls -/

/-- A call on an object. A panel is shown in a lineage, and reports name it by its label. -/
inductive ObjectCall (F : Type) where
  | window (op : WindowOperation)
  | view (op : ViewOperation)
  | sheet (op : SheetOperation)
  | quickPanel (label : String) (lineage : LineageId) (panel : QuickPanel F)
  | inputPanel (label : String) (lineage : LineageId) (panel : InputPanel F)

namespace ObjectCall

def isPanel : ObjectCall F → Bool
  | .quickPanel _ _ _ | .inputPanel _ _ _ => true
  | _ => false

/-- Asks a receiver as part of a call. -/
def asking (s : Settings) (object : Proxy) (step : Option LineageId) (q : Query) :
    Job F (Answer ⊕ Invoked) := do
  let answer ← q.ask s object step
  pure (.inl answer)

/-- What a call does, in a step or without. -/
def job (s : Settings) (object : Proxy) (step : Option LineageId) :
    ObjectCall F → Job F (Answer ⊕ Invoked)
  | .window op => asking s object step (op.query s)
  | .view op => asking s object step op.query
  | .sheet op => asking s object step op.query
  | .quickPanel label lineage panel => do
    let invoked ← panel.present s label object lineage
    pure (.inr invoked)
  | .inputPanel label lineage panel => do
    let invoked ← panel.present s label object lineage
    pure (.inr invoked)

theorem exists_query {call : ObjectCall F} (h : call.isPanel = false) (s : Settings) :
    ∃ q, ∀ object step, call.job s object step = asking s object step q := by
  cases call with
  | window op => exact ⟨op.query s, fun _ _ => rfl⟩
  | view op => exact ⟨op.query, fun _ _ => rfl⟩
  | sheet op => exact ⟨op.query, fun _ _ => rfl⟩
  | quickPanel | inputPanel => cases h

end ObjectCall

/-- A query begins with a call on its receiver. -/
theorem Query.continuesFrom_call (q : Query) (s : Settings) (object : Proxy)
    (step : Option LineageId) : ∃ op, (q.ask s object step : Job F Answer).run.ContinuesFrom
      (call s object op step : Job F Call).run := by
  by_cases hreading : q.reading = .object
  · rw [Query.ask, if_pos hreading]
    exact ⟨_, (Routine.continuesFrom_andThen _ _).trans (Routine.continuesFrom_andThen _ _)⟩
  · rw [Query.ask, if_neg hreading]
    exact ⟨_, (Routine.continuesFrom_andThen _ _).trans (Routine.continuesFrom_andThen _ _)⟩

theorem ObjectCall.continuesFrom_call {objectCall : ObjectCall F}
    (h : objectCall.isPanel = false) (s : Settings) (object : Proxy) (step : Option LineageId) :
    ∃ op, (objectCall.job s object step).run.ContinuesFrom
      (call s object op step : Job F Call).run := by
  obtain ⟨q, hjob⟩ := ObjectCall.exists_query h s
  obtain ⟨op, hcall⟩ := q.continuesFrom_call (F := F) s object step
  rw [hjob]
  exact ⟨op, (Routine.continuesFrom_andThen _ _).trans hcall⟩

/-! ## A panel -/

def fruitPanel : QuickPanel Unit := { items := ["apple", "pear"], onSelect := () }

/-- Functions of slots that return at once. -/
def idle : Behaviour Unit := fun _ _ => .done (.returned (.ok .nothing))

/-- The program that shows the panel at a window when its endpoint has the token `pick`. -/
def fruitProgram (window : Proxy) : String :=
  Program.enveloped {} (window.source {} ++ (Operation.method "show_quick_panel"
    ["['apple', 'pear']", "lambda index: __hostlink_callback('pick', index)", "0", "-1",
      "None"]).suffix) .value

end RemoteHost
