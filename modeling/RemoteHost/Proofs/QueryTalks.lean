import RemoteHost.Proofs.ChainLimit
import RemoteHost.Proofs.EvaluationTalks
import RemoteHost.Proofs.SingleRoundTrips

/-!
# What calls and queries ask for

A call looks at its receiver and may be refused, it may come back pending, or it makes one evaluation
with the shape that was declared for it. Queries, and whatever else makes one evaluation at most, end
in one of these ways too.
-/

namespace RemoteHost

variable {F α β : Type} {s : Settings} {shape : ResultShape} {talk first second : Talk F}

/-! ## Talks of routines in parts -/

namespace Routine

theorem leads_done {a b : α} :
    (Routine.done a : Routine F α).Leads talk (.done b) ↔ talk = [] ∧ b = a := by
  constructor
  · intro h
    cases h
    exact ⟨rfl, rfl⟩
  · rintro ⟨rfl, rfl⟩
    exact .here _

theorem leads_bind {routine : Routine F α} {f : α → Routine F β} {b : β} :
    (routine.bind f).Leads talk (.done b) ↔ ∃ a first second,
      routine.Leads first (.done a) ∧ (f a).Leads second (.done b) ∧ talk = first ++ second := by
  constructor
  · intro h
    induction routine generalizing talk with
    | done a => exact ⟨a, [], talk, .here _, h, rfl⟩
    | ask request next ih =>
      cases h with
      | ask reply h =>
        obtain ⟨a, first, second, hfirst, hsecond, rfl⟩ := ih reply h
        exact ⟨a, _, second, .ask reply hfirst, hsecond, rfl⟩
  · rintro ⟨a, first, second, hfirst, hsecond, rfl⟩
    generalize hdone : (.done a : Routine F α) = rest at hfirst
    induction hfirst with
    | here =>
      subst hdone
      exact hsecond
    | ask reply hfirst ih => exact .ask reply (ih hdone)

/-- It matters only how a routine goes on from what it can come to. -/
theorem bind_congr {routine : Routine F α} {f g : α → Routine F β}
    (h : ∀ talk a, routine.Leads talk (.done a) → f a = g a) : routine.bind f = routine.bind g := by
  induction routine with
  | done a => exact h [] a (.here _)
  | ask request next ih =>
    apply congrArg (Routine.ask request)
    funext reply
    exact ih reply fun talk a hleads => h _ a (.ask reply hleads)

end Routine

namespace Job

variable {job : Job F α} {f g : α → Job F β} {result : Except Fault β}

theorem leads_andThen : (job >>= f).run.Leads talk (.done result) ↔
    (∃ a first second, job.run.Leads first (.done (.ok a)) ∧
      (f a).run.Leads second (.done result) ∧ talk = first ++ second) ∨
    ∃ fault, job.run.Leads talk (.done (.error fault)) ∧ result = .error fault := by
  refine Routine.leads_bind.trans ⟨?_, ?_⟩
  · rintro ⟨middle, first, second, hfirst, hsecond, rfl⟩
    cases middle with
    | ok a => exact .inl ⟨a, first, second, hfirst, hsecond, rfl⟩
    | error fault =>
      obtain ⟨rfl, rfl⟩ := Routine.leads_done.mp hsecond
      rw [List.append_nil]
      exact .inr ⟨fault, hfirst, rfl⟩
  · rintro (⟨a, first, second, hfirst, hsecond, rfl⟩ | ⟨fault, hfailed, rfl⟩)
    · exact ⟨.ok a, first, second, hfirst, hsecond, rfl⟩
    · exact ⟨.error fault, talk, [], hfailed, .here _, (List.append_nil _).symm⟩

/-- What is done with a result without asking for anything is done at once. -/
theorem leads_andThen_done {middle : Except Fault α} (h : job.run.Leads talk (.done middle))
    {g : α → Except Fault β} (hf : ∀ a, middle = .ok a → (f a).run = .done (g a)) :
    (job >>= f).run.Leads talk (.done (middle.bind g)) := by
  cases middle with
  | error fault => exact leads_andThen.mpr (.inr ⟨fault, h, rfl⟩)
  | ok a =>
    have hdone : (f a).run.Leads ([] : Talk F) (.done (g a)) := by
      rw [hf a rfl]
      exact .here _
    exact leads_andThen.mpr (.inl ⟨a, talk, [], h, hdone, (List.append_nil _).symm⟩)

theorem andThen_congr (h : ∀ talk a, job.run.Leads talk (.done (.ok a)) → f a = g a) :
    job >>= f = job >>= g := by
  apply Routine.bind_congr
  intro talk middle hleads
  cases middle with
  | ok a => exact h talk a hleads
  | error fault => rfl

end Job

/-! ## Endings -/

/-- How a job ends that makes one evaluation at most, of a declared shape: it is misused, it can do
without and spares the evaluation, or it reads what the evaluation comes to. -/
inductive Ends (s : Settings) (shape : ResultShape) (spared : α → Prop)
    (read : Outcome → Except Fault α) : Talk F → Except Fault α → Prop
  | misused {quiet : Talk F} {fault : UsageFault} (hquiet : quiet.IsQuiet) :
    Ends s shape spared read quiet (.error (.usage fault))
  | spared {quiet : Talk F} {a : α} (hquiet : quiet.IsQuiet) (h : spared a) :
    Ends s shape spared read quiet (.ok a)
  | evaluated {quiet talk : Talk F} {expression : String} {lineage : LineageId}
    {result : Except Fault Outcome} (hquiet : quiet.IsQuiet)
    (htalk : EvaluationTalk s expression shape lineage talk result) :
    Ends s shape spared read (quiet ++ talk) (result.bind read)

/-- However it is answered, a job ends in one of these ways. -/
def Job.EndsBy (s : Settings) (shape : ResultShape) (spared : α → Prop)
    (read : Outcome → Except Fault α) (job : Job F α) : Prop :=
  ∀ talk result, job.run.Leads talk (.done result) → Ends s shape spared read talk result

/-- Nothing can be had without an evaluation. -/
abbrev nothing (_ : α) : Prop := False

section Ends

variable {spared : α → Prop} {read : Outcome → Except Fault α} {result : Except Fault α}

theorem Ends.after (h : Ends s shape spared read talk result) {quiet : Talk F}
    (hquiet : quiet.IsQuiet) : Ends s shape spared read (quiet ++ talk) result := by
  cases h with
  | misused hlater => exact .misused (hquiet.append hlater)
  | spared hlater h => exact .spared (hquiet.append hlater) h
  | evaluated hlater htalk =>
    rw [← List.append_assoc]
    exact .evaluated (hquiet.append hlater) htalk

/-- A success was spared the evaluation, or reads an outcome that the reply spells and that fits. -/
theorem Ends.of_ok {a : α} (h : Ends s shape spared read talk result) (hok : result = .ok a) :
    spared a ∨ ∃ reply outcome, ⟨.collect, .ok reply⟩ ∈ talk ∧ Spells reply (.ofOutcome outcome) ∧
      shape.fits outcome = true ∧ read outcome = .ok a := by
  cases h with
  | misused => cases hok
  | spared hquiet h =>
    cases hok
    exact .inl h
  | @evaluated _ _ _ _ middle hquiet htalk =>
    cases middle with
    | error fault => cases hok
    | ok outcome =>
      obtain ⟨reply, hmem, hspells, hfits⟩ := (htalk.eq_ok_iff outcome).mp rfl
      exact .inr ⟨reply, outcome, List.mem_append_right _ hmem, hspells, hfits, hok⟩

theorem not_mem_of_isQuiet {quiet : Talk F} (h : quiet.IsQuiet)
    {answer : Except TransportFault Json} : ⟨.collect, answer⟩ ∉ quiet :=
  fun hmem => Bool.false_ne_true (h _ hmem)

/-- Whoever was answered made its evaluation, and reads what it came to. -/
theorem Ends.of_answer (h : Ends s shape spared read talk result)
    {answer : Except TransportFault Json} (hanswer : ⟨.collect, answer⟩ ∈ talk) :
    ∃ quiet expression lineage, quiet.IsQuiet ∧
      talk = quiet ++ Talk.answered s expression shape lineage answer ∧
      result = (shape.comesTo answer).bind read := by
  cases h with
  | misused hquiet | spared hquiet => exact absurd hanswer (not_mem_of_isQuiet hquiet)
  | @evaluated quiet _ expression lineage _ hquiet htalk =>
    have hlater := (List.mem_append.mp hanswer).resolve_left (not_mem_of_isQuiet hquiet)
    cases htalk with
    | refused fault => cases List.mem_singleton.mp hlater
    | answered other =>
      obtain rfl := Talk.collect_mem_answered.mp hlater
      exact ⟨quiet, expression, lineage, hquiet, rfl, rfl⟩

theorem endsBy_evaluate (s : Settings) (expression : String) (shape : ResultShape)
    (lineage : LineageId) :
    (evaluate s expression shape lineage : Job F Outcome).EndsBy s shape nothing .ok := by
  intro talk result hleads
  have hends : Ends s shape nothing .ok ([] ++ talk) (result.bind .ok) :=
    .evaluated Talk.isQuiet_nil (leads_evaluate.mp hleads)
  have hsame : result.bind .ok = result := by cases result <;> rfl
  rwa [hsame] at hends

variable {job : Job F α} {f : α → Job F β} {spared' : β → Prop} {read' : Outcome → Except Fault β}

/-- What is done with the result of a job that ends so may only read what was evaluated. -/
theorem Job.EndsBy.andThen (h : job.EndsBy s shape spared read)
    (hspared : ∀ a, spared a → (f a).EndsBy s shape spared' read')
    (hread : ∀ outcome a, read outcome = .ok a → (f a).run = .done (read' outcome))
    (hfailed : ∀ outcome fault, read outcome = .error fault → read' outcome = .error fault) :
    (job >>= f).EndsBy s shape spared' read' := by
  intro talk result hleads
  obtain ⟨a, first, second, hfirst, hsecond, rfl⟩ | ⟨fault, hfails, rfl⟩ :=
    Job.leads_andThen.mp hleads
  · have hends := h _ _ hfirst
    generalize hok : (.ok a : Except Fault α) = middle at hends
    cases hends with
    | misused => cases hok
    | spared hquiet hspare =>
      cases hok
      exact (hspared a hspare _ _ hsecond).after hquiet
    | @evaluated _ _ _ _ evaluated hquiet htalk =>
      cases evaluated with
      | error fault => cases hok
      | ok outcome =>
        rw [hread outcome a hok.symm] at hsecond
        obtain ⟨rfl, rfl⟩ := Routine.leads_done.mp hsecond
        rw [List.append_nil]
        exact .evaluated hquiet htalk
  · have hends := h _ _ hfails
    generalize herror : (.error fault : Except Fault α) = middle at hends
    cases hends with
    | misused hquiet =>
      cases herror
      exact .misused hquiet
    | spared => cases herror
    | @evaluated _ _ _ _ evaluated hquiet htalk =>
      cases evaluated with
      | error other =>
        cases herror
        exact .evaluated hquiet htalk
      | ok outcome =>
        rw [← hfailed outcome fault herror.symm]
        exact .evaluated hquiet htalk

/-- An outcome that cannot be had without the evaluation may be read at once. -/
theorem Job.EndsBy.andRead {job : Job F Outcome} {f : Outcome → Job F β}
    (h : job.EndsBy s shape nothing .ok)
    (hread : ∀ outcome, (f outcome).run = .done (read' outcome)) :
    (job >>= f).EndsBy s shape spared' read' := by
  apply h.andThen
  · exact fun _ hnothing => hnothing.elim
  · rintro outcome _ ⟨⟩
    exact hread outcome
  · intro outcome fault hfailed
    cases hfailed

/-- What was made of a reply is what is read from the outcome that the reply spells. -/
theorem Job.EndsBy.eq_ok_iff (h : job.EndsBy s shape spared read)
    (hleads : job.run.Leads talk (.done result)) {reply : Json}
    (hreply : ⟨.collect, .ok reply⟩ ∈ talk) (a : α) : result = .ok a ↔
      ∃ outcome, Spells reply (.ofOutcome outcome) ∧ shape.fits outcome = true ∧
        read outcome = .ok a := by
  obtain ⟨_, _, _, -, -, rfl⟩ := (h _ _ hleads).of_answer hreply
  constructor
  · intro hok
    cases hcomes : shape.comesTo (.ok reply) with
    | error fault =>
      rw [hcomes] at hok
      cases hok
    | ok outcome =>
      obtain ⟨spelled, ⟨⟩, hspells, hfits⟩ := ResultShape.comesTo_eq_ok.mp hcomes
      rw [hcomes] at hok
      exact ⟨outcome, hspells, hfits, hok⟩
  · rintro ⟨outcome, hspells, hfits, hok⟩
    rw [ResultShape.comesTo_eq_ok.mpr ⟨reply, rfl, hspells, hfits⟩]
    exact hok

end Ends

/-! ## Calls -/

section Calls

variable {spared : β → Prop} {read : Outcome → Except Fault β}

theorem endsBy_throw (fault : UsageFault) :
    (throw (.usage fault) : Job F β).EndsBy s shape spared read := by
  intro talk result hleads
  obtain ⟨rfl, rfl⟩ := Routine.leads_done.mp hleads
  exact .misused Talk.isQuiet_nil

theorem endsBy_pure {b : β} (h : spared b) : (pure b : Job F β).EndsBy s shape spared read := by
  intro talk result hleads
  obtain ⟨rfl, rfl⟩ := Routine.leads_done.mp hleads
  exact .spared Talk.isQuiet_nil h

/-- A look at the receiver comes before everything else. -/
theorem endsBy_refuseReleased {job : Job F β} (h : job.EndsBy s shape spared read)
    (receiver : Proxy) : (refuseReleased receiver >>= fun _ => job).EndsBy s shape spared read := by
  cases receiver with
  | pending chain => exact h
  | resolved key =>
    intro talk result hleads
    have hquiet (answer : Bool) :
        Talk.IsQuiet [(⟨.isReleased key, answer⟩ : (r : Request F) × r.Reply)] :=
      Talk.isQuiet_singleton rfl
    cases hleads with
    | ask answer hleads =>
      cases answer with
      | true =>
        obtain ⟨rfl, rfl⟩ := Routine.leads_done.mp hleads
        exact .misused (hquiet true)
      | false => exact (h _ _ hleads).after (hquiet false)

theorem endsBy_call (s : Settings) (receiver : Proxy) (op : Operation) (step : Option LineageId) :
    (call s receiver op step : Job F Call).EndsBy s op.shape
      (fun c => c = .pending (deferredCall s receiver op)) (fun outcome => .ok (.resolved outcome)) := by
  apply endsBy_refuseReleased
  cases hdispatch : dispatch s receiver op step with
  | error fault => exact endsBy_throw fault
  | ok dispatched =>
    cases dispatched with
    | deferred pending =>
      obtain rfl := defer_eq_ok (defer_of_dispatch hdispatch)
      exact endsBy_pure rfl
    | eager source lineage =>
      exact (endsBy_evaluate s source op.shape lineage).andRead fun _ => rfl

theorem endsBy_resolve (s : Settings) (pending : PendingCall) (step : Option LineageId) :
    (pending.resolve s step : Job F Outcome).EndsBy s pending.shape nothing .ok := by
  cases step with
  | some lineage => exact endsBy_evaluate s pending.source pending.shape lineage
  | none =>
    unfold PendingCall.resolve
    dsimp only
    split
    · intro talk result hleads
      cases hleads with
      | ask lineage hleads =>
        exact (endsBy_evaluate s _ _ lineage _ _ hleads).after (Talk.isQuiet_singleton rfl)
    · exact endsBy_throw _

/-- The outcome of an operation has the shape that was declared for it, on either way. -/
theorem endsBy_settle (s : Settings) (receiver : Proxy) (op : Operation)
    (step : Option LineageId) :
    (settle s receiver op step : Job F Outcome).EndsBy s op.shape nothing .ok := by
  apply (endsBy_call s receiver op step).andThen
  · rintro _ rfl
    exact endsBy_resolve s (deferredCall s receiver op) step
  · rintro outcome _ ⟨⟩
    rfl
  · exact nofun

/-! ## Operations that are sent -/

/-- An operation is sent if it can be dispatched and there is a lineage to run it in: that of a step,
or one of its own for a stored receiver. -/
structure Operation.IsSent (s : Settings) (receiver : Proxy) (op : Operation)
    (step : Option LineageId) : Prop where
  dispatched : ∃ way, dispatch s receiver op step = .ok way
  placed : receiver.isResolved = true ∨ step.isSome = true

theorem exists_leads_refuseReleased (receiver : Proxy) : ∃ quiet : Talk F, quiet.IsQuiet ∧
    (refuseReleased receiver : Job F Unit).run.Leads quiet (.done (.ok ())) := by
  cases receiver with
  | pending chain => exact ⟨[], Talk.isQuiet_nil, .here _⟩
  | resolved key =>
    let unreleased : (r : Request F) × r.Reply := ⟨.isReleased key, false⟩
    exact ⟨[unreleased], Talk.isQuiet_singleton rfl, .ask unreleased.2 (.here _)⟩

theorem exists_leads_resolve {pending : PendingCall} {step : Option LineageId}
    (h : pending.onHandle = true ∨ step.isSome = true) (answer : Except TransportFault Json) :
    ∃ (quiet : Talk F) (expression : String) (lineage : LineageId), quiet.IsQuiet ∧
      (pending.resolve s step).run.Leads
        (quiet ++ Talk.answered s expression pending.shape lineage answer)
        (.done (pending.shape.comesTo answer)) := by
  cases step with
  | some lineage =>
    exact ⟨[], pending.source, lineage, Talk.isQuiet_nil, leads_evaluate.mpr (.answered answer)⟩
  | none =>
    have hstored : pending.onHandle = true := h.resolve_right nofun
    let own : (r : Request F) × r.Reply := ⟨.newLineage "", (0 : LineageId)⟩
    refine ⟨[own], pending.source, own.2, Talk.isQuiet_singleton rfl, ?_⟩
    unfold PendingCall.resolve
    simp only [hstored, if_true]
    exact .ask _ (leads_evaluate.mpr (.answered answer))

/-- Whatever the host answers, an operation that is sent can be answered so. -/
theorem exists_leads_settle {receiver : Proxy} {op : Operation} {step : Option LineageId}
    (h : op.IsSent s receiver step) (answer : Except TransportFault Json) :
    ∃ (quiet : Talk F) (expression : String) (lineage : LineageId), quiet.IsQuiet ∧
      (settle s receiver op step).run.Leads
        (quiet ++ Talk.answered s expression op.shape lineage answer)
        (.done (op.shape.comesTo answer)) := by
  obtain ⟨looked, hlooked, hleads⟩ := exists_leads_refuseReleased (F := F) receiver
  obtain ⟨way, hway⟩ := h.dispatched
  cases way with
  | eager source lineage =>
    have hevaluated : (evaluate s source op.shape lineage : Job F Outcome).run.Leads
        (Talk.answered s source op.shape lineage answer) (.done (op.shape.comesTo answer)) :=
      leads_evaluate.mpr (.answered answer)
    have hresolved : (call s receiver op step).run.Leads
        (looked ++ Talk.answered s source op.shape lineage answer)
        (.done ((op.shape.comesTo answer).bind fun outcome => .ok (.resolved outcome))) := by
      refine Job.leads_andThen.mpr (.inl ⟨(), looked, _, hleads, ?_, rfl⟩)
      rw [hway]
      exact Job.leads_andThen_done hevaluated fun _ _ => rfl
    refine ⟨looked, source, lineage, hlooked, ?_⟩
    cases hcomes : op.shape.comesTo answer with
    | error fault =>
      rw [hcomes] at hresolved
      exact Job.leads_andThen.mpr (.inr ⟨fault, hresolved, rfl⟩)
    | ok outcome =>
      rw [hcomes] at hresolved
      exact Job.leads_andThen.mpr
        (.inl ⟨.resolved outcome, _, [], hresolved, .here _, (List.append_nil _).symm⟩)
  | deferred pending =>
    obtain rfl := defer_eq_ok (defer_of_dispatch hway)
    have hplaced : (deferredCall s receiver op).onHandle = true ∨ step.isSome = true := h.placed
    obtain ⟨quiet, expression, lineage, hquiet, hresolve⟩ :=
      exists_leads_resolve (F := F) (s := s) hplaced answer
    have hpending : (call s receiver op step).run.Leads looked
        (.done (.ok (.pending (deferredCall s receiver op)))) := by
      refine Job.leads_andThen.mpr (.inl ⟨(), looked, [], hleads, ?_, (List.append_nil _).symm⟩)
      rw [hway]
      exact .here _
    refine ⟨looked ++ quiet, expression, lineage, hlooked.append hquiet, ?_⟩
    rw [List.append_assoc]
    exact Job.leads_andThen.mpr (.inl ⟨_, looked, _, hpending, hresolve, rfl⟩)

/-! ## Queries -/

/-- The object that an outcome stands for. -/
def objectOf : Outcome → Except Fault Proxy
  | .handle key => .ok (.resolved key)
  | other => .error (.transport (.unexpectedKind .handle other.kind))

theorem endsBy_askObject (s : Settings) (receiver : Proxy) (suffix : String)
    (step : Option LineageId) : (askObject s receiver suffix step : Job F Proxy).EndsBy s .handle
      (fun object => object = (deferredCall s receiver ⟨suffix, .handle⟩).proxy) objectOf := by
  apply (endsBy_call s receiver ⟨suffix, .handle⟩ step).andThen
  · rintro _ rfl
    exact endsBy_pure rfl
  · rintro outcome _ ⟨⟩
    cases outcome <;> rfl
  · exact nofun

/-- Only an object can be had without an evaluation, as a pending one. -/
def Query.Spares (s : Settings) (receiver : Proxy) (q : Query) (answer : Answer) : Prop :=
  q.reading = .object ∧ answer = .object (deferredCall s receiver q.operation).proxy

theorem endsBy_ask (s : Settings) (receiver : Proxy) (q : Query) (step : Option LineageId) :
    (q.ask s receiver step : Job F Answer).EndsBy s q.reading.shape (q.Spares s receiver)
      q.reading.ofOutcome := by
  by_cases hreading : q.reading = .object
  · rw [Query.ask, if_pos hreading, hreading]
    apply (endsBy_askObject s receiver q.suffix step).andThen
    · rintro _ rfl
      refine endsBy_pure ⟨hreading, ?_⟩
      rw [Query.operation, hreading]
      rfl
    · intro outcome object h
      cases outcome with
      | handle key =>
        cases h
        rfl
      | value | absent => cases h
    · intro outcome fault h
      cases outcome with
      | handle key => cases h
      | value | absent =>
        cases h
        rfl
  · rw [Query.ask, if_neg hreading]
    exact (endsBy_settle s receiver q.operation step).andRead fun _ => rfl

end Calls

/-! ## Readings of whole outcomes -/

/-- What is read where a value is expected; nothing at all reads as null. -/
def readAs (shape : ResultShape) (read : Json → Except Fault α) : Outcome → Except Fault α
  | .value v => read v
  | .absent => read .null
  | .handle _ => .error (.transport (.unexpectedKind shape .handle))

theorem endsBy_evaluateAs (s : Settings) (expression : String) (shape : ResultShape)
    (lineage : LineageId) (read : Json → Except Fault α) :
    (evaluateAs s expression shape lineage read : Job F α).EndsBy s shape nothing
      (readAs shape read) := by
  apply (endsBy_evaluate s expression shape lineage).andRead
  intro outcome
  cases outcome <;> rfl

theorem endsBy_materialize (s : Settings) (object : Proxy) (lineage : LineageId) :
    (materialize s object lineage : Job F Proxy).EndsBy s .handle
      (fun produced => object.isResolved = true ∧ produced = object) objectOf := by
  cases object with
  | resolved key => exact endsBy_pure ⟨rfl, rfl⟩
  | pending chain =>
    apply (endsBy_evaluate s chain.source .handle lineage).andRead
    intro outcome
    cases outcome <;> rfl

end RemoteHost
