import RemoteHost.Invocation

/-!
# Disciplines of routines

A discipline says what a party may ask for, given what it has done so far, and what it may rely on
in the answers. That a routine keeps to a discipline is shown along its binds, without running it.
-/

namespace RemoteHost

/-- Rules for the requests of one party. What the party has done so far is summed up in a state. -/
structure Discipline (F σ : Type) where
  allows : σ → Request F → Prop
  /-- What the party may rely on in the answer to a request. -/
  expects : σ → (request : Request F) → request.Reply → Prop
  after : σ → (request : Request F) → request.Reply → σ

namespace Discipline

variable {F σ α β : Type} {d : Discipline F σ} {st : σ}

/-- Whatever it is answered, a routine asks only for what it may and ends as it should. -/
def Obeys (d : Discipline F σ) (post : σ → α → Prop) : σ → Routine F α → Prop
  | st, .done a => post st a
  | st, .ask request next => d.allows st request ∧
      ∀ reply, d.expects st request reply → Obeys d post (d.after st request reply) (next reply)

/-- A request that is always allowed and changes nothing. -/
structure Ignores (d : Discipline F σ) (st : σ) (request : Request F) : Prop where
  allows : d.allows st request
  after : ∀ reply, d.after st request reply = st

theorem Obeys.bind {Q : σ → α → Prop} {post : σ → β → Prop} {f : α → Routine F β}
    {routine : Routine F α} (h : d.Obeys Q st routine)
    (hf : ∀ st a, Q st a → d.Obeys post st (f a)) : d.Obeys post st (routine.bind f) := by
  induction routine generalizing st with
  | done a => exact hf st a h
  | ask request next ih => exact ⟨h.1, fun reply he => ih reply (h.2 reply he)⟩

theorem Obeys.mono {Q post : σ → α → Prop} {routine : Routine F α}
    (h : d.Obeys Q st routine) (hpost : ∀ st a, Q st a → post st a) :
    d.Obeys post st routine := by
  induction routine generalizing st with
  | done a => exact hpost st a h
  | ask request next ih => exact ⟨h.1, fun reply he => ih reply (h.2 reply he)⟩

/-! ## Jobs -/

theorem Obeys.andThen {Q : σ → Except Fault α → Prop} {post : σ → Except Fault β → Prop}
    {job : Job F α} {f : α → Job F β} (h : d.Obeys Q st job.run)
    (hok : ∀ st a, Q st (.ok a) → d.Obeys post st (f a).run)
    (herr : ∀ st fault, Q st (.error fault) → post st (.error fault)) :
    d.Obeys post st (job >>= f).run := by
  refine Obeys.bind h fun st result hmid => ?_
  cases result with
  | ok a => exact hok st a hmid
  | error fault => exact herr st fault hmid

theorem Obeys.orElse {Q post : σ → Except Fault α → Prop} {job : Job F α}
    {rescue : Fault → Job F α} (h : d.Obeys Q st job.run)
    (hok : ∀ st a, Q st (.ok a) → post st (.ok a))
    (herr : ∀ st fault, Q st (.error fault) → d.Obeys post st (rescue fault).run) :
    d.Obeys post st (tryCatch job rescue).run := by
  refine Obeys.bind h fun st result hmid => ?_
  cases result with
  | ok a => exact hok st a hmid
  | error fault => exact herr st fault hmid

theorem obeys_ask {request : Request F} {f : request.Reply → Job F β}
    {post : σ → Except Fault β → Prop} :
    d.Obeys post st (Job.ask request >>= f).run ↔ d.allows st request ∧
      ∀ reply, d.expects st request reply →
        d.Obeys post (d.after st request reply) (f reply).run := Iff.rfl

theorem obeys_pure {a : α} {f : α → Job F β} {post : σ → Except Fault β → Prop} :
    d.Obeys post st (pure a >>= f).run ↔ d.Obeys post st (f a).run := Iff.rfl

theorem Ignores.obeys {request : Request F} (h : d.Ignores st request)
    {f : request.Reply → Job F β} {post : σ → Except Fault β → Prop}
    (hf : ∀ reply, d.Obeys post st (f reply).run) :
    d.Obeys post st (Job.ask request >>= f).run := by
  refine obeys_ask.mpr ⟨h.allows, fun reply _ => ?_⟩
  rw [h.after reply]
  exact hf reply

/-! ## Round trips and evaluations -/

/-- A discipline that does not care about round trips of a lineage. -/
structure IgnoresTurns (d : Discipline F σ) (st : σ) : Prop where
  enter : ∀ lineage policy, d.Ignores st (.enter lineage policy)
  submit : ∀ program, d.Ignores st (.submit program)
  collect : d.Ignores st .collect
  complete : ∀ lineage, d.Ignores st (.complete lineage)

/-- A discipline that does not care about the results of round trips either. -/
structure IgnoresRoundTrips (d : Discipline F σ) (st : σ) : Prop extends d.IgnoresTurns st where
  record : ∀ key, d.Ignores st (.record key)

theorem IgnoresTurns.roundTrip (h : d.IgnoresTurns st) (s : Settings)
    (program : String) (lineage : LineageId) :
    d.Obeys (fun st' _ => st' = st) st (roundTrip s program lineage : Job F Json).run := by
  refine Obeys.andThen (Q := fun st' _ => st' = st) ?_ ?_ (fun _ _ h => h)
  · refine (h.enter lineage s.stepConflict).obeys fun reply => ?_
    cases reply <;> rfl
  · rintro _ _ rfl
    refine (h.submit program).obeys fun _ => ?_
    refine h.collect.obeys fun reply => ?_
    refine (h.complete lineage).obeys fun _ => ?_
    cases reply <;> rfl

theorem IgnoresTurns.installPrelude (h : d.IgnoresTurns st) (s : Settings)
    (lineage : LineageId) :
    d.Obeys (fun st' _ => st' = st) st (installPrelude s lineage : Job F Json).run := by
  refine Obeys.andThen (Q := fun st' _ => st' = st) ?_ ?_ (fun _ _ h => h)
  · refine (h.roundTrip s _ lineage).andThen ?_ (fun _ _ h => h)
    rintro _ reply rfl
    cases outcomeOfReply reply <;> rfl
  · rintro _ _ rfl
    rfl

theorem IgnoresRoundTrips.recordAll (h : d.IgnoresRoundTrips st) (keys : List String) :
    d.Obeys (fun st' _ => st' = st) st (recordAll keys : Job F Unit).run := by
  induction keys with
  | nil => rfl
  | cons key keys ih => exact (h.record key).obeys fun _ => ih

theorem IgnoresRoundTrips.evaluate (h : d.IgnoresRoundTrips st) (s : Settings)
    (expression : String) (shape : ResultShape) (lineage : LineageId) :
    d.Obeys (fun st' _ => st' = st) st
      (evaluate s expression shape lineage : Job F Outcome).run := by
  refine (h.roundTrip s _ lineage).andThen ?_ (fun _ _ h => h)
  rintro _ reply rfl
  cases outcomeOfShape shape reply with
  | error fault => rfl
  | ok outcome =>
    refine (h.recordAll _).andThen ?_ (fun _ _ h => h)
    rintro _ _ rfl
    rfl

theorem IgnoresRoundTrips.evaluateAs (h : d.IgnoresRoundTrips st) (s : Settings)
    (expression : String) (shape : ResultShape) (lineage : LineageId)
    (read : Json → Except Fault α) :
    d.Obeys (fun st' _ => st' = st) st
      (evaluateAs s expression shape lineage read : Job F α).run := by
  refine (h.evaluate s expression shape lineage).andThen ?_ (fun _ _ h => h)
  rintro _ outcome rfl
  cases outcome <;> rfl

/-! ## Endpoints and operations -/

/-- A discipline that does not care which endpoints are opened and closed. -/
structure IgnoresEndpoints (d : Discipline F σ) (st : σ) : Prop where
  opening : d.Ignores st .openEndpoint
  closing : ∀ endpoint, d.Ignores st (.closeEndpoint endpoint)

theorem IgnoresEndpoints.closeAll (h : d.IgnoresEndpoints st) (opened : List Opened) :
    d.Obeys (fun st' result => st' = st ∧ result = .ok ()) st
      (closeAll opened : Job F Unit).run := by
  induction opened with
  | nil => exact ⟨rfl, rfl⟩
  | cons first rest ih => exact (h.closing first.endpoint).obeys fun _ => ih

theorem IgnoresEndpoints.openAll (h : d.IgnoresEndpoints st) (opened : List Opened) (count : Nat) :
    d.Obeys (fun st' _ => st' = st) st (openAll opened count : Job F (List Opened)).run := by
  induction count generalizing opened with
  | zero => rfl
  | succ count ih =>
    refine h.opening.obeys fun answer => ?_
    cases answer with
    | ok endpoint => exact ih (opened ++ [endpoint])
    | error fault =>
      refine (h.closeAll opened).andThen ?_ (fun _ _ h => h.1)
      rintro _ _ ⟨rfl, -⟩
      rfl

/-- Where endpoints do not matter, starting an operation is an evaluation and then a launch. -/
theorem IgnoresEndpoints.invoke {s : Settings} {label template : String} {shape : ResultShape}
    {slots : List (Slot F)} {lineage : LineageId} {Q : σ → Except Fault Outcome → Prop}
    {post : σ → Except Fault Invoked → Prop} (h : ∀ st, d.IgnoresEndpoints st)
    (hunsent : ∀ fault, post st (.error fault))
    (hevaluate : ∀ source, d.Obeys Q st (RemoteHost.evaluate s source shape lineage).run)
    (herror : ∀ st fault, Q st (.error fault) → post st (.error fault))
    (hlaunch : ∀ st outcome endpoints, Q st (.ok outcome) →
      d.allows st (.launch label endpoints slots lineage) ∧
      ∀ id : OperationId, post (d.after st (.launch label endpoints slots lineage) id)
        (.ok ⟨id, outcome, endpoints.map (·.token)⟩)) :
    d.Obeys post st (RemoteHost.invoke s label template shape slots lineage).run := by
  unfold RemoteHost.invoke
  split
  · exact hunsent _
  · refine ((h st).openAll [] slots.length).andThen ?_ ?_
    · rintro _ endpoints rfl
      dsimp only
      cases Program.substituteTokens template (endpoints.map (·.token)) with
      | error fault => exact hunsent (.usage fault)
      | ok source =>
        refine obeys_pure.mpr ?_
        refine Obeys.andThen (Q := fun st' result => match result with
          | .ok outcome => Q st' (.ok outcome)
          | .error fault => post st' (.error fault)) ?_ ?_ ?_
        · refine (hevaluate source).orElse (fun _ _ h => h) ?_
          intro st' fault hfault
          refine ((h st').closeAll endpoints).andThen ?_ ?_
          · rintro _ _ ⟨rfl, -⟩
            exact herror _ fault hfault
          · rintro _ _ ⟨-, ⟨⟩⟩
        · intro st' outcome houtcome
          obtain ⟨hallowed, hafter⟩ := hlaunch st' outcome endpoints houtcome
          exact obeys_ask.mpr ⟨hallowed, fun id _ => hafter id⟩
        · exact fun _ _ h => h
    · rintro _ fault rfl
      exact hunsent fault

end Discipline

end RemoteHost
