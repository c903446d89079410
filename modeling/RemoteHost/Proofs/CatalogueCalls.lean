import RemoteHost.Proofs.CataloguePrograms

/-!
# What calls of the catalogue send

Whatever a session answers, a call sends one program if it goes well, and never another one. It is
sent at once, or when the object that the call gives is resolved. A call that can be made fails
without its program only if it is refused its receiver, its turn or an endpoint.
-/

namespace RemoteHost

variable {F α β : Type} {s : Settings}

/-! ## Sending one program -/

def Request.programs : Request F → List String
  | .submit program => [program]
  | _ => []

def Request.tokens : (request : Request F) → request.Reply → List String
  | .openEndpoint, .ok opened => [opened.token]
  | _, _ => []

/-- The receiver was released, the turn is somebody else's, or there is no endpoint. -/
def Request.refuses : (request : Request F) → request.Reply → Bool
  | .isReleased _, true => true
  | .enter _ _, .error _ => true
  | .openEndpoint, .error _ => true
  | _, _ => false

/-- The tokens of the endpoints that a party opened, the programs that it sent, and whether it was
refused something. -/
structure Sending where
  tokens : List String := []
  programs : List String := []
  refused : Bool := false

/-- A party opens endpoints and then sends one program that their tokens allow. -/
def sending (allowed : List String → String → Prop) : Discipline F Sending where
  allows d
    | .submit program => d.programs = [] ∧ allowed d.tokens program
    | .openEndpoint => d.programs = []
    | _ => True
  expects _ _ _ := True
  after d
    | .submit program, _ => { d with programs := d.programs ++ [program] }
    | .openEndpoint, .ok opened => { d with tokens := d.tokens ++ [opened.token] }
    | .isReleased _, true => { d with refused := true }
    | .enter _ _, .error _ => { d with refused := true }
    | .openEndpoint, .error _ => { d with refused := true }
    | _, _ => d

/-- Whatever goes well goes as it should. Whatever fails, if it was possible at all, was refused
something or had sent its program. -/
def Yields (possible : Prop) (good : Sending → α → Prop) (d : Sending) : Except Fault α → Prop
  | .ok a => good d a
  | .error _ => possible → d.refused = true ∨ d.programs.length = 1

/-- Nothing goes well without a program. -/
def Sent (d : Sending) (_ : α) : Prop := d.programs.length = 1

section

variable {allowed : List String → String → Prop} {d : Sending} {possible : Prop}

theorem Yields.andThen {Q : Sending → α → Prop} {R : Sending → β → Prop} {job : Job F α}
    {f : α → Job F β} (h : (sending allowed).Obeys (Yields possible Q) d job.run)
    (hf : ∀ d a, Q d a → (sending allowed).Obeys (Yields possible R) d (f a).run) :
    (sending allowed).Obeys (Yields possible R) d (job >>= f).run :=
  Discipline.Obeys.andThen h hf fun _ _ hfailed => hfailed

theorem yields_of_sent (h : d.programs.length = 1) (result : Except Fault α) :
    Yields possible Sent d result := by
  cases result with
  | ok a => exact h
  | error fault => exact fun _ => .inr h

theorem sends_recordAll (keys : List String) : (sending allowed).Obeys
    (fun d' _ => d' = d) d (recordAll keys : Job F Unit).run := by
  induction keys with
  | nil => rfl
  | cons key keys ih => exact Discipline.obeys_ask.mpr ⟨trivial, fun _ _ => ih⟩

theorem sends_enter (lineage : LineageId) (policy : ConflictPolicy) : (sending allowed).Obeys
    (Yields possible fun d' _ => d' = d) d (Job.enter lineage policy : Job F Unit).run := by
  refine Discipline.obeys_ask.mpr ⟨trivial, fun answer _ => ?_⟩
  cases answer with
  | ok _ => rfl
  | error fault => exact fun _ => .inl rfl

theorem sends_roundTrip (hnone : d.programs = []) {program : String}
    (hallowed : allowed d.tokens program) (lineage : LineageId) :
    (sending allowed).Obeys (Yields possible Sent) d
      (roundTrip s program lineage : Job F Json).run := by
  refine Yields.andThen (sends_enter lineage s.stepConflict) ?_
  rintro d _ rfl
  refine Discipline.obeys_ask.mpr ⟨⟨hnone, hallowed⟩, fun _ _ => ?_⟩
  refine Discipline.obeys_ask.mpr ⟨trivial, fun answer _ => ?_⟩
  refine Discipline.obeys_ask.mpr ⟨trivial, fun _ _ => ?_⟩
  have hsent : (d.programs ++ [program]).length = 1 := by
    rw [hnone]
    rfl
  cases answer <;> exact yields_of_sent hsent _

theorem sends_evaluate (hnone : d.programs = []) {expression : String} {shape : ResultShape}
    (hallowed : allowed d.tokens (Program.enveloped s expression shape)) (lineage : LineageId) :
    (sending allowed).Obeys (Yields possible Sent) d
      (evaluate s expression shape lineage : Job F Outcome).run := by
  refine Yields.andThen (sends_roundTrip hnone hallowed lineage) ?_
  intro d' reply hsent
  cases outcomeOfShape shape reply with
  | error fault => exact yields_of_sent hsent _
  | ok outcome =>
    refine (sends_recordAll _).andThen ?_ ?_
    · rintro _ _ rfl
      exact hsent
    · rintro _ _ rfl
      exact yields_of_sent hsent _

/-! ## Calls on receivers -/

/-- The chain of an object may have one more link. -/
def Proxy.HasRoom (s : Settings) (object : Proxy) : Prop :=
  ∀ most, s.maxChainLength = some most → object.links + 1 ≤ most

/-- A call is sent, or pending. -/
def Calls (s : Settings) (object : Proxy) (op : Operation) (d d' : Sending) : Call → Prop
  | .resolved _ => d'.programs.length = 1
  | .pending pending => d' = d ∧ pending = deferredCall s object op

theorem sends_refuseReleased (object : Proxy) : (sending allowed).Obeys
    (Yields possible fun d' _ => d' = d) d (refuseReleased object : Job F Unit).run := by
  cases object with
  | pending chain => rfl
  | resolved key =>
    refine Discipline.obeys_ask.mpr ⟨trivial, fun released _ => ?_⟩
    cases released with
    | false => rfl
    | true => exact fun _ => .inl rfl

theorem defer_eq_ok {object : Proxy} {op : Operation} {pending : PendingCall}
    (h : defer s object op = .ok pending) : pending = deferredCall s object op := by
  unfold defer at h
  dsimp only at h
  split at h
  · exact (Except.ok.inj h).symm
  · split at h
    · cases h
    · exact (Except.ok.inj h).symm

theorem defer_of_hasRoom {object : Proxy} (h : object.HasRoom s) (op : Operation) :
    defer s object op = .ok (deferredCall s object op) := by
  unfold defer
  dsimp only
  split
  · rfl
  · rename_i most hmost
    exact if_neg (Nat.not_lt.mpr (h most hmost))

/-- Whether now or later, an operation is applied to what its receiver stands for. -/
theorem dispatch_eq_ok {object : Proxy} {op : Operation} {step : Option LineageId}
    {way : Dispatch LineageId} (h : dispatch s object op step = .ok way) :
    (∃ lineage, way = .eager (object.source s ++ op.suffix) lineage) ∨
      way = .deferred (deferredCall s object op) := by
  have hdeferred : (defer s object op).map .deferred = .ok way →
      way = .deferred (deferredCall s object op) := by
    intro hway
    cases hdefer : defer s object op with
    | error fault =>
      rw [hdefer] at hway
      cases hway
    | ok pending =>
      rw [hdefer, defer_eq_ok hdefer] at hway
      exact (Except.ok.inj hway).symm
  cases object with
  | pending chain => exact .inr (hdeferred h)
  | resolved key =>
    cases step with
    | none => exact .inr (hdeferred h)
    | some lineage => exact .inl ⟨lineage, (Except.ok.inj h).symm⟩

theorem dispatch_ne_error {object : Proxy} (h : object.HasRoom s) (op : Operation)
    (step : Option LineageId) (fault : UsageFault) :
    dispatch s object op step ≠ .error fault := by
  have hdeferred : (defer s object op).map (Dispatch.deferred (σ := LineageId)) ≠ .error fault := by
    rw [defer_of_hasRoom h]
    exact nofun
  cases object with
  | pending chain => exact hdeferred
  | resolved key =>
    cases step with
    | none => exact hdeferred
    | some lineage => exact nofun

theorem sends_call (hnone : d.programs = []) (object : Proxy) (op : Operation)
    (hroom : possible → object.HasRoom s)
    (hallowed : allowed d.tokens (Program.enveloped s (object.source s ++ op.suffix) op.shape))
    (step : Option LineageId) : (sending allowed).Obeys
      (Yields possible (Calls s object op d)) d (call s object op step : Job F Call).run := by
  refine Yields.andThen (sends_refuseReleased object) ?_
  rintro d _ rfl
  cases hway : dispatch s object op step with
  | error fault => exact fun h => absurd hway (dispatch_ne_error (hroom h) op step fault)
  | ok way =>
    rcases dispatch_eq_ok hway with ⟨lineage, rfl⟩ | rfl
    · refine Yields.andThen (sends_evaluate hnone hallowed lineage) ?_
      exact fun _ outcome hsent => hsent
    · exact ⟨rfl, rfl⟩

theorem sends_settle (hnone : d.programs = []) (object : Proxy) (op : Operation)
    (hroom : possible → object.HasRoom s) (step : Option LineageId)
    (hstep : possible → object.isResolved = true ∨ step.isSome = true)
    (hallowed : allowed d.tokens (Program.enveloped s (object.source s ++ op.suffix) op.shape)) :
    (sending allowed).Obeys (Yields possible Sent) d
      (settle s object op step : Job F Outcome).run := by
  refine Yields.andThen (sends_call hnone object op hroom hallowed step) ?_
  intro d' result hcalls
  cases result with
  | resolved outcome => exact hcalls
  | pending pending =>
    obtain ⟨rfl, rfl⟩ := hcalls
    cases step with
    | some lineage => exact sends_evaluate hnone hallowed lineage
    | none =>
      cases object with
      | pending chain =>
        intro h
        rcases hstep h with hresolved | hsome
        · cases hresolved
        · cases hsome
      | resolved key =>
        refine Discipline.obeys_ask.mpr ⟨trivial, fun lineage _ => ?_⟩
        exact sends_evaluate hnone hallowed lineage

/-- The object of a call is resolved by the program of the call, or still pending. -/
def Gives (s : Settings) (object : Proxy) (op : Operation) (d d' : Sending) (next : Proxy) : Prop :=
  (d'.programs.length = 1 ∧ ∃ key, next = .resolved key) ∨
    d' = d ∧ next = (deferredCall s object op).proxy

theorem sends_askObject (hnone : d.programs = []) (object : Proxy) (suffix : String)
    (hroom : possible → object.HasRoom s)
    (hallowed : allowed d.tokens (Program.enveloped s (object.source s ++ suffix) .handle))
    (step : Option LineageId) : (sending allowed).Obeys
      (Yields possible (Gives s object ⟨suffix, .handle⟩ d)) d
      (askObject s object suffix step : Job F Proxy).run := by
  refine Yields.andThen (sends_call hnone object ⟨suffix, .handle⟩ hroom hallowed step) ?_
  intro d' result hcalls
  cases result with
  | pending pending =>
    obtain ⟨rfl, rfl⟩ := hcalls
    exact .inr ⟨rfl, rfl⟩
  | resolved outcome =>
    cases outcome with
    | handle key => exact .inl ⟨hcalls, key, rfl⟩
    | value | absent => exact fun _ => .inr hcalls

/-! ## Queries -/

theorem ofValue_ne_object (reading : Reading) (value : Json) (next : Proxy) :
    reading.ofValue value ≠ .ok (.object next) := by
  cases reading with
  | texts =>
    simp only [Reading.ofValue]
    split
    · rename_i items
      cases textsOf items <;> exact nofun
    · exact nofun
  | integer | boolean | mapping | optionalText =>
    simp only [Reading.ofValue]
    split <;> exact nofun
  | _ => exact nofun

/-- Only a query for an object is answered with one. -/
theorem ofOutcome_ne_object {reading : Reading} (h : reading ≠ .object) (outcome : Outcome)
    (next : Proxy) : reading.ofOutcome outcome ≠ .ok (.object next) := by
  have hvalue : ∀ value, (reading.ofValue value).mapError
      (fun cause => Fault.transport (.malformed cause)) ≠ .ok (.object next) := by
    intro value
    have hne := ofValue_ne_object reading value next
    cases hread : reading.ofValue value with
    | error cause => exact nofun
    | ok answer =>
      intro heq
      rw [hread] at hne
      exact hne (congrArg Except.ok (Except.ok.inj heq))
  cases reading with
  | object => exact absurd rfl h
  | optionalObject => cases outcome <;> exact nofun
  | objects =>
    cases outcome with
    | handle | absent => exact nofun
    | value v =>
      simp only [Reading.ofOutcome]
      split <;> exact nofun
  | _ =>
    cases outcome with
    | handle key => exact nofun
    | value v => exact hvalue v
    | absent => exact hvalue .null

theorem sends_ask_object (hnone : d.programs = []) (object : Proxy) {q : Query}
    (hreading : q.reading = .object) (hroom : possible → object.HasRoom s)
    (hallowed : allowed d.tokens (Program.enveloped s (object.source s ++ q.suffix) .handle))
    (step : Option LineageId) : (sending allowed).Obeys
      (Yields possible fun d' answer =>
        ∃ next, answer = .object next ∧ Gives s object ⟨q.suffix, .handle⟩ d d' next) d
      (q.ask s object step : Job F Answer).run := by
  rw [Query.ask, if_pos hreading]
  refine Yields.andThen (sends_askObject hnone object q.suffix hroom hallowed step) ?_
  exact fun _ next hgives => ⟨next, rfl, hgives⟩

theorem sends_ask_definite (hnone : d.programs = []) (object : Proxy) {q : Query}
    (hreading : q.reading ≠ .object) (hroom : possible → object.HasRoom s)
    (step : Option LineageId)
    (hstep : possible → object.isResolved = true ∨ step.isSome = true)
    (hallowed :
      allowed d.tokens (Program.enveloped s (object.source s ++ q.suffix) q.reading.shape)) :
    (sending allowed).Obeys
      (Yields possible fun d' answer =>
        (∀ next, answer ≠ .object next) ∧ d'.programs.length = 1) d
      (q.ask s object step : Job F Answer).run := by
  rw [Query.ask, if_neg hreading]
  refine Yields.andThen (sends_settle hnone object q.operation hroom step hstep hallowed) ?_
  intro d' outcome hsent
  change Yields possible _ d' (q.reading.ofOutcome outcome)
  have hother := ofOutcome_ne_object hreading outcome
  cases hread : q.reading.ofOutcome outcome with
  | error fault => exact fun _ => .inr hsent
  | ok answer =>
    refine ⟨?_, hsent⟩
    rintro next rfl
    exact hother next hread

theorem sends_materialize (hnone : d.programs = []) {object next : Proxy} {suffix : String}
    (hallowed : allowed d.tokens (Program.enveloped s (object.source s ++ suffix) .handle))
    {d' : Sending} (hgives : Gives s object ⟨suffix, .handle⟩ d d' next)
    (lineage : LineageId) : (sending allowed).Obeys (Yields possible Sent) d'
      (materialize s next lineage : Job F Proxy).run := by
  rcases hgives with ⟨hsent, key, rfl⟩ | ⟨rfl, rfl⟩
  · exact hsent
  · refine Yields.andThen (sends_evaluate hnone hallowed lineage) ?_
    intro d' outcome hsent
    cases outcome with
    | handle key => exact hsent
    | value | absent => exact fun _ => .inr hsent

theorem sends_closeAll (opened : List Opened) : (sending allowed).Obeys
    (fun d' _ => d' = d) d (closeAll opened : Job F Unit).run := by
  induction opened with
  | nil => rfl
  | cons first rest ih => exact Discipline.obeys_ask.mpr ⟨trivial, fun _ _ => ih⟩

/-- Closing endpoints on the way out changes nothing about a failure. -/
theorem sends_closeAll_throw {Q : Sending → α → Prop} {fault : Fault}
    (h : Yields possible Q d (.error fault)) (opened : List Opened) :
    (sending allowed).Obeys (Yields possible Q) d
      (do
        closeAll opened
        throw fault : Job F α).run := by
  refine (sends_closeAll opened).andThen ?_ ?_ <;>
  · rintro _ _ rfl
    exact h

/-- The tokens of endpoints are those of the party that opened them, and no more. -/
def OpensAll (count : Nat) (d' : Sending) (opened : List Opened) : Prop :=
  d'.programs = [] ∧ d'.tokens = opened.map (·.token) ∧ opened.length = count

theorem sends_openAll {opened : List Opened} (hnone : d.programs = [])
    (htokens : d.tokens = opened.map (·.token)) (count : Nat) : (sending allowed).Obeys
      (Yields possible (OpensAll (opened.length + count))) d
      (openAll opened count : Job F (List Opened)).run := by
  induction count generalizing opened d with
  | zero => exact ⟨hnone, htokens, rfl⟩
  | succ count ih =>
    refine Discipline.obeys_ask.mpr ⟨hnone, fun answer _ => ?_⟩
    cases answer with
    | ok endpoint =>
      have hmore : d.tokens ++ [endpoint.token] = (opened ++ [endpoint]).map (·.token) := by
        rw [htokens, List.map_append]
        rfl
      have hlength : opened.length + (count + 1) = (opened ++ [endpoint]).length + count := by
        rw [List.length_append, List.length_singleton]
        omega
      rw [hlength]
      exact ih hnone hmore
    | error fault => exact sends_closeAll_throw (fun _ => .inl rfl) opened

theorem placeholders_of_substituteTokens {template source : String} {tokens : List String}
    (h : Program.substituteTokens template tokens = .ok source) :
    Program.placeholders template = tokens.length := by
  unfold Program.substituteTokens at h
  split at h
  · assumption
  · cases h

theorem sends_invoke {template : String} {shape : ResultShape} {slots : List (Slot F)}
    (hallowed : ∀ tokens, tokens.length = slots.length →
      ∃ source, Program.substituteTokens template tokens = .ok source ∧
        allowed tokens (Program.enveloped s source shape))
    (label : String) (lineage : LineageId) : (sending allowed).Obeys (Yields possible Sent) {}
      (invoke s label template shape slots lineage).run := by
  obtain ⟨blank, hblank, -⟩ := hallowed (List.replicate slots.length "") List.length_replicate
  have hplaces : Program.placeholders template = slots.length :=
    (placeholders_of_substituteTokens hblank).trans List.length_replicate
  unfold invoke
  rw [if_neg (not_not_intro hplaces)]
  have hopen : (sending allowed).Obeys (Yields possible (OpensAll ([].length + slots.length))) {}
      (openAll [] slots.length : Job F (List Opened)).run := sends_openAll rfl rfl slots.length
  refine Yields.andThen hopen ?_
  rintro d endpoints ⟨hnone, htokens, hlength⟩
  dsimp only
  have htokenCount : (endpoints.map (·.token)).length = slots.length := by
    rw [List.length_map, hlength]
    exact Nat.zero_add _
  obtain ⟨source, hsource, hprogram⟩ := hallowed _ htokenCount
  rw [← htokens] at hprogram
  rw [hsource]
  refine Discipline.obeys_pure.mpr ?_
  refine Yields.andThen (Q := Sent) ?_ ?_
  · refine (sends_evaluate hnone hprogram lineage).orElse (fun _ _ h => h) ?_
    exact fun _ fault hfailed => sends_closeAll_throw hfailed endpoints
  · intro d' outcome hsent
    exact Discipline.obeys_ask.mpr ⟨trivial, fun _ _ => hsent⟩

end

/-! ## Carrying out calls -/

/-- A call of the catalogue on a window. -/
inductive CatalogueCall (F : Type) where
  | operation (op : WindowOperation)
  | quickPanel (panel : QuickPanel F)
  | inputPanel (panel : InputPanel F)

namespace CatalogueCall

/-- Makes a call, in a step or without, and resolves the object that it gives, if it is pending. -/
def carryOut (s : Settings) (label : String) (object : Proxy) (step : Option LineageId)
    (lineage : LineageId) : CatalogueCall F → Job F Unit
  | .operation op => do
    match ← (op.query s).ask s object step with
    | .object next => do
      let _ ← materialize s next lineage
      pure ()
    | _ => pure ()
  | .quickPanel panel => do
    let _ ← panel.present s label object lineage
    pure ()
  | .inputPanel panel => do
    let _ ← panel.present s label object lineage
    pure ()

/-- A call can be made: the chain may grow, and there is a step, or a receiver that needs none,
unless an object is asked for. Panels are always shown in a lineage. -/
def IsPossible (s : Settings) (object : Proxy) (step : Option LineageId) : CatalogueCall F → Prop
  | .operation op => object.HasRoom s ∧
      ((op.query s).reading = .object ∨ object.isResolved = true ∨ step.isSome = true)
  | .quickPanel _ | .inputPanel _ => True

def method? : CatalogueCall F → Option Method
  | .operation op => op.method?
  | .quickPanel panel => some panel.method
  | .inputPanel panel => some panel.method

end CatalogueCall

section

variable {r : Receiver} {m : Method}

/-- Receivers are all that queries of the catalogue reach: asked for an object, a receiver gives a
receiver. -/
theorem ask_gives_receiver (hr : r.IsReached) {q : Query} (hq : IsCatalogued s q)
    (hobject : q.reading = .object) (step : Option LineageId) :
    (sending fun _ _ => True).Obeys (Yields ((r.proxy s).HasRoom s) fun _ answer =>
        ∃ next : Receiver, next.IsReached ∧ answer = .object (next.proxy s)) {}
      (q.ask s (r.proxy s) step : Job F Answer).run := by
  obtain ⟨m, hm, rfl⟩ := exists_method hq hobject
  refine (sends_ask_object rfl (r.proxy s) hm.reading id trivial step).mono ?_
  intro d result hresult
  cases result with
  | error fault => exact hresult
  | ok answer =>
    obtain ⟨next, rfl, ⟨-, key, rfl⟩ | ⟨-, rfl⟩⟩ := hresult
    · exact ⟨⟨some key, []⟩, nofun, rfl⟩
    · refine ⟨r.after m, ?_, ?_⟩
      · intro n hn
        rcases List.mem_append.mp hn with hn | hn
        · exact hr n hn
        · rw [List.mem_singleton.mp hn]
          exact hm
      · rw [r.proxy_after]
        rfl

/-- What a call on a receiver may send when its endpoints have some tokens. -/
def IsProgramOf (s : Settings) (r : Receiver) (m : Method) (tokens : List String)
    (program : String) : Prop :=
  m.callbacks = tokens.length ∧ program = programOf s r m tokens

theorem isProgramOf_nil (hr : r.IsReached) (hm : m.callbacks = 0) :
    IsProgramOf s r m [] (Program.enveloped s ((r.proxy s).source s ++ (m.query s).suffix)
      m.reading.shape) :=
  ⟨hm, (programOf_nil hr hm).symm⟩

theorem exists_isProgramOf (hs : s.IsBare) (hr : r.IsReached) (hm : m.IsPlain)
    {tokens : List String} (hcount : m.callbacks = tokens.length) :
    ∃ source, Program.substituteTokens ((r.proxy s).source s ++ (m.query s).suffix) tokens =
        .ok source ∧ IsProgramOf s r m tokens (Program.enveloped s source m.reading.shape) :=
  ⟨_, substituteTokens_callSymbols hs hr hm hcount, hcount, (spell_envelopedSymbols s _ _).symm⟩

theorem sends_operation (hr : r.IsReached) {op : WindowOperation} (hop : op.method? = some m)
    (label : String) (step : Option LineageId) (lineage : LineageId) :
    (sending (IsProgramOf s r m)).Obeys
      (Yields ((CatalogueCall.operation op : CatalogueCall F).IsPossible s (r.proxy s) step) Sent)
      {} ((CatalogueCall.operation op : CatalogueCall F).carryOut s label (r.proxy s) step
        lineage).run := by
  have hprogram := isProgramOf_nil (s := s) hr (WindowOperation.callbacks_eq_zero hop)
  have hquery : op.query s = m.query s := WindowOperation.query_eq hop
  simp only [CatalogueCall.carryOut, CatalogueCall.IsPossible, hquery]
  by_cases hreading : m.reading = .object
  · rw [hreading] at hprogram
    refine Yields.andThen (sends_ask_object rfl (r.proxy s) hreading And.left hprogram step) ?_
    rintro d _ ⟨next, rfl, hgives⟩
    refine Yields.andThen (sends_materialize rfl hprogram hgives lineage) ?_
    exact fun _ key hsent => hsent
  · refine Yields.andThen (sends_ask_definite rfl (r.proxy s) hreading And.left step
      (fun hpossible => hpossible.2.resolve_left hreading) hprogram) ?_
    rintro d answer ⟨hother, hsent⟩
    cases answer with
    | object next => exact absurd rfl (hother next)
    | _ => exact hsent

theorem sends_present (hs : s.IsBare) (hr : r.IsReached) (hm : m.IsPlain) {template : String}
    (htemplate : template = (r.proxy s).source s ++ (m.query s).suffix) {slots : List (Slot F)}
    (hslots : m.callbacks = slots.length) (label : String) (lineage : LineageId) :
    (sending (IsProgramOf s r m)).Obeys (Yields True Sent) {}
      (do
        let _ ← invoke s label template m.reading.shape slots lineage
        pure () : Job F Unit).run := by
  subst htemplate
  refine Yields.andThen (Q := Sent) (sends_invoke ?_ label lineage) ?_
  · exact fun tokens hlength => exists_isProgramOf hs hr hm (hslots.trans hlength.symm)
  · exact fun _ invoked hsent => hsent

/-- Carrying out a call sends its program and no other. -/
theorem sends_carryOut (hs : s.IsBare) (hr : r.IsReached) {call : CatalogueCall F}
    (hm : call.method? = some m) (label : String) (step : Option LineageId)
    (lineage : LineageId) : (sending (IsProgramOf s r m)).Obeys
      (Yields (call.IsPossible s (r.proxy s) step) Sent) {}
      (call.carryOut s label (r.proxy s) step lineage).run := by
  cases call with
  | operation op => exact sends_operation hr hm label step lineage
  | quickPanel panel =>
    obtain rfl := Option.some.inj hm
    exact sends_present hs hr panel.isPlain (panel.template_eq _) panel.callbacks_method label
      lineage
  | inputPanel panel =>
    obtain rfl := Option.some.inj hm
    exact sends_present hs hr panel.isPlain (panel.template_eq _) panel.callbacks_method label
      lineage

end

end RemoteHost
