import RemoteHost.Proofs.ObjectCalls

/-!
# The limit of chains

An object that a call gives is stored under a key or one link longer than its receiver, and a query
whose receiver has no room for another link fails before it asks for anything. So no chain gets
longer than the limit. Panels do not look at the limit.
-/

namespace RemoteHost

variable {F : Type} {s : Settings} {m : Nat}

/-! ## Obtaining objects -/

def Answer.proxies : Answer → List Proxy
  | .object next => [next]
  | .optionalObject next => next.toList
  | .objects nexts => nexts
  | _ => []

/-- The objects that a call gives. The outcome of a panel may be the handle of its view. -/
def givenObjects : Answer ⊕ Invoked → List Proxy
  | .inl answer => answer.proxies
  | .inr invoked =>
    match invoked.outcome with
    | .handle key => [.resolved key]
    | _ => []

/-- The objects that a sequence of calls can lead to, from the window in front and from objects
stored under keys, whatever the calls are answered. -/
inductive Obtained (F : Type) (s : Settings) : Proxy → Prop
  | activeWindow : Obtained F s (activeWindow s)
  | stored (key : String) : Obtained F s (.resolved key)
  | given {object next : Proxy} {objectCall : ObjectCall F} {step : Option LineageId}
      {talk : Talk F} {result : Answer ⊕ Invoked} (h : Obtained F s object)
      (hcomes : (objectCall.job s object step).run.Comes talk (some (.ok result)))
      (hnext : next ∈ givenObjects result) : Obtained F s next
  | materialized {object next : Proxy} {lineage : LineageId} {talk : Talk F}
      (h : Obtained F s object)
      (hcomes : (materialize s object lineage).run.Comes talk (some (.ok next))) :
      Obtained F s next

theorem comes_pure {α : Type} {a b : α} {talk : Talk F}
    (h : (pure a : Job F α).run.Comes talk (some (.ok b))) : b = a := by
  cases h
  rfl

theorem comes_result {α : Type} {result : Except Fault α} {a : α} {talk : Talk F}
    (h : (ExceptT.mk (pure result) : Job F α).run.Comes talk (some (.ok a))) :
    result = .ok a := by
  generalize hrun : (ExceptT.mk (pure result) : Job F α).run = routine at h
  cases h with
  | done => exact Routine.done.inj hrun
  | ask => cases hrun

theorem not_comes_throw {α : Type} {fault : Fault} {a : α} {talk : Talk F} :
    ¬ (throw fault : Job F α).run.Comes talk (some (.ok a)) := nofun

theorem hasRoom_of_defer {object : Proxy} {op : Operation} {pending : PendingCall}
    (h : defer s object op = .ok pending) : object.HasRoom s := by
  intro most hmost
  unfold defer at h
  dsimp only at h
  rw [hmost] at h
  dsimp only at h
  split at h
  · cases h
  · rename_i hroom
    exact Nat.not_lt.mp hroom

theorem defer_of_dispatch {object : Proxy} {op : Operation} {step : Option LineageId}
    {pending : PendingCall} (h : dispatch s object op step = .ok (.deferred pending)) :
    defer s object op = .ok pending := by
  have hdeferred : (defer s object op).map (Dispatch.deferred (σ := LineageId)) =
      .ok (.deferred pending) → defer s object op = .ok pending := by
    cases defer s object op with
    | error fault => exact nofun
    | ok other =>
      rintro ⟨⟩
      rfl
  cases object with
  | pending chain => exact hdeferred h
  | resolved key =>
    cases step with
    | none => exact hdeferred h
    | some lineage => cases h

/-- A pending call is one link longer than its receiver, which had room for it. -/
theorem call_gives_pending {object : Proxy} {op : Operation} {step : Option LineageId}
    {talk : Talk F} {pending : PendingCall}
    (h : (call s object op step).run.Comes talk (some (.ok (.pending pending)))) :
    pending = deferredCall s object op ∧ object.HasRoom s := by
  obtain ⟨_, _, second, -, h, -⟩ := Routine.Comes.of_andThen h
  cases hway : dispatch s object op step with
  | error fault =>
    rw [hway] at h
    exact absurd h not_comes_throw
  | ok way =>
    rw [hway] at h
    cases way with
    | eager source lineage =>
      obtain ⟨_, _, _, -, h, -⟩ := Routine.Comes.of_andThen h
      cases comes_pure h
    | deferred other =>
      cases comes_pure h
      have hdefer := defer_of_dispatch hway
      exact ⟨defer_eq_ok hdefer, hasRoom_of_defer hdefer⟩

/-- How an object comes from a receiver. -/
def ComesFrom (s : Settings) (object next : Proxy) : Prop :=
  (∃ key, next = .resolved key) ∨ next.links = object.links + 1 ∧ object.HasRoom s

theorem askObject_gives {object next : Proxy} {suffix : String} {step : Option LineageId}
    {talk : Talk F} (h : (askObject s object suffix step).run.Comes talk (some (.ok next))) :
    ComesFrom s object next := by
  obtain ⟨result, first, second, hcall, h, -⟩ := Routine.Comes.of_andThen h
  cases result with
  | pending pending =>
    obtain ⟨rfl, hroom⟩ := call_gives_pending hcall
    cases comes_pure h
    exact .inr ⟨rfl, hroom⟩
  | resolved outcome =>
    cases outcome with
    | handle key =>
      cases comes_pure h
      exact .inl ⟨key, rfl⟩
    | value | absent => exact absurd h not_comes_throw

theorem ofValue_gives {reading : Reading} {value : Json} {answer : Answer}
    (h : reading.ofValue value = .ok answer) : answer.proxies = [] := by
  cases reading with
  | texts =>
    simp only [Reading.ofValue] at h
    split at h
    · rename_i items
      cases htexts : textsOf items with
      | error cause =>
        rw [htexts] at h
        cases h
      | ok texts =>
        rw [htexts] at h
        cases h
        rfl
    · cases h
  | integer | boolean | mapping | optionalText =>
    simp only [Reading.ofValue] at h
    split at h <;> cases h <;> rfl
  | _ =>
    cases h
    rfl

/-- A reading that is not of one object gives objects only by their handles. -/
theorem ofOutcome_gives {reading : Reading} (hreading : reading ≠ .object) {outcome : Outcome}
    {answer : Answer} (h : reading.ofOutcome outcome = .ok answer) {next : Proxy}
    (hnext : next ∈ answer.proxies) : ∃ key, next = .resolved key := by
  have hvalue : ∀ value, (reading.ofValue value).mapError
      (fun cause => Fault.transport (.malformed cause)) ≠ .ok answer := by
    intro value heq
    cases hread : reading.ofValue value with
    | error cause =>
      rw [hread] at heq
      cases heq
    | ok other =>
      rw [hread] at heq
      cases heq
      rw [ofValue_gives hread] at hnext
      cases hnext
  cases reading with
  | object => exact absurd rfl hreading
  | optionalObject =>
    cases outcome with
    | handle key =>
      cases h
      exact ⟨key, List.mem_singleton.mp hnext⟩
    | absent =>
      cases h
      cases hnext
    | value => cases h
  | objects =>
    cases outcome with
    | value v =>
      simp only [Reading.ofOutcome] at h
      split at h
      · cases h
        obtain ⟨key, -, hkey⟩ := List.mem_map.mp hnext
        exact ⟨key, hkey.symm⟩
      · cases h
    | handle | absent => cases h
  | _ =>
    cases outcome with
    | handle key => cases h
    | value v => exact absurd h (hvalue v)
    | absent => exact absurd h (hvalue .null)

theorem ask_gives {object next : Proxy} {q : Query} {step : Option LineageId} {talk : Talk F}
    {answer : Answer} (h : (q.ask s object step).run.Comes talk (some (.ok answer)))
    (hnext : next ∈ answer.proxies) : ComesFrom s object next := by
  unfold Query.ask at h
  split at h
  · obtain ⟨other, _, _, hask, h, -⟩ := Routine.Comes.of_andThen h
    cases comes_pure h
    rw [List.mem_singleton.mp hnext]
    exact askObject_gives hask
  · rename_i hreading
    obtain ⟨outcome, _, _, -, h, -⟩ := Routine.Comes.of_andThen h
    exact .inl (ofOutcome_gives hreading (comes_result h) hnext)

theorem invoked_gives {invoked : Invoked} {next : Proxy}
    (h : next ∈ givenObjects (.inr invoked)) : ∃ key, next = .resolved key := by
  obtain ⟨operation, outcome, tokens⟩ := invoked
  cases outcome with
  | handle key => exact ⟨key, List.mem_singleton.mp h⟩
  | value | absent => cases h

theorem job_gives {object next : Proxy} {objectCall : ObjectCall F} {step : Option LineageId}
    {talk : Talk F} {result : Answer ⊕ Invoked}
    (h : (objectCall.job s object step).run.Comes talk (some (.ok result)))
    (hnext : next ∈ givenObjects result) : ComesFrom s object next := by
  cases objectCall with
  | window | view | sheet =>
    obtain ⟨answer, _, _, hask, h, -⟩ := Routine.Comes.of_andThen h
    cases comes_pure h
    exact ask_gives hask hnext
  | quickPanel | inputPanel =>
    obtain ⟨invoked, _, _, -, h, -⟩ := Routine.Comes.of_andThen h
    cases comes_pure h
    exact .inl (invoked_gives hnext)

theorem materialize_gives {object next : Proxy} {lineage : LineageId} {talk : Talk F}
    (h : (materialize s object lineage).run.Comes talk (some (.ok next))) :
    ∃ key, next = .resolved key := by
  cases object with
  | resolved key => exact ⟨key, comes_pure h⟩
  | pending chain =>
    obtain ⟨outcome, _, _, -, h, -⟩ := Routine.Comes.of_andThen h
    cases outcome with
    | handle key => exact ⟨key, comes_pure h⟩
    | value | absent => exact absurd h not_comes_throw

/-- However it was obtained, the chain of an object keeps to the limit. -/
theorem Obtained.links_le (hm : s.maxChainLength = some m) (hpos : 1 ≤ m) {object : Proxy}
    (h : Obtained F s object) : object.links ≤ m := by
  induction h with
  | activeWindow => exact hpos
  | stored key => exact Nat.zero_le m
  | given h hcomes hnext ih =>
    rcases job_gives hcomes hnext with ⟨key, rfl⟩ | ⟨hlinks, hroom⟩
    · exact Nat.zero_le m
    · rw [hlinks]
      exact hroom m hm
  | materialized h hcomes ih =>
    obtain ⟨key, rfl⟩ := materialize_gives hcomes
    exact Nat.zero_le m

/-! ## Calls without room -/

theorem call_of_full {chain : Chain} (hm : s.maxChainLength = some m) (hfull : m < chain.links + 1)
    (op : Operation) (step : Option LineageId) :
    (call s (.pending chain) op step : Job F Call).run =
      .done (.error (.usage (.chainTooLong (chain.links + 1) m))) := by
  have hdefer : defer s (.pending chain) op = .error (.chainTooLong (chain.links + 1) m) := by
    unfold defer
    dsimp only
    rw [hm]
    exact if_pos hfull
  have hdispatch : dispatch s (.pending chain) op step =
      .error (.chainTooLong (chain.links + 1) m) := by
    unfold dispatch
    rw [hdefer]
    rfl
  unfold call
  rw [hdispatch]
  rfl

/-- A query without room asks for nothing: it sends nothing and opens nothing. -/
theorem job_of_full {objectCall : ObjectCall F} (h : objectCall.isPanel = false) {chain : Chain}
    (hm : s.maxChainLength = some m) (hfull : m < chain.links + 1) (step : Option LineageId) :
    (objectCall.job s (.pending chain) step).run =
      .done (.error (.usage (.chainTooLong (chain.links + 1) m))) := by
  obtain ⟨op, hcontinues⟩ := ObjectCall.continuesFrom_call h s (.pending chain) step
  rw [call_of_full hm hfull] at hcontinues
  exact hcontinues.failed

/-- What a panel does does not depend on the limit. -/
theorem job_panel {objectCall : ObjectCall F} (h : objectCall.isPanel = true) (s : Settings)
    (limit : Option Nat) (object : Proxy) (step : Option LineageId) :
    objectCall.job { s with maxChainLength := limit } object step =
      objectCall.job s object step := by
  cases objectCall with
  | quickPanel | inputPanel => rfl
  | window | view | sheet => cases h

/-- With a limit, all objects that calls lead to keep to it; a query on a chain without room fails
at once, so that none sends a program; and panels are shown as if there was no limit. -/
theorem chains_within_limit (hm : s.maxChainLength = some m) (hpos : 1 ≤ m) :
    (∀ object, Obtained F s object → object.links ≤ m) ∧
    (∀ (objectCall : ObjectCall F) (chain : Chain) (step : Option LineageId) (talk : Talk F)
      (result : Option (Except Fault (Answer ⊕ Invoked))), objectCall.isPanel = false →
      (objectCall.job s (.pending chain) step).run.Comes talk result → talk.programs ≠ [] →
      chain.links + 1 ≤ m) ∧
    (∀ (objectCall : ObjectCall F) (chain : Chain) (step : Option LineageId),
      objectCall.isPanel = false → m < chain.links + 1 →
      (objectCall.job s (.pending chain) step).run =
        .done (.error (.usage (.chainTooLong (chain.links + 1) m)))) ∧
    (∀ (objectCall : ObjectCall F) (limit : Option Nat) (object : Proxy) (step : Option LineageId),
      objectCall.isPanel = true →
      objectCall.job { s with maxChainLength := limit } object step =
        objectCall.job s object step) := by
  refine ⟨fun object h => h.links_le hm hpos, ?_, ?_, ?_⟩
  · intro objectCall chain step talk result hquery hcomes hprograms
    refine Nat.not_lt.mp fun hfull => ?_
    rw [job_of_full hquery hm hfull] at hcomes
    cases hcomes <;> exact hprograms rfl
  · exact fun objectCall chain step hquery hfull => job_of_full hquery hm hfull step
  · exact fun objectCall limit object step hpanel => job_panel hpanel s limit object step

/-- Settings that allow chains of so many links. -/
def limited (most : Nat) : Settings := { maxChainLength := some most }

def frontWindow : Chain := ⟨activeWindowSource {}, 1⟩

def frontView : Chain := ⟨activeWindowSource {} ++ ".active_view()", 2⟩

theorem two_links_allowed : (limited 2).maxChainLength = some 2 ∧
    frontWindow.links ≤ 2 ∧ frontWindow.links + 1 ≤ 2 ∧
    ((ObjectCall.view .size : ObjectCall Unit).job (limited 2) (.pending frontView) none).run =
      .done (.error (.usage (.chainTooLong 3 2))) ∧
    (ObjectCall.quickPanel "fruit" 0 fruitPanel).job (limited 1) (.pending frontView) none =
      (ObjectCall.quickPanel "fruit" 0 fruitPanel).job (limited 2) (.pending frontView) none := by
  have hlimit := chains_within_limit (F := Unit) (s := limited 2) (m := 2) rfl (by decide)
  have hcomes : ((ObjectCall.window .id : ObjectCall Unit).job (limited 2) (.pending frontWindow)
      (some 0)).run.Comes [⟨.enter 0 .queue, .ok ()⟩,
        ⟨.submit (Program.enveloped {} (activeWindowSource {} ++ ".id()") .value), ()⟩] none :=
    .ask _ (.ask _ (.yet _))
  exact ⟨rfl, hlimit.1 (activeWindow (limited 2)) .activeWindow,
    hlimit.2.1 _ _ _ _ _ rfl hcomes (List.cons_ne_nil _ _),
    hlimit.2.2.1 (.view .size) frontView none rfl (by decide),
    hlimit.2.2.2 (.quickPanel "fruit" 0 fruitPanel) (some 1) (.pending frontView) none rfl⟩

/-- A session with one reply and one token left. -/
def oneReplyLeft : Session Unit :=
  { settings := limited 1
    host := .replaying
      { replies := [.json (Envelope.primitive .null).toJson], tokens := [some "pick"] }
    lineages := [{ label := "step", parent := none }] }

/-- A panel is shown at the end of a chain that has no room for it. -/
theorem panel_exceeds_limit : (limited 1).maxChainLength = some 1 ∧ frontWindow.links = 1 ∧
    (oneReplyLeft.perform idle .foreground ((ObjectCall.quickPanel "fruit" 0 fruitPanel).job
      (limited 1) (.pending frontWindow) (some 0)).run).2.journal.events =
        [.opened "pick", .executed (fruitProgram (.pending frontWindow))] := by
  decide +kernel

end RemoteHost
