import RemoteHost.Proofs.CatalogueCalls

/-!
# Chains of deferred operations

Operations are applied one after another, each to the proxy for the call before it. What comes out
is the receiver followed by all of them, and it grows by one link with each, up to the limit. A step
matters to the first operation only, since every later receiver is pending.
-/

namespace RemoteHost

variable {σ : Type} {s : Settings} {receiver : Proxy} {op : Operation} {ops : List Operation}
  {answers : List (Except UsageFault (Dispatch σ))}

/-- What operations append, one after another. -/
def suffixes (ops : List Operation) : String := String.join (ops.map (·.suffix))

theorem suffixes_cons (op : Operation) (ops : List Operation) :
    suffixes (op :: ops) = op.suffix ++ suffixes ops := by
  rw [suffixes, List.map_cons, String.join_cons]
  rfl

/-- Applies operations, each to the proxy for the pending call before it. What is not pending ends
the chain. -/
def dispatchEach (s : Settings) : Proxy → List (Operation × Option σ) →
    List (Except UsageFault (Dispatch σ))
  | _, [] => []
  | receiver, (op, step) :: later =>
    match dispatch s receiver op step with
    | .ok (.deferred call) => .ok (.deferred call) :: dispatchEach s call.proxy later
    | answer => [answer]

/-! ## One operation -/

/-- An operation cannot be run at once on what is not stored yet, or without a step. -/
def Proxy.IsLazy (receiver : Proxy) (step : Option σ) : Prop :=
  receiver.isResolved = true → step = none

theorem PendingCall.isLazy_proxy (call : PendingCall) (step : Option σ) :
    call.proxy.IsLazy step := nofun

theorem dispatch_of_isLazy {step : Option σ} (h : receiver.IsLazy step) (op : Operation) :
    dispatch s receiver op step = (defer s receiver op).map .deferred := by
  cases receiver with
  | pending chain => rfl
  | resolved key =>
    obtain rfl := h rfl
    rfl

theorem defer_of_full {most : Nat} (hmost : s.maxChainLength = some most)
    (hfull : most < receiver.links + 1) (op : Operation) :
    defer s receiver op = .error (.chainTooLong (receiver.links + 1) most) := by
  unfold defer
  dsimp only
  rw [hmost]
  exact if_pos hfull

section First

variable {step : Option σ} {later : List (Operation × Option σ)}

/-- With room for the first operation, the chain goes on behind it. -/
theorem dispatchEach_of_hasRoom (h : receiver.IsLazy step) (hroom : receiver.HasRoom s) :
    dispatchEach s receiver ((op, step) :: later) =
      .ok (.deferred (deferredCall s receiver op)) ::
        dispatchEach s (deferredCall s receiver op).proxy later := by
  rw [dispatchEach, dispatch_of_isLazy h, defer_of_hasRoom hroom]
  rfl

theorem dispatchEach_of_full (h : receiver.IsLazy step) {most : Nat}
    (hmost : s.maxChainLength = some most) (hfull : most < receiver.links + 1) :
    dispatchEach s receiver ((op, step) :: later) =
      [.error (.chainTooLong (receiver.links + 1) most)] := by
  rw [dispatchEach, dispatch_of_isLazy h, defer_of_full hmost hfull]
  rfl

end First

theorem hasRoom_or_full (s : Settings) (receiver : Proxy) :
    receiver.HasRoom s ∨ ∃ most, s.maxChainLength = some most ∧ most < receiver.links + 1 := by
  by_cases hroom : receiver.HasRoom s
  · exact .inl hroom
  · simp only [Proxy.HasRoom, not_forall, Nat.not_le] at hroom
    obtain ⟨most, hmost, hfull⟩ := hroom
    exact .inr ⟨most, hmost, hfull⟩

/-! ## Chains -/

/-- The pending call of an operation that comes after others. -/
structure PendingCall.Follows (s : Settings) (object : Proxy) (before : List Operation)
    (op : Operation) (call : PendingCall) : Prop where
  receiver : call.receiver = object.source s ++ suffixes before
  source : call.source = object.source s ++ suffixes before ++ op.suffix
  suffix : call.suffix = op.suffix
  shape : call.shape = op.shape
  links : call.links = object.links + (before.length + 1)

/-- There are pending calls up to the first operation that has no room, which is refused. -/
structure Concatenates (s : Settings) (receiver : Proxy) (ops : List Operation)
    (answers : List (Except UsageFault (Dispatch σ))) : Prop where
  deferred : ∀ k op, ops[k]? = some op →
    (∀ most, s.maxChainLength = some most → receiver.links + (k + 1) ≤ most) →
      ∃ call, answers[k]? = some (.ok (.deferred call)) ∧
        call.Follows s receiver (ops.take k) op
  refused : ∀ k most, k < ops.length → s.maxChainLength = some most →
    (∀ j < k, receiver.links + (j + 1) ≤ most) → most < receiver.links + (k + 1) →
      answers.length = k + 1 ∧
        answers[k]? = some (.error (.chainTooLong (receiver.links + (k + 1)) most))
  length_le : answers.length ≤ ops.length

namespace Concatenates

theorem nil (s : Settings) (receiver : Proxy) :
    Concatenates s receiver [] ([] : List (Except UsageFault (Dispatch σ))) where
  deferred _ _ h := by cases h
  refused _ _ h := absurd h (Nat.not_lt_zero _)
  length_le := Nat.le_refl _

/-- A call on the proxy for the first operation is a call on the receiver, one operation later. -/
theorem follows_cons {first : Operation} {before : List Operation} {call : PendingCall}
    (h : call.Follows s (deferredCall s receiver first).proxy before op) :
    call.Follows s receiver (first :: before) op := by
  have hproxy : (deferredCall s receiver first).proxy.source s =
      receiver.source s ++ first.suffix := rfl
  have hlinks : (deferredCall s receiver first).proxy.links = receiver.links + 1 := rfl
  refine ⟨?_, ?_, h.suffix, h.shape, ?_⟩
  · rw [h.receiver, hproxy, suffixes_cons, String.append_assoc]
  · rw [h.source, hproxy, suffixes_cons, ← String.append_assoc]
  · rw [h.links, hlinks, List.length_cons]
    omega

theorem cons {first : Operation} (hroom : receiver.HasRoom s)
    (h : Concatenates s (deferredCall s receiver first).proxy ops answers) :
    Concatenates s receiver (first :: ops)
      (.ok (.deferred (deferredCall s receiver first)) :: answers) := by
  have hlinks : (deferredCall s receiver first).proxy.links = receiver.links + 1 := rfl
  constructor
  · intro k op hop hallowed
    cases k with
    | zero =>
      obtain rfl := Option.some.inj hop
      refine ⟨_, rfl, ?_, ?_, rfl, rfl, rfl⟩
      · exact String.append_empty.symm
      · exact congrArg (· ++ first.suffix) String.append_empty.symm
    | succ k =>
      obtain ⟨call, hcall, hfollows⟩ := h.deferred k op hop fun most hmost => by
        have := hallowed most hmost
        omega
      exact ⟨call, hcall, follows_cons hfollows⟩
  · intro k most hk hmost hearlier hfull
    cases k with
    | zero => exact absurd (hroom most hmost) (Nat.not_le.mpr hfull)
    | succ k =>
      obtain ⟨hlength, hanswer⟩ := h.refused k most (Nat.lt_of_succ_lt_succ hk) hmost
        (fun j hj => by
          have := hearlier (j + 1) (Nat.succ_lt_succ hj)
          omega)
        (by omega)
      refine ⟨congrArg (· + 1) hlength, ?_⟩
      rw [List.getElem?_cons_succ, hanswer, hlinks]
      congr 3
      omega
  · exact Nat.succ_le_succ h.length_le

theorem full {first : Operation} {most : Nat} (hmost : s.maxChainLength = some most)
    (hfull : most < receiver.links + 1) :
    Concatenates s receiver (first :: ops)
      [(.error (.chainTooLong (receiver.links + 1) most) : Except UsageFault (Dispatch σ))] := by
  constructor
  · intro k op _ hallowed
    have := hallowed most hmost
    omega
  · intro k most' _ hmost' hearlier _
    obtain rfl : most = most' := Option.some.inj (hmost.symm.trans hmost')
    cases k with
    | zero => exact ⟨rfl, rfl⟩
    | succ k =>
      have := hearlier 0 (Nat.succ_pos k)
      omega
  · exact Nat.succ_le_succ (Nat.zero_le _)

/-- Without a limit all operations are deferred. -/
theorem unlimited (h : Concatenates s receiver ops answers) (hnone : s.maxChainLength = none) :
    answers.length = ops.length ∧ ∀ answer ∈ answers, ∃ call, answer = .ok (.deferred call) := by
  have hdeferred : ∀ k < ops.length, ∃ call, answers[k]? = some (.ok (.deferred call)) := by
    intro k hk
    obtain ⟨call, hcall, -⟩ := h.deferred k _ (List.getElem?_eq_getElem hk) fun most hmost => by
      rw [hnone] at hmost
      cases hmost
    exact ⟨call, hcall⟩
  constructor
  · refine Nat.le_antisymm h.length_le (Nat.not_lt.mp fun hshort => ?_)
    obtain ⟨call, hcall⟩ := hdeferred answers.length hshort
    rw [List.getElem?_eq_none (Nat.le_refl _)] at hcall
    cases hcall
  · intro answer hanswer
    obtain ⟨k, hk⟩ := List.mem_iff_getElem?.mp hanswer
    obtain ⟨hlt, -⟩ := List.getElem?_eq_some_iff.mp hk
    obtain ⟨call, hcall⟩ := hdeferred k (Nat.lt_of_lt_of_le hlt h.length_le)
    exact ⟨call, Option.some.inj (hk.symm.trans hcall)⟩

end Concatenates

/-- The induction is on the calls. Behind the first one the receiver is pending, so that its steps
do not matter. -/
theorem concatenates_dispatchEach (calls : List (Operation × Option σ))
    (h : ∀ call ∈ calls.head?, receiver.IsLazy call.2) :
    Concatenates s receiver (calls.map Prod.fst) (dispatchEach s receiver calls) := by
  induction calls generalizing receiver with
  | nil => exact .nil s receiver
  | cons call later ih =>
    obtain ⟨op, step⟩ := call
    have hlazy : receiver.IsLazy step := h _ rfl
    rcases hasRoom_or_full s receiver with hroom | ⟨most, hmost, hfull⟩
    · rw [dispatchEach_of_hasRoom hlazy hroom]
      exact .cons hroom (ih fun call _ => PendingCall.isLazy_proxy _ call.2)
    · rw [dispatchEach_of_full hlazy hmost hfull]
      exact .full hmost hfull

theorem dispatchEach_without_steps (calls : List (Operation × Option σ))
    (h : ∀ call ∈ calls.head?, receiver.IsLazy call.2) :
    dispatchEach s receiver calls =
      dispatchEach s receiver (calls.map fun call => (call.1, (none : Option σ))) := by
  induction calls generalizing receiver with
  | nil => rfl
  | cons call later ih =>
    obtain ⟨op, step⟩ := call
    have hlazy : receiver.IsLazy step := h _ rfl
    have hnone : receiver.IsLazy (none : Option σ) := fun _ => rfl
    rw [List.map_cons]
    rcases hasRoom_or_full s receiver with hroom | ⟨most, hmost, hfull⟩
    · rw [dispatchEach_of_hasRoom hlazy hroom, dispatchEach_of_hasRoom hnone hroom,
        ih fun call _ => PendingCall.isLazy_proxy _ call.2]
    · rw [dispatchEach_of_full hlazy hmost hfull, dispatchEach_of_full hnone hmost hfull]

/-- Operations of which the first has no step are concatenated behind their receiver, up to the
limit, if there is one. The steps of the others change nothing. -/
theorem chain_concatenates (s : Settings) (receiver : Proxy) (first : Operation)
    (later : List (Operation × Option σ)) :
    Concatenates s receiver (first :: later.map Prod.fst)
      (dispatchEach s receiver ((first, none) :: later)) ∧
    (s.maxChainLength = none →
      (dispatchEach s receiver ((first, none) :: later)).length = later.length + 1 ∧
      ∀ answer ∈ dispatchEach s receiver ((first, none) :: later),
        ∃ call, answer = .ok (.deferred call)) ∧
    dispatchEach s receiver ((first, none) :: later) =
      dispatchEach s receiver ((first, none) :: later.map fun call => (call.1, none)) ∧
    (∀ source, (Proxy.root source).links = 1 ∧ (Proxy.root source).source s = source) ∧
    (∀ key, (Proxy.resolved key).links = 0 ∧
      (Proxy.resolved key).source s = Program.handleRef s key) := by
  have hlazy : ∀ call ∈ ((first, (none : Option σ)) :: later).head?, receiver.IsLazy call.2 := by
    rintro _ ⟨⟩ _
    rfl
  have hall := concatenates_dispatchEach (s := s) _ hlazy
  refine ⟨hall, fun hnone => ?_, dispatchEach_without_steps _ hlazy, fun source => ⟨rfl, rfl⟩,
    fun key => ⟨rfl, rfl⟩⟩
  obtain ⟨hlength, hdeferred⟩ := hall.unlimited hnone
  rw [List.length_map, List.length_cons] at hlength
  exact ⟨hlength, hdeferred⟩

example : dispatchEach { maxChainLength := some 2 } (.root "window")
    [(.method "active_view" [], none), (.method "size" [], some 0)] =
      [.ok (.deferred ⟨"window", ".active_view()", .value, 2, false⟩),
        .error (.chainTooLong 3 2)] := by
  rfl

end RemoteHost
