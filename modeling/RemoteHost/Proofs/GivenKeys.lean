import RemoteHost.Proofs.EnvelopeFormat
import RemoteHost.Proofs.StartingOperations

/-!
# Keys given in replies

A reply gives the key of a handle, or the keys of a list of handles, to whoever expected that. A
service that is given keys records every one of them before it ends.
-/

namespace RemoteHost

variable {F α : Type}

/-- A reply gives a key where a handle or a list of handles was expected. -/
inductive ResultShape.Gives : ResultShape → Json → String → Prop
  | handle {reply : Json} {key : String} (h : Spells reply (.handle key)) : Gives .handle reply key
  | optionalHandle {reply : Json} {key : String} (h : Spells reply (.handle key)) :
    Gives .optionalHandle reply key
  | listed {reply : Json} {items : List Json} {key : String}
    (h : Spells reply (.primitive (.array items))) (hin : .string key ∈ items) :
    Gives .handleList reply key

/-- The keys that a reply gives. -/
def ResultShape.given (shape : ResultShape) (reply : Json) : List String :=
  match outcomeOfShape shape reply with
  | .ok outcome => shape.received outcome
  | .error _ => []

theorem outcomeOfShape_of_spells {shape : ResultShape} {reply : Json} {outcome : Outcome}
    (h : Spells reply (.ofOutcome outcome)) (hfits : shape.fits outcome = true) :
    outcomeOfShape shape reply = .ok outcome := by
  rw [outcomeOfShape, outcomeOfReply_eq_ok.mpr h]
  simp [ResultShape.accept, hfits]

theorem ResultShape.Gives.mem_given {shape : ResultShape} {reply : Json} {key : String}
    (h : shape.Gives reply key) : key ∈ shape.given reply := by
  cases h with
  | handle h | optionalHandle h =>
    have hhandle : Spells reply (.ofOutcome (.handle key)) := h
    rw [given, outcomeOfShape_of_spells hhandle rfl]
    exact List.mem_singleton_self key
  | @listed _ items _ h hin =>
    have hitems : Spells reply (.ofOutcome (.value (.array items))) := h
    rw [given, outcomeOfShape_of_spells hitems rfl]
    exact List.mem_filterMap.mpr ⟨_, hin, rfl⟩

/-- A slot takes a payload exactly if it spells an outcome of the slot's shape. -/
theorem Slot.accepts?_eq_some {slot : Slot F} {payload : Json} {outcome : Outcome} :
    slot.accepts? payload = some outcome ↔
      Spells payload (.ofOutcome outcome) ∧ slot.payload.accepts outcome = true := by
  rw [← Envelope.ofJson_eq_ok, accepts?]
  cases Envelope.ofJson payload with
  | error mismatch => simp
  | ok e =>
    simp only [Except.ok.injEq, ← Envelope.outcome_eq_ok]
    cases e.outcome with
    | error message => simp
    | ok found => grind

/-- The shape that a service expects its reply to have. What is installed may answer anything. -/
def Service.shape? : Service F → Option ResultShape
  | .evaluate _ shape _ | .invoke _ _ shape _ _ => some shape
  | .release _ => some .value
  | .installPrelude _ => none

/-- Rules in which a party owes it to record the keys that it was given. -/
def owing (shape : ResultShape) : Discipline F (List String) where
  allows _ _ := True
  expects _ _ _ := True
  after owed
    | .collect, .ok reply => owed ++ shape.given reply
    | .record key, _ => owed.filter (· ≠ key)
    | _, _ => owed

section Owing

variable {shape : ResultShape} {owed : List String} (s : Settings)

theorem owing_ignoresEndpoints (owed : List String) :
    (owing (F := F) shape).IgnoresEndpoints owed where
  opening := ⟨trivial, fun _ => rfl⟩
  closing _ := ⟨trivial, fun _ => rfl⟩

theorem owing_recordAll {keys : List String} (h : ∀ key ∈ owed, key ∈ keys) :
    (owing shape).Obeys (fun owed' _ => owed' = []) owed (recordAll keys : Job F Unit).run := by
  induction keys generalizing owed with
  | nil => exact List.eq_nil_iff_forall_not_mem.mpr fun key hkey => List.not_mem_nil (h key hkey)
  | cons first rest ih =>
    refine Discipline.obeys_ask.mpr ⟨trivial, fun _ _ => ih fun key hkey => ?_⟩
    obtain ⟨howed, hne⟩ := List.mem_filter.mp hkey
    exact (List.mem_cons.mp (h key howed)).resolve_left (of_decide_eq_true hne)

theorem owing_roundTrip (program : String) (lineage : LineageId) : (owing shape).Obeys
    (fun owed result => owed = match result with
      | .ok reply => shape.given reply
      | .error _ => []) [] (roundTrip s program lineage : Job F Json).run := by
  refine Discipline.Obeys.andThen (Q := fun owed _ => owed = []) ?_ ?_ (fun _ _ h => h)
  · refine Discipline.obeys_ask.mpr ⟨trivial, fun turn _ => ?_⟩
    cases turn <;> rfl
  · rintro _ _ rfl
    refine Discipline.obeys_ask.mpr ⟨trivial, fun _ _ => ?_⟩
    refine Discipline.obeys_ask.mpr ⟨trivial, fun answer _ => ?_⟩
    refine Discipline.obeys_ask.mpr ⟨trivial, fun _ _ => ?_⟩
    cases answer with
    | ok reply => exact List.nil_append _
    | error fault => rfl

theorem owing_evaluate (expression : String) (lineage : LineageId) : (owing shape).Obeys
    (fun owed _ => owed = []) [] (evaluate s expression shape lineage : Job F Outcome).run := by
  refine (owing_roundTrip s _ lineage).andThen ?_ (fun _ _ h => h)
  rintro _ reply rfl
  simp only [ResultShape.given]
  cases outcomeOfShape shape reply with
  | error fault => rfl
  | ok outcome =>
    exact (owing_recordAll fun _ hkey => hkey).andThen (fun _ _ h => h) (fun _ _ h => h)

/-- What a party owes after a talk. -/
def owedAfter (shape : ResultShape) (owed : List String) (talk : Talk F) : List String :=
  talk.foldl (fun owed exchange => (owing shape).after owed exchange.1 exchange.2) owed

theorem owing_leads {post : List String → α → Prop} {routine rest : Routine F α} {talk : Talk F}
    (h : (owing shape).Obeys post owed routine) (hleads : routine.Leads talk rest) :
    (owing shape).Obeys post (owedAfter shape owed talk) rest := by
  induction hleads generalizing owed with
  | here routine => exact h
  | ask reply hrest ih => exact ih (h.2 reply trivial)

theorem mem_after_of_unrecorded {key : String} (hkey : key ∈ owed) {request : Request F}
    (reply : request.Reply) (hne : request ≠ .record key) :
    key ∈ (owing shape).after owed request reply := by
  cases request with
  | record other =>
    exact List.mem_filter.mpr ⟨hkey, decide_eq_true fun heq => hne (heq ▸ rfl)⟩
  | collect =>
    cases reply with
    | ok reply => exact List.mem_append_left _ hkey
    | error fault => exact hkey
  | _ => exact hkey

/-- A key stays owed until it is recorded. -/
theorem mem_owedAfter {key : String} {talk : Talk F} (hkey : key ∈ owed)
    (hnot : (⟨.record key, ()⟩ : (request : Request F) × request.Reply) ∉ talk) :
    key ∈ owedAfter shape owed talk := by
  induction talk generalizing owed with
  | nil => exact hkey
  | cons exchange talk ih =>
    obtain ⟨request, reply⟩ := exchange
    refine ih (mem_after_of_unrecorded hkey reply ?_) fun hin => hnot (List.mem_cons_of_mem _ hin)
    rintro rfl
    exact hnot List.mem_cons_self

/-- Whatever key a service was given, it records it before it ends. -/
theorem service_records {service : Service F} (hshape : service.shape? = some shape)
    {reply : Json} {key : String} (hgives : shape.Gives reply key) {before after : Talk F}
    {result : Except Fault service.Result}
    (hleads : (service.job s).run.Leads (before ++ ⟨.collect, .ok reply⟩ :: after) (.done result)) :
    ⟨.record key, ()⟩ ∈ after := by
  have hobeys : (owing shape).Obeys (fun owed _ => owed = []) [] (service.job s).run := by
    cases service with
    | evaluate expression shape lineage =>
      cases hshape
      exact owing_evaluate s expression lineage
    | installPrelude lineage => cases hshape
    | release lineage =>
      cases hshape
      cases hgives
    | invoke label template shape slots lineage =>
      cases hshape
      refine Discipline.IgnoresEndpoints.invoke owing_ignoresEndpoints (fun _ => rfl)
        (fun source => owing_evaluate s source lineage) (fun _ _ h => h) ?_
      rintro _ outcome endpoints rfl
      exact ⟨trivial, fun _ => rfl⟩
  by_contra hnot
  obtain ⟨middle, hbefore, hafter⟩ := hleads.split
  cases hafter with
  | ask _ hafter =>
    let owed := owedAfter shape [] before ++ shape.given reply
    have hcollected := (owing_leads hobeys hbefore).2 (.ok reply) trivial
    have hpaid : owedAfter shape owed after = [] := owing_leads hcollected hafter
    have howed : key ∈ owedAfter shape owed after :=
      mem_owedAfter (List.mem_append_right _ hgives.mem_given) hnot
    rw [hpaid] at howed
    cases howed

end Owing

end RemoteHost
