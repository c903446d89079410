import RemoteHost.Proofs.ArenaChanges
import RemoteHost.Proofs.Editor
import RemoteHost.Proofs.EnvelopeFormat

/-!
# Chains, fused or step by step

A chain of operations can be sent as one program, or some of the objects on the way can be resolved
first. The last operation comes to the same, and each object resolved on the way costs one program.
-/

namespace RemoteHost

variable {F σ Obj : Type}

/-- One call of a chain that returns an object, with a step or without, and whether the object is
materialized after it, if the call has not done so. -/
structure Link where
  suffix : String
  step : Option LineageId := none
  materialized : Option LineageId := none

/-- Leaves an object as it is, or materializes it in a lineage. -/
def resolveIn (st : Settings) (object : Proxy) : Option LineageId → Job F Proxy
  | none => pure object
  | some l => materialize st object l

def followLinks (st : Settings) : Proxy → List Link → Job F Proxy
  | object, [] => pure object
  | object, link :: links => do
    let next ← askObject st object link.suffix link.step
    let next ← resolveIn st next link.materialized
    followLinks st next links

/-- Asks the object at the end of a chain. -/
def askAlong (st : Settings) (root : Proxy) (atRoot : Option LineageId) (links : List Link)
    (last : Query) (step : Option LineageId) : Job F Answer := do
  let root ← resolveIn st root atRoot
  let object ← followLinks st root links
  last.ask st object step

namespace Link

/-- A call whose object is left pending. -/
def fused (link : Link) : Link := { suffix := link.suffix }

/-- Whether the object of a call is resolved on the way: by the call, which runs at once on a
resolved receiver, or after it. -/
def resolves (link : Link) (resolved : Bool) : Bool :=
  resolved && link.step.isSome || link.materialized.isSome

/-- How many of the objects of some calls are resolved on the way. -/
def resolutions : Bool → List Link → Nat
  | _, [] => 0
  | resolved, link :: links =>
    (link.resolves resolved).toNat + resolutions (link.resolves resolved) links

def endsResolved : Bool → List Link → Bool
  | resolved, [] => resolved
  | resolved, link :: links => endsResolved (link.resolves resolved) links

end Link

/-- What an answer stands for. -/
inductive Meant (Obj : Type) where
  | answer (answer : Answer)
  | nothing
  | object (o : Option Obj)
  | objects (os : List (Option Obj))

namespace Editor

variable {e : Editor σ Obj} {p : Party} {s s' : Session F} {v v' w w' : σ} {st : Settings}
  {object : Proxy} {o o' : Obj} {room : Nat}

/-- What an answer stands for, given the objects that are kept. -/
def meaning (e : Editor σ Obj) (w : σ) : Answer → Meant Obj
  | .object r => .object (r.key?.bind (e.stored w))
  | .optionalObject none => .nothing
  | .optionalObject (some r) => .object (r.key?.bind (e.stored w))
  | .objects rs => .objects (rs.map fun r => r.key?.bind (e.stored w))
  | other => .answer other

/-- What a query should tell about that to which its operation came. -/
def told (e : Editor σ Obj) (reading : Reading) :
    Except String (Option Obj) → Except Fault (Meant Obj)
  | .error message => .error (.remote message)
  | .ok none =>
    match reading with
    | .optionalObject => .ok .nothing
    | .object | .objects => .error (.transport (.unexpectedKind reading.shape .none))
    | _ => (reading.ofOutcome .absent).map .answer
  | .ok (some o) =>
    match reading with
    | .object | .optionalObject => .ok (.object (some o))
    | .objects =>
      match e.items o with
      | .error message => .error (.transport (.host message))
      | .ok items => .ok (.objects (items.map some))
    | _ =>
      match e.primitive o with
      | .error message => .error (.remote message)
      | .ok value => (reading.ofOutcome (.value value)).map .answer

/-! ## Objects that are kept -/

theorem stored_store (h : e.Lawful st) {key : String} (hkey : e.stored w key = some o) (o' : Obj) :
    e.stored (e.store o' w).2 key = some o := by
  have hne : key ≠ (e.store o' w).1 := by
    intro heq
    have hfresh := h.fresh o' w
    rw [← heq, hkey] at hfresh
    cases hfresh
  rw [h.keeps o' w key hne]
  exact hkey

theorem stored_storeAll (h : e.Lawful st) {key : String} (hkey : e.stored w key = some o)
    (items : List Obj) : e.stored (e.storeAll items w).2 key = some o := by
  induction items generalizing w with
  | nil => exact hkey
  | cons item items ih => exact ih (stored_store h hkey item)

theorem storeAll_stored (h : e.Lawful st) (items : List Obj) (w : σ) :
    (e.storeAll items w).1.map (e.stored (e.storeAll items w).2) = items.map some := by
  induction items generalizing w with
  | nil => rfl
  | cons item items ih =>
    have hfirst := stored_storeAll h (h.stores item w) items
    have hrest := ih (e.store item w).2
    simp only [storeAll, List.map_cons, hrest]
    exact congrArg (· :: _) hfirst

/-! ## What replies mean -/

/-- Answers without objects stand for themselves. -/
theorem meaning_plain {reading : Reading} {outcome : Outcome} {answer : Answer}
    (hshape : reading.shape = .value) (h : reading.ofOutcome outcome = .ok answer) (w : σ) :
    e.meaning w answer = .answer answer := by
  have plain : ∀ value, reading.ofValue value = .ok answer →
      e.meaning w answer = .answer answer := by
    intro value hvalue
    cases reading with
    | object | optionalObject | objects => cases hshape
    | unit | value =>
      cases hvalue
      rfl
    | integer =>
      simp only [Reading.ofValue] at hvalue
      split at hvalue <;> cases hvalue
      rfl
    | boolean | mapping =>
      simp only [Reading.ofValue] at hvalue
      split at hvalue <;> cases hvalue <;> rfl
    | optionalText =>
      simp only [Reading.ofValue] at hvalue
      split at hvalue <;> cases hvalue <;> rfl
    | texts =>
      simp only [Reading.ofValue] at hvalue
      split at hvalue
      · rename_i items
        cases htexts : textsOf items with
        | error fault => simp [htexts, Except.map] at hvalue
        | ok texts =>
          obtain rfl : .texts texts = answer := by simpa [htexts, Except.map] using hvalue
          rfl
      · cases hvalue
  have read : ∀ {value}, (reading.ofValue value).mapError
      (fun cause => Fault.transport (.malformed cause)) = .ok answer →
        reading.ofValue value = .ok answer := by
    intro value hread
    cases hvalue : reading.ofValue value with
    | error cause => simp [hvalue, Except.mapError] at hread
    | ok found => simpa [hvalue, Except.mapError] using hread
  cases reading <;> cases hshape <;> cases outcome with
  | handle key => cases h
  | value v => exact plain v (read h)
  | absent => exact plain .null (read h)

/-- A query without objects tells what it reads. -/
theorem map_meaning (reading : Reading) (hshape : reading.shape = .value) (outcome : Outcome)
    (w : σ) : (reading.ofOutcome outcome).map (e.meaning w) =
      (reading.ofOutcome outcome).map .answer := by
  cases hread : reading.ofOutcome outcome with
  | error fault => rfl
  | ok answer => exact congrArg Except.ok (meaning_plain hshape hread w)

theorem outcomeOf_envelope (shape : ResultShape) (envelope : Envelope) :
    outcomeOf shape (.json envelope.toJson) = match envelope.outcome with
      | .error message => .error (.remote message)
      | .ok outcome => (shape.accept outcome).mapError .transport := by
  simp only [outcomeOf, Replay.result, outcomeOfShape, outcomeOfReply_toJson]
  cases envelope.outcome with
  | error message => rfl
  | ok outcome =>
    dsimp only
    cases shape.accept outcome <;> rfl

/-- What is read from a reply, and what that stands for. -/
def readAs (e : Editor σ Obj) (reading : Reading) (w : σ) (outcome : Except Fault Outcome) :
    Except Fault (Meant Obj) :=
  match outcome with
  | .error fault => .error fault
  | .ok outcome => (reading.ofOutcome outcome).map (e.meaning w)

theorem told_none {reading : Reading} (hshape : reading.shape = .value) :
    e.told reading (.ok none) = (reading.ofOutcome .absent).map .answer := by
  cases reading <;> first | rfl | cases hshape

theorem told_some {reading : Reading} (hshape : reading.shape = .value) (o : Obj) :
    e.told reading (.ok (some o)) = match e.primitive o with
      | .error message => .error (.remote message)
      | .ok value => (reading.ofOutcome (.value value)).map .answer := by
  cases reading <;> first | rfl | cases hshape

/-- A query tells what its operation came to. -/
theorem told_of_reply (h : e.Lawful st) (reading : Reading) (result : Except String (Option Obj))
    (w : σ) :
    e.readAs reading (e.reply reading.shape (result, w)).2
      (outcomeOf reading.shape (e.reply reading.shape (result, w)).1) = e.told reading result := by
  cases result with
  | error message => simp only [reply, outcomeOf_envelope, Envelope.outcome, readAs, told]
  | ok found =>
    by_cases hshape : reading.shape = .value
    · rw [hshape]
      cases found with
      | none =>
        rw [told_none hshape]
        simp only [reply, outcomeOf_envelope, Envelope.outcome]
        exact map_meaning reading hshape .absent w
      | some o =>
        rw [told_some hshape]
        simp only [reply]
        cases e.primitive o with
        | error message => simp only [outcomeOf_envelope, Envelope.outcome, readAs]
        | ok value =>
          simp only [outcomeOf_envelope, Envelope.outcome]
          exact map_meaning reading hshape (.value value) w
    · cases found with
      | none =>
        simp only [reply, outcomeOf_envelope, Envelope.outcome]
        cases reading <;> rfl
      | some o =>
        cases reading with
        | object | optionalObject =>
          simp only [reply, Reading.shape, outcomeOf_envelope, Envelope.outcome]
          exact congrArg (fun found => Except.ok (Meant.object found)) (h.stores o w)
        | objects =>
          simp only [reply, Reading.shape, told]
          cases e.items o with
          | error message => rfl
          | ok items =>
            have hkept := storeAll_stored h items w
            have haccept : ResultShape.handleList.accept
                (.value (.array ((e.storeAll items w).1.map .string))) =
                  .ok (.value (.array ((e.storeAll items w).1.map .string))) := rfl
            have hkeys : handleKeys (.array ((e.storeAll items w).1.map .string)) =
                .ok (e.storeAll items w).1 := handleKeys_eq_ok.mpr rfl
            simp only [outcomeOf_envelope, Envelope.outcome, haccept, Except.mapError, readAs,
              Reading.ofOutcome, hkeys, Except.map, meaning, List.map_map]
            exact congrArg (fun found => Except.ok (Meant.objects found)) hkept
        | _ => exact absurd rfl hshape

/-! ## Jobs -/

/-- A proxy stands for an object: its expression yields the object, and leaves the editor, apart
from the objects that are kept, where it would be without anything resolved on the way. -/
structure Stands (e : Editor σ Obj) (st : Settings) (s : Session F) (object : Proxy) (v w : σ)
    (o : Obj) (room : Nat) : Prop where
  atRest : s.AtRest
  expression : e.isExpression (object.source st)
  denotes : ∃ v', e.eval (object.source st) v = (.ok (some o), v') ∧ e.alike v' w
  usable : ∀ key, object = .resolved key → s.arena.isReleased key = false
  room : ∀ most, st.maxChainLength = some most → object.links + room ≤ most

/-- Resolving an expression keeps its object under a new key. -/
theorem attend_handle (h : e.Lawful st) (hrest : s.AtRest) {expression : String}
    (hexpression : e.isExpression expression)
    (heval : e.eval expression v = (.ok (some o), v')) (halike : e.alike v' w) (l : LineageId) :
    ∃ key s' v'', e.attend p (evaluate st expression .handle l).run s v =
        (some (.ok (.handle key)), s', v'') ∧
      s.Served s' [Program.enveloped st expression .handle] [key] ∧
      ∀ room, (∀ most, st.maxChainLength = some most → room ≤ most) →
        Stands e st s' (.resolved key) v'' w o room := by
  have hreply : e.reply .handle (e.eval expression v) =
      (.json (Envelope.handle (e.store o v').1).toJson, (e.store o v').2) := by
    rw [heval]
    rfl
  have houtcome : outcomeOf .handle (.json (Envelope.handle (e.store o v').1).toJson) =
      .ok (.handle (e.store o v').1) := outcomeOf_envelope _ _
  obtain ⟨s', hserved, hattend⟩ := attend_evaluate (p := p) h hrest hexpression .handle l hreply
  rw [houtcome] at hserved hattend
  refine ⟨_, s', _, hattend, hserved, fun room hroom => ?_⟩
  refine { atRest := hserved.atRest, expression := h.handle _, denotes := ?_, usable := ?_,
           room := ?_ }
  · exact ⟨_, h.refers _ _ _ (h.stores o v'),
      h.alike_trans _ _ _ (h.store_alike o v') halike⟩
  · rintro key heq
    cases heq
    rw [hserved.arena]
    refine Bool.eq_false_iff.mpr fun hreleased => ?_
    exact (Arena.isReleased_restore_iff.mp hreleased).1 (List.mem_singleton_self _)
  · intro most hmost
    simpa [Proxy.links] using hroom most hmost

theorem attend_refuseReleased (hstands : Stands e st s object v w o room) :
    e.attend p (refuseReleased object : Job F Unit).run s v = (some (.ok ()), s, v) := by
  cases object with
  | pending chain => rfl
  | resolved key =>
    have hask : e.attend p (Job.isReleased key : Job F Bool).run s v =
        (some (.ok false), s, v) := by
      have hunreleased := hstands.usable key rfl
      change (some (Except.ok (s.arena.isReleased key)), s, v) = _
      rw [hunreleased]
    exact attend_job_ok hask _

/-- Within the limit an operation is deferred unless it can run now. -/
theorem dispatch_deferred (hstands : Stands e st s object v w o (room + 1)) (op : Operation)
    {step : Option LineageId} (hlazy : (object.isResolved && step.isSome) = false) :
    dispatch st object op step = .ok (.deferred (deferredCall st object op)) := by
  have hlimit : defer st object op = .ok (deferredCall st object op) := by
    unfold defer
    dsimp only
    split
    · rfl
    · rename_i most hmost
      have hroom := hstands.room most hmost
      rw [if_neg]
      simp only [deferredCall]
      omega
  cases object with
  | pending chain => simp [dispatch, hlimit, Except.map]
  | resolved key =>
    cases step with
    | none => simp [dispatch, hlimit, Except.map]
    | some l => cases hlazy

theorem attend_call_deferred (hstands : Stands e st s object v w o (room + 1)) (op : Operation)
    {step : Option LineageId} (hlazy : (object.isResolved && step.isSome) = false) :
    e.attend p (call st object op step : Job F Call).run s v =
      (some (.ok (.pending (deferredCall st object op))), s, v) := by
  unfold call
  refine (attend_job_ok (attend_refuseReleased hstands) _).trans ?_
  rw [dispatch_deferred hstands op hlazy]
  rfl

theorem attend_call_eager {key : String} (hstands : Stands e st s (.resolved key) v w o room)
    (op : Operation) (l : LineageId) {outcome : Except Fault Outcome}
    (hevaluate : e.attend p (evaluate st (Program.handleRef st key ++ op.suffix) op.shape l).run s
      v = (some outcome, s', v')) :
    e.attend p (call st (.resolved key) op (some l) : Job F Call).run s v =
      (some (outcome.map .resolved), s', v') := by
  unfold call
  refine (attend_job_ok (attend_refuseReleased hstands) _).trans ?_
  cases outcome with
  | error fault => exact attend_job_error hevaluate _
  | ok outcome => exact attend_job_ok hevaluate _

/-- The expression of an operation on an object that a proxy stands for. -/
theorem Stands.applied (h : e.Lawful st) (hstands : Stands e st s object v w o room)
    {suffix : String} (hsuffix : e.isOperation suffix) : ∃ v',
      e.isExpression (object.source st ++ suffix) ∧
      e.eval (object.source st ++ suffix) v = ((e.perform suffix o w).1, v') ∧
      e.alike v' (e.perform suffix o w).2 := by
  obtain ⟨v₁, heval, halike⟩ := hstands.denotes
  obtain ⟨hsame, hstill⟩ := h.perform_alike suffix o v₁ w hsuffix halike
  refine ⟨(e.perform suffix o v₁).2, h.longer _ _ hstands.expression hsuffix, ?_, hstill⟩
  rw [h.applies _ _ _ _ _ hstands.expression hsuffix heval, ← hsame]

/-- A call that returns an object. It runs at once on a resolved receiver with a step, in one
program; otherwise nothing is sent. -/
theorem attend_askObject (h : e.Lawful st) (hstands : Stands e st s object v w o (room + 1))
    {suffix : String} (hsuffix : e.isOperation suffix)
    (hperform : e.perform suffix o w = (.ok (some o'), w')) (step : Option LineageId) :
    ∃ next s' v' programs keys,
      e.attend p (askObject st object suffix step).run s v = (some (.ok next), s', v') ∧
      s.Served s' programs keys ∧ programs.length = (object.isResolved && step.isSome).toNat ∧
      next.isResolved = (object.isResolved && step.isSome) ∧
      Stands e st s' next v' w' o' room := by
  obtain ⟨v₁, hexpression, heval, halike⟩ := hstands.applied h hsuffix
  rw [hperform] at heval halike
  by_cases hlazy : (object.isResolved && step.isSome) = false
  · have hcall := attend_call_deferred (p := p) hstands ⟨suffix, .handle⟩ hlazy
    refine ⟨(deferredCall st object ⟨suffix, .handle⟩).proxy, s, v, [], [], attend_job_ok hcall _,
      Session.Served.refl hstands.atRest, ?_, ?_, ?_⟩
    · rw [hlazy]
      rfl
    · rw [hlazy]
      rfl
    · refine { atRest := hstands.atRest, expression := hexpression, denotes := ⟨v₁, heval, halike⟩,
               usable := nofun, room := ?_ }
      intro most hmost
      have hroom := hstands.room most hmost
      change object.links + 1 + room ≤ most
      omega
  · cases object with
    | pending chain => exact absurd rfl hlazy
    | resolved key =>
      cases step with
      | none => exact absurd rfl hlazy
      | some l =>
        obtain ⟨key', s', v₂, hevaluate, hserved, hnext⟩ :=
          attend_handle (p := p) h hstands.atRest hexpression heval halike l
        have hcall := attend_call_eager hstands ⟨suffix, .handle⟩ l hevaluate
        refine ⟨.resolved key', s', v₂, _, _, attend_job_ok hcall _, hserved, rfl, rfl,
          hnext room fun most hmost => ?_⟩
        have hroom := hstands.room most hmost
        omega

/-- Resolving an object on the way costs one program, unless it is resolved already. -/
theorem attend_resolveIn (h : e.Lawful st) (hstands : Stands e st s object v w o room)
    (choice : Option LineageId) : ∃ next s' v' programs keys,
      e.attend p (resolveIn st object choice).run s v = (some (.ok next), s', v') ∧
      s.Served s' programs keys ∧
      programs.length = (!object.isResolved && choice.isSome).toNat ∧
      next.isResolved = (object.isResolved || choice.isSome) ∧
      Stands e st s' next v' w o room := by
  cases choice with
  | none =>
    refine ⟨object, s, v, [], [], rfl, Session.Served.refl hstands.atRest, ?_, ?_, hstands⟩
    · simp
    · simp
  | some l =>
    cases object with
    | resolved key =>
      exact ⟨.resolved key, s, v, [], [], rfl, Session.Served.refl hstands.atRest, rfl, rfl,
        hstands⟩
    | pending chain =>
      obtain ⟨v₁, heval, halike⟩ := hstands.denotes
      obtain ⟨key, s', v₂, hevaluate, hserved, hnext⟩ :=
        attend_handle (p := p) h hstands.atRest hstands.expression heval halike l
      refine ⟨.resolved key, s', v₂, _, _, attend_job_ok hevaluate _, hserved, rfl, rfl,
        hnext room fun most hmost => ?_⟩
      have hroom := hstands.room most hmost
      omega

/-- Where operations lead that all return objects, one after another. -/
def follow (e : Editor σ Obj) : List String → Obj → σ → Option (Obj × σ)
  | [], o, w => some (o, w)
  | suffix :: rest, o, w =>
    match e.perform suffix o w with
    | (.ok (some o'), w') => e.follow rest o' w'
    | _ => none

theorem follow_cons {suffix : String} {rest : List String} {end_ : Obj × σ}
    (h : e.follow (suffix :: rest) o w = some end_) : ∃ o' w',
      e.perform suffix o w = (.ok (some o'), w') ∧ e.follow rest o' w' = some end_ := by
  simp only [follow] at h
  split at h
  · rename_i o' w' hperform
    exact ⟨o', w', hperform, h⟩
  · cases h

theorem toNat_or (a b : Bool) : (a || b).toNat = a.toNat + (!a && b).toNat := by
  cases a <;> cases b <;> rfl

/-- Along a chain, one program is sent for each object that is resolved on the way. -/
theorem attend_followLinks (h : e.Lawful st) {links : List Link}
    (hstands : Stands e st s object v w o (room + links.length))
    (hsuffixes : ∀ link ∈ links, e.isOperation link.suffix) {end_ : Obj × σ}
    (hfollow : e.follow (links.map (·.suffix)) o w = some end_) :
    ∃ next s' v' programs keys,
      e.attend p (followLinks st object links).run s v = (some (.ok next), s', v') ∧
      s.Served s' programs keys ∧
      programs.length = Link.resolutions object.isResolved links ∧
      next.isResolved = Link.endsResolved object.isResolved links ∧
      Stands e st s' next v' end_.2 end_.1 room := by
  induction links generalizing s v w o object with
  | nil =>
    obtain rfl := Option.some.inj hfollow
    exact ⟨object, s, v, [], [], rfl, Session.Served.refl hstands.atRest, rfl, rfl, hstands⟩
  | cons link links ih =>
    obtain ⟨o', w', hperform, hrest⟩ := follow_cons hfollow
    obtain ⟨called, s₁, v₁, programs₁, keys₁, hcall, hserved₁, hcount₁, hresolved₁, hstands₁⟩ :=
      attend_askObject (p := p) h hstands (hsuffixes link List.mem_cons_self) hperform link.step
    obtain ⟨next, s₂, v₂, programs₂, keys₂, hresolve, hserved₂, hcount₂, hresolved₂, hstands₂⟩ :=
      attend_resolveIn (p := p) h hstands₁ link.materialized
    rw [hresolved₁] at hcount₂ hresolved₂
    obtain ⟨last, s₃, v₃, programs₃, keys₃, hfollowed, hserved₃, hcount₃, hresolved₃, hstands₃⟩ :=
      ih hstands₂ (fun l hl => hsuffixes l (List.mem_cons_of_mem link hl)) hrest
    rw [hresolved₂] at hcount₃ hresolved₃
    have hserved := (hserved₁.trans hserved₂).trans hserved₃
    refine ⟨last, s₃, v₃, _, _, ?_, hserved, ?_, hresolved₃, hstands₃⟩
    · exact (attend_job_ok hcall _).trans ((attend_job_ok hresolve _).trans hfollowed)
    · rw [List.length_append, List.length_append, hcount₁, hcount₂, hcount₃, ← toNat_or]
      rfl

theorem served_newLineage (hrest : s.AtRest) (label : String) :
    s.Served (s.addLineage label none).2 [] [] where
  atRest l x hx := by
    change (s.lineages ++ [{ label, parent := none }])[l]? = some x at hx
    rcases Nat.lt_or_ge l s.lineages.length with hl | hl
    · rw [List.getElem?_append_left hl] at hx
      exact hrest l x hx
    · rw [List.getElem?_append_right hl] at hx
      rw [List.mem_singleton.mp (List.mem_of_getElem? hx)]
  events := (List.append_nil _).symm
  arena := rfl

/-- An operation that is not deferred is run by one program, whatever it is called on. -/
theorem attend_settle (h : e.Lawful st) (hstands : Stands e st s object v w o 1) (op : Operation)
    (hsuffix : e.isOperation op.suffix) {step : Option LineageId}
    (hstep : step = none → object.isResolved = true) : ∃ s' v₁ program keys,
      e.attend p (settle st object op step : Job F Outcome).run s v =
        (some (outcomeOf op.shape (e.reply op.shape ((e.perform op.suffix o w).1, v₁)).1), s',
          (e.reply op.shape ((e.perform op.suffix o w).1, v₁)).2) ∧
      s.Served s' [program] keys := by
  obtain ⟨v₁, hexpression, heval, -⟩ := hstands.applied h hsuffix
  have hreply : e.reply op.shape (e.eval (object.source st ++ op.suffix) v) =
      ((e.reply op.shape ((e.perform op.suffix o w).1, v₁)).1,
        (e.reply op.shape ((e.perform op.suffix o w).1, v₁)).2) := by rw [heval]
  have hevaluate := fun {s₁ : Session F} (hrest : s₁.AtRest) (l : LineageId) =>
    attend_evaluate (p := p) h hrest hexpression op.shape l hreply
  by_cases hlazy : (object.isResolved && step.isSome) = false
  · have hcall := attend_call_deferred (p := p) hstands op hlazy
    cases step with
    | some l =>
      obtain ⟨s', hserved, hrun⟩ := hevaluate hstands.atRest l
      exact ⟨s', v₁, _, _, (attend_job_ok hcall _).trans hrun, hserved⟩
    | none =>
      have hnew := served_newLineage hstands.atRest ""
      obtain ⟨s', hserved, hrun⟩ := hevaluate hnew.atRest s.lineages.length
      have hlineage : e.attend p (Job.newLineage "" : Job F LineageId).run s v =
          (some (.ok s.lineages.length), (s.addLineage "" none).2, v) := rfl
      have hresolve : ((deferredCall st object op).resolve st none : Job F Outcome) =
          (Job.newLineage "" >>= evaluate st (object.source st ++ op.suffix) op.shape) := by
        simp only [PendingCall.resolve, deferredCall, hstep rfl, if_true]
        rfl
      refine ⟨s', v₁, _, _, (attend_job_ok hcall _).trans ?_, hnew.trans hserved⟩
      change e.attend p ((deferredCall st object op).resolve st none).run s v = _
      rw [hresolve]
      exact (attend_job_ok hlineage _).trans hrun
  · cases object with
    | pending chain => exact absurd rfl hlazy
    | resolved key =>
      cases step with
      | none => exact absurd rfl hlazy
      | some l =>
        obtain ⟨s', hserved, hrun⟩ := hevaluate hstands.atRest l
        have hcall := attend_call_eager hstands op l hrun
        refine ⟨s', v₁, _, _, ?_, hserved⟩
        cases houtcome : outcomeOf op.shape
            (e.reply op.shape ((e.perform op.suffix o w).1, v₁)).1 with
        | error fault =>
          rw [houtcome] at hcall
          exact attend_job_error hcall _
        | ok outcome =>
          rw [houtcome] at hcall
          exact attend_job_ok hcall _

/-- The last query of a chain sends one program and tells what its operation comes to. -/
theorem attend_ask (h : e.Lawful st) (hstands : Stands e st s object v w o 1) (last : Query)
    (hlast : last.reading ≠ .object) (hsuffix : e.isOperation last.suffix) {step : Option LineageId}
    (hstep : step = none → object.isResolved = true) : ∃ result s' v' program keys,
      e.attend p (last.ask st object step : Job F Answer).run s v = (some result, s', v') ∧
      s.Served s' [program] keys ∧
      result.map (e.meaning v') = e.told last.reading (e.perform last.suffix o w).1 := by
  obtain ⟨s', v₁, program, keys, hsettle, hserved⟩ :=
    attend_settle (p := p) h hstands last.operation hsuffix hstep
  have htold := told_of_reply h last.reading (e.perform last.suffix o w).1 v₁
  generalize hreply :
    e.reply last.reading.shape ((e.perform last.suffix o w).1, v₁) = reply at htold
  change e.attend p (settle st object last.operation step).run s v =
    (some (outcomeOf last.reading.shape (e.reply last.reading.shape
      ((e.perform last.suffix o w).1, v₁)).1), s', (e.reply last.reading.shape
      ((e.perform last.suffix o w).1, v₁)).2) at hsettle
  rw [hreply] at hsettle
  have hask : (last.ask st object step : Job F Answer) =
      (settle st object last.operation step >>= fun outcome =>
        ExceptT.mk (pure (last.reading.ofOutcome outcome))) := if_neg hlast
  rw [hask]
  cases houtcome : outcomeOf last.reading.shape reply.1 with
  | error fault =>
    rw [houtcome] at hsettle htold
    exact ⟨.error fault, s', reply.2, program, keys, attend_job_error hsettle _, hserved, htold⟩
  | ok outcome =>
    rw [houtcome] at hsettle htold
    exact ⟨last.reading.ofOutcome outcome, s', reply.2, program, keys, attend_job_ok hsettle _,
      hserved, htold⟩

end Editor

end RemoteHost
