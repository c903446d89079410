import RemoteHost.Proofs.RoutineDiscipline
import RemoteHost.Proofs.SessionInterleaving

/-!
# What services do with keys

A service records every key that it gives to its caller. A release drains keys, sends their release
program at most once, and takes them back unless the host tells that it has dropped them.
-/

namespace RemoteHost

variable {F : Type}

/-- What has become of the keys that a release drained. -/
inductive Batch where
  | none
  | drained (keys : List String)
  | sent (keys : List String)
  | dropped (keys : List String)

/-- The keys that a party recorded and those that it drained, since its service began. -/
structure Custody where
  received : List String := []
  batch : Batch := .none

def releaseProgram (s : Settings) (keys : List String) : String :=
  Program.enveloped s (Program.releaseExpression s keys) .value

/-- Whether the reply to a release program tells how many handles the host dropped. -/
def tellsDropped (reply : Json) : Bool :=
  match outcomeOfShape .value reply with
  | .ok (.value count) => count.nat?.isSome
  | _ => false

namespace Batch

/-- The keys that a release still has to account for. -/
def pending : Batch → List String
  | .drained keys | .sent keys => keys
  | .none | .dropped _ => []

/-- A release sends its own program, and that only once. -/
def MaySubmit (s : Settings) (program : String) : Batch → Prop
  | .none => True
  | .drained keys => program = releaseProgram s keys
  | .sent _ | .dropped _ => False

def submitted : Batch → Batch
  | .drained keys => .sent keys
  | batch => batch

def answered (batch : Batch) (answer : Except TransportFault Json) : Batch :=
  match batch, answer with
  | .sent keys, .ok reply => if tellsDropped reply then .dropped keys else .drained keys
  | .sent keys, .error _ => .drained keys
  | batch, _ => batch

theorem pending_submitted (batch : Batch) : batch.submitted.pending = batch.pending := by
  cases batch <;> rfl

theorem of_submitted {s : Settings} {batch : Batch} {program : String} {keys : List String}
    (hmay : batch.MaySubmit s program)
    (h : batch.submitted = .drained keys ∨ batch.submitted = .sent keys) :
    batch = .drained keys ∧ program = releaseProgram s keys := by
  cases batch with
  | none => rcases h with h | h <;> cases h
  | drained other =>
    rcases h with h | h
    · cases h
    · cases h
      exact ⟨rfl, hmay⟩
  | sent | dropped => exact hmay.elim

theorem answered_sent (keys : List String) (reply : Json) :
    (sent keys).answered (.ok reply) =
      if tellsDropped reply then .dropped keys else .drained keys := rfl

theorem of_answered {batch : Batch} {answer : Except TransportFault Json} {keys : List String}
    (h : batch.answered answer = .drained keys ∨ batch.answered answer = .sent keys) :
    batch = .drained keys ∨ batch = .sent keys := by
  cases batch with
  | none | dropped => rcases h with h | h <;> cases h
  | drained other => exact h
  | sent other =>
    right
    cases answer with
    | error fault =>
      rcases h with h | h
      · cases h
        rfl
      · cases h
    | ok reply =>
      rw [answered_sent] at h
      by_cases htells : tellsDropped reply = true
      · rw [if_pos htells] at h
        rcases h with h | h <;> cases h
      · rw [if_neg htells] at h
        rcases h with h | h <;> cases h
        rfl

theorem answered_ne_sent (batch : Batch) (answer : Except TransportFault Json)
    (keys : List String) : batch.answered answer ≠ .sent keys := by
  intro h
  cases batch with
  | none | drained | dropped => cases h
  | sent other =>
    cases answer with
    | error fault => cases h
    | ok reply =>
      rw [answered_sent] at h
      by_cases htells : tellsDropped reply = true
      · rw [if_pos htells] at h
        cases h
      · rw [if_neg htells] at h
        cases h

/-- An answer leaves a key in its batch, unless it tells that the host has dropped it. -/
theorem pending_answered {batch : Batch} {key : String} (hkey : key ∈ batch.pending)
    (answer : Except TransportFault Json) : key ∈ (batch.answered answer).pending ∨
      ∃ keys reply, batch = .sent keys ∧ answer = .ok reply ∧ tellsDropped reply = true := by
  cases batch with
  | none | drained | dropped => exact .inl hkey
  | sent keys =>
    cases answer with
    | error fault => exact .inl hkey
    | ok reply =>
      by_cases htells : tellsDropped reply = true
      · exact .inr ⟨keys, reply, rfl, rfl, htells⟩
      · left
        rw [answered_sent, if_neg htells]
        exact hkey

end Batch

/-- Only a release drains, and what it drained it releases or takes back. -/
def custody (s : Settings) (releasing : Bool) : Discipline F Custody where
  allows c
    | .drain => releasing = true ∧ c.batch = .none
    | .restore keys => c.batch = .drained keys
    | .submit program => c.batch.MaySubmit s program
    | _ => True
  expects _ _ _ := True
  after c
    | .record key, _ => { c with received := key :: c.received }
    | .drain, keys => { c with batch := .drained keys }
    | .restore _, _ => { c with batch := .none }
    | .submit _, _ => { c with batch := c.batch.submitted }
    | .collect, answer => { c with batch := c.batch.answered answer }
    | _, _ => c

/-- The keys that a service gives to its caller. -/
def Service.keys : (service : Service F) → Except Fault service.Result → List String
  | .evaluate _ shape _, .ok outcome => shape.received outcome
  | .invoke _ _ shape _ _, .ok invoked => shape.received invoked.outcome
  | _, _ => []

def Service.isRelease : Service F → Bool
  | .release _ => true
  | _ => false

/-- How a service ends: no key is left to be accounted for, and those it gives were recorded. -/
def Service.Accounts (service : Service F) (c : Custody) (result : Except Fault service.Result) :
    Prop :=
  c.batch.pending = [] ∧ ∀ key ∈ service.keys result, key ∈ c.received

variable {s : Settings} {releasing : Bool} {c : Custody} {keys : List String}

/-- Only a release comes to have a batch. -/
theorem custody_batch {request : Request F} (hallowed : (custody s releasing).allows c request)
    (h : c.batch = .none ∨ releasing = true) (reply : request.Reply) :
    ((custody s releasing).after c request reply).batch = .none ∨ releasing = true := by
  rcases h with hbatch | hreleasing
  · cases request with
    | drain => exact .inr hallowed.1
    | submit program => exact .inl (congrArg Batch.submitted hbatch)
    | collect => exact .inl (congrArg (Batch.answered · reply) hbatch)
    | restore => exact .inl rfl
    | _ => exact .inl hbatch
  · exact .inr hreleasing

/-! ## Recording -/

theorem recordAll_received (keys : List String) : (custody s releasing).Obeys
    (fun c' result => result = .ok () ∧ c'.batch = c.batch ∧
      ∀ key, key ∈ keys ∨ key ∈ c.received → key ∈ c'.received) c
    (recordAll keys : Job F Unit).run := by
  induction keys generalizing c with
  | nil => exact ⟨rfl, rfl, by simp⟩
  | cons first rest ih =>
    refine Discipline.obeys_ask.mpr ⟨trivial, fun _ _ => ?_⟩
    refine (ih (c := { c with received := first :: c.received })).mono ?_
    rintro c' result ⟨hok, hbatch, hreceived⟩
    refine ⟨hok, hbatch, fun key hkey => hreceived key ?_⟩
    rcases hkey with hkey | hkey
    · rcases List.mem_cons.mp hkey with rfl | hkey
      · exact .inr List.mem_cons_self
      · exact .inl hkey
    · exact .inr (List.mem_cons_of_mem _ hkey)

/-- A party that has drained nothing can make round trips as it likes. -/
theorem custody_ignoresTurns (hbatch : c.batch = .none) :
    (custody (F := F) s releasing).IgnoresTurns c := by
  obtain ⟨received, batch⟩ := c
  subst hbatch
  exact {
    enter := fun _ _ => ⟨trivial, fun _ => rfl⟩
    submit := fun _ => ⟨trivial, fun _ => rfl⟩
    collect := ⟨trivial, fun _ => rfl⟩
    complete := fun _ => ⟨trivial, fun _ => rfl⟩ }

/-- A party that has drained nothing, and whose result holds only keys that it recorded. -/
def Records {α : Type} (given : α → List String) (c : Custody) (result : Except Fault α) : Prop :=
  c.batch = .none ∧ ∀ a, result = .ok a → ∀ key ∈ given a, key ∈ c.received

theorem records_error {α : Type} {given : α → List String} (hbatch : c.batch = .none)
    (fault : Fault) : Records given c (.error fault) := ⟨hbatch, nofun⟩

theorem evaluate_records (hbatch : c.batch = .none) (expression : String) (shape : ResultShape)
    (lineage : LineageId) : (custody s releasing).Obeys (Records shape.received) c
      (evaluate s expression shape lineage : Job F Outcome).run := by
  refine ((custody_ignoresTurns hbatch).roundTrip s _ lineage).andThen ?_ ?_
  · rintro _ reply rfl
    cases outcomeOfShape shape reply with
    | error fault => exact records_error hbatch fault
    | ok outcome =>
      refine (recordAll_received (shape.received outcome)).andThen ?_ nofun
      rintro c' _ ⟨-, hsame, hreceived⟩
      refine ⟨hsame.trans hbatch, ?_⟩
      rintro _ ⟨⟩ key hkey
      exact hreceived key (.inl hkey)
  · rintro _ fault rfl
    exact records_error hbatch fault

/-! ## Releasing -/

/-- Where the release program of a batch was answered, the batch is dropped if the reply tells so;
otherwise it is as it was drained. -/
theorem roundTrip_releases (hbatch : c.batch = .drained keys) (lineage : LineageId) :
    (custody s true).Obeys (fun c' result => c'.batch = match result with
        | .ok reply => (Batch.sent keys).answered (.ok reply)
        | .error _ => .drained keys) c
      (roundTrip s (releaseProgram s keys) lineage : Job F Json).run := by
  refine Discipline.Obeys.andThen (Q := fun c' _ => c'.batch = .drained keys) ?_ ?_
    (fun _ _ h => h)
  · refine Discipline.obeys_ask.mpr ⟨trivial, fun turn _ => ?_⟩
    cases turn <;> exact hbatch
  · rintro ⟨received, batch⟩ _ rfl
    refine Discipline.obeys_ask.mpr ⟨rfl, fun _ _ => ?_⟩
    refine Discipline.obeys_ask.mpr ⟨trivial, fun reply _ => ?_⟩
    refine Discipline.obeys_ask.mpr ⟨trivial, fun _ _ => ?_⟩
    cases reply <;> rfl

theorem evaluate_releases (hbatch : c.batch = .drained keys) (lineage : LineageId) :
    (custody s true).Obeys (fun c' result => c'.batch = match result with
        | .ok (.value count) => if count.nat?.isSome then .dropped keys else .drained keys
        | _ => .drained keys) c
      (evaluate s (Program.releaseExpression s keys) .value lineage : Job F Outcome).run := by
  refine (roundTrip_releases hbatch lineage).andThen ?_ (fun _ _ h => h)
  intro c' reply hanswered
  dsimp only at hanswered
  rw [Batch.answered_sent, tellsDropped] at hanswered
  cases hshape : outcomeOfShape .value reply with
  | error fault =>
    rw [hshape] at hanswered
    exact hanswered
  | ok outcome =>
    rw [hshape] at hanswered
    refine (recordAll_received (ResultShape.value.received outcome)).andThen ?_ nofun
    rintro c'' _ ⟨-, hsame, -⟩
    cases outcome <;> exact hsame.trans hanswered

/-- A batch is dropped exactly if its release gives a count. -/
theorem evaluateAs_releases (hbatch : c.batch = .drained keys) (lineage : LineageId) :
    (custody s true).Obeys (fun c' result => c'.batch = match result with
        | .ok _ => .dropped keys
        | .error _ => .drained keys) c
      (evaluateAs s (Program.releaseExpression s keys) .value lineage readReleaseCount :
        Job F Nat).run := by
  refine (evaluate_releases hbatch lineage).andThen ?_ (fun _ _ h => h)
  intro c' outcome hafter
  cases outcome with
  | value count =>
    dsimp only at hafter ⊢
    unfold readReleaseCount
    cases hcount : count.nat? with
    | none =>
      rw [hcount] at hafter
      exact hafter
    | some n =>
      rw [hcount] at hafter
      exact hafter
  | absent => exact hafter
  | handle key => exact hafter

/-- A release accounts for all keys that it drains. -/
theorem releaseHandles_accounts (lineage : LineageId) :
    (custody s true).Obeys (fun c' _ => c'.batch.pending = []) {}
      (releaseHandles s lineage : Job F Nat).run := by
  refine Discipline.obeys_ask.mpr ⟨⟨rfl, rfl⟩, fun (keys : List String) _ => ?_⟩
  cases keys with
  | nil => rfl
  | cons first rest =>
    refine Discipline.Obeys.orElse (evaluateAs_releases rfl lineage) ?_ ?_
    · intro c' count hafter
      dsimp only at hafter
      rw [hafter]
      rfl
    · intro c' fault hafter
      exact Discipline.obeys_ask.mpr ⟨hafter, fun _ _ => rfl⟩

/-! ## Invoking -/

theorem custody_ignoresEndpoints (c : Custody) :
    (custody (F := F) s releasing).IgnoresEndpoints c where
  opening := ⟨trivial, fun _ => rfl⟩
  closing _ := ⟨trivial, fun _ => rfl⟩

theorem invoke_records (label template : String) (shape : ResultShape) (slots : List (Slot F))
    (lineage : LineageId) : (custody s releasing).Obeys
      (Records fun invoked : Invoked => shape.received invoked.outcome) {}
      (invoke s label template shape slots lineage).run := by
  refine Discipline.IgnoresEndpoints.invoke custody_ignoresEndpoints (records_error rfl)
    (fun source => evaluate_records rfl source shape lineage) ?_ ?_
  · rintro c' fault ⟨hbatch, -⟩
    exact records_error hbatch fault
  · rintro c' outcome endpoints ⟨hbatch, hreceived⟩
    refine ⟨trivial, fun _ => ⟨hbatch, ?_⟩⟩
    rintro _ ⟨⟩
    exact hreceived outcome rfl

/-- Every service accounts for the keys that pass through it. -/
theorem service_accounts (s : Settings) (service : Service F) :
    (custody s service.isRelease).Obeys service.Accounts {} (service.job s).run := by
  cases service with
  | evaluate expression shape lineage =>
    refine (evaluate_records rfl expression shape lineage).mono ?_
    rintro c' result ⟨hbatch, hreceived⟩
    refine ⟨by rw [hbatch]; rfl, ?_⟩
    cases result with
    | ok outcome => exact hreceived outcome rfl
    | error fault => nofun
  | installPrelude lineage =>
    refine ((custody_ignoresTurns rfl).installPrelude s lineage).mono ?_
    rintro _ result rfl
    exact ⟨rfl, by simp [Service.keys]⟩
  | release lineage =>
    refine (releaseHandles_accounts lineage).mono ?_
    exact fun c' result hpending => ⟨hpending, by simp [Service.keys]⟩
  | invoke label template shape slots lineage =>
    refine (invoke_records label template shape slots lineage).mono ?_
    rintro c' result ⟨hbatch, hreceived⟩
    refine ⟨by rw [hbatch]; rfl, ?_⟩
    cases result with
    | ok invoked => exact hreceived invoked rfl
    | error fault => nofun

end RemoteHost
