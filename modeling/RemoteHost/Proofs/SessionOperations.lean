import RemoteHost.Catalogue.Objects
import RemoteHost.Proofs.ObjectCalls
import RemoteHost.Proofs.StartingOperations

/-!
# What callers wait for

The operations of a session that a caller waits for, and what their talks show: whether a program
was sent, whether one may be, and whether all that was done was undone. Routines that send one
program at most are told by the rules that they keep to.
-/

namespace RemoteHost

variable {F α : Type}

/-! ## The operations of a session -/

/-- What a caller can wait for. -/
inductive SessionOperation (F : Type) : Type 1 where
  | evaluate (expression : String) (shape : ResultShape) (lineage : LineageId)
  /-- What the reply says is read by a function of the caller. -/
  | evaluateMap {α : Type} (expression : String) (shape : ResultShape) (lineage : LineageId)
      (read : Json → Except Fault α)
  | call (receiver : Proxy) (op : Operation) (step : Option LineageId)
  | resolve (pending : PendingCall) (step : Option LineageId)
  | materialize (object : Proxy) (lineage : LineageId)
  | invoke (label template : String) (shape : ResultShape) (slots : List (Slot F))
      (lineage : LineageId)
  | release (lineage : LineageId)
  | installPrelude (lineage : LineageId)
  | windows (lineage : LineageId)
  /-- A call on a window, a view or a sheet. -/
  | onObject (object : Proxy) (step : Option LineageId) (objectCall : ObjectCall F)

namespace SessionOperation

/-- What an operation results in if it succeeds. -/
def Result : SessionOperation F → Type
  | .evaluate _ _ _ => Outcome
  | @evaluateMap _ α _ _ _ _ => α
  | .call _ _ _ => Call
  | .resolve _ _ => Outcome
  | .materialize _ _ => Proxy
  | .invoke _ _ _ _ _ => Invoked
  | .release _ => Nat
  | .installPrelude _ => Json
  | .windows _ => List Proxy
  | .onObject _ _ _ => Answer ⊕ Invoked

def job (s : Settings) : (operation : SessionOperation F) → Job F operation.Result
  | .evaluate expression shape lineage => RemoteHost.evaluate s expression shape lineage
  | .evaluateMap expression shape lineage read => evaluateAs s expression shape lineage read
  | .call receiver op step => RemoteHost.call s receiver op step
  | .resolve pending step => pending.resolve s step
  | .materialize object lineage => RemoteHost.materialize s object lineage
  | .invoke label template shape slots lineage =>
    RemoteHost.invoke s label template shape slots lineage
  | .release lineage => releaseHandles s lineage
  | .installPrelude lineage => RemoteHost.installPrelude s lineage
  | .windows lineage => RemoteHost.windows s lineage
  | .onObject object step objectCall => objectCall.job s object step

end SessionOperation

/-- A call is deferred unless its receiver is stored under a key and there is a step. -/
def Defers (object : Proxy) (step : Option LineageId) : Prop :=
  object.isResolved = false ∨ step = none

namespace ObjectCall

/-- What a call asks its receiver, if it is no panel. -/
def query? (s : Settings) : ObjectCall F → Option Query
  | .window op => some (op.query s)
  | .view op => some op.query
  | .sheet op => some op.query
  | .quickPanel _ _ _ | .inputPanel _ _ _ => none

/-- Whether what a call gives is an object, which may come back pending. -/
def GivesObject (s : Settings) (objectCall : ObjectCall F) : Prop :=
  ∃ q, objectCall.query? s = some q ∧ q.reading = .object

end ObjectCall

/-! ## What talks show -/

/-- Whether nothing is sent after an answer: there are no keys to release, or no endpoint. -/
def Request.bars : (request : Request F) → request.Reply → Bool
  | .drain, [] => true
  | .openEndpoint, .error _ => true
  | _, _ => false

/-- Whether an exchange leaves nothing to be undone. A new lineage has made no round trip. -/
def Request.isQuiet : (request : Request F) → request.Reply → Bool
  | .isReleased _, _ => true
  | .newLineage _, _ => true
  | .enter _ _, .error _ => true
  | _, _ => false

/-- Whether what a request does can be undone, or undoes it. -/
def Request.isReversible : Request F → Bool
  | .drain | .restore _ | .openEndpoint | .closeEndpoint _ => true
  | _ => false

namespace Talk

def IsBarred (talk : Talk F) : Prop := ∃ exchange ∈ talk, exchange.1.bars exchange.2 = true

def IsQuiet (talk : Talk F) : Prop := ∀ exchange ∈ talk, exchange.1.isQuiet exchange.2 = true

/-- An endpoint could not be opened. -/
def IsDenied (talk : Talk F) : Prop := ∃ fault, ⟨.openEndpoint, .error fault⟩ ∈ talk

/-- The host has replied. -/
def HasReply (talk : Talk F) : Prop := ∃ reply, ⟨.collect, .ok reply⟩ ∈ talk

def draining (keys : List String) : (request : Request F) × request.Reply := ⟨.drain, keys⟩

def restoring (keys : List String) : (request : Request F) × request.Reply :=
  ⟨.restore keys, ()⟩

def opening (opened : Opened) : (request : Request F) × request.Reply :=
  ⟨.openEndpoint, .ok opened⟩

def closing (opened : Opened) : (request : Request F) × request.Reply :=
  ⟨.closeEndpoint opened.endpoint, ()⟩

/-- What was done was done in vain, and is undone: keys that were drained were taken back, and all
endpoints that were opened were closed again. -/
inductive Undone : Talk F → Prop
  | nothing {talk : Talk F} (h : talk.IsQuiet) : Undone talk
  | restored {talk : Talk F} (keys : List String) (h : talk.IsQuiet) :
      Undone ([draining keys] ++ talk ++ [restoring keys])
  | closed {talk : Talk F} (opened : List Opened) (h : talk.IsQuiet) :
      Undone (opened.map opening ++ talk ++ opened.map closing)

/-- One program was sent, and it is this one. -/
def Sends (talk : Talk F) (program : String) : Prop := talk.programs = [program]

/-- Nothing was sent, and something may be. -/
structure IsReady (talk : Talk F) : Prop where
  programs : talk.programs = []
  unbarred : ¬ talk.IsBarred

/-- A program was sent, and the host has replied. -/
structure IsAnswered (talk : Talk F) : Prop where
  programs : ∃ program, talk.Sends program
  reply : talk.HasReply

variable {talk quiet : Talk F}

theorem isReady_nil : IsReady ([] : Talk F) where
  programs := rfl
  unbarred := by
    rintro ⟨_, hmem, -⟩
    cases hmem

theorem isBarred_snoc {request : Request F} {reply : request.Reply} :
    IsBarred (talk ++ [⟨request, reply⟩]) ↔ talk.IsBarred ∨ request.bars reply = true := by
  simp [IsBarred, or_and_right, exists_or]

theorem IsReady.snoc (h : talk.IsReady) {request : Request F} {reply : request.Reply}
    (hprograms : request.programs = []) (hbars : request.bars reply = false) :
    IsReady (talk ++ [⟨request, reply⟩]) where
  programs := by rw [programs_snoc, h.programs, hprograms]; rfl
  unbarred := by
    rw [isBarred_snoc, hbars]
    exact not_or.mpr ⟨h.unbarred, Bool.false_ne_true⟩

theorem IsReady.submitted (h : talk.IsReady) {program : String}
    (reply : (Request.submit program : Request F).Reply) :
    Sends (talk ++ [⟨.submit program, reply⟩]) program := by
  rw [Sends, programs_snoc, h.programs]
  rfl

theorem Sends.append {program : String} (h : talk.Sends program) {later : Talk F}
    (hlater : later.programs = []) : Sends (talk ++ later) program := by
  rw [Sends, programs_append, hlater, List.append_nil]
  exact h

theorem Sends.snoc {program : String} (h : talk.Sends program) {request : Request F}
    (reply : request.Reply) (hprograms : request.programs = []) :
    Sends (talk ++ [⟨request, reply⟩]) program :=
  h.append ((List.append_nil _).trans hprograms)

theorem IsAnswered.snoc (h : talk.IsAnswered) {request : Request F} (reply : request.Reply)
    (hprograms : request.programs = []) : IsAnswered (talk ++ [⟨request, reply⟩]) where
  programs := h.programs.imp fun _ hsends => hsends.snoc reply hprograms
  reply := h.reply.imp fun _ hmem => List.mem_append_left _ hmem

theorem isQuiet_nil : IsQuiet ([] : Talk F) := nofun

theorem isQuiet_singleton {request : Request F} {reply : request.Reply}
    (h : request.isQuiet reply = true) : IsQuiet [⟨request, reply⟩] := by
  intro exchange hmem
  rw [List.mem_singleton.mp hmem]
  exact h

theorem IsQuiet.append {later : Talk F} (h : quiet.IsQuiet) (hlater : later.IsQuiet) :
    IsQuiet (quiet ++ later) :=
  fun exchange hmem => (List.mem_append.mp hmem).elim (h exchange) (hlater exchange)

theorem isPlain_of_isQuiet {request : Request F} {reply : request.Reply}
    (h : request.isQuiet reply = true) : request.programs = [] ∧ request.bars reply = false := by
  cases request with
  | isReleased | newLineage | enter => exact ⟨rfl, rfl⟩
  | _ => cases h

theorem IsQuiet.programs (h : quiet.IsQuiet) : quiet.programs = [] :=
  List.flatMap_eq_nil_iff.mpr fun exchange hmem => (isPlain_of_isQuiet (h exchange hmem)).1

theorem IsReady.append (h : talk.IsReady) (hquiet : quiet.IsQuiet) : IsReady (talk ++ quiet) where
  programs := by rw [programs_append, h.programs, hquiet.programs]; rfl
  unbarred := by
    rintro ⟨exchange, hmem, hbars⟩
    rcases List.mem_append.mp hmem with hmem | hmem
    · exact h.unbarred ⟨exchange, hmem, hbars⟩
    · exact Bool.false_ne_true
        ((isPlain_of_isQuiet (hquiet exchange hmem)).2.symm.trans hbars)

theorem programs_openings (opened : List Opened) :
    programs (opened.map opening : Talk F) = [] := by
  simp [programs, opening, Request.programs]

theorem programs_closings (opened : List Opened) :
    programs (opened.map closing : Talk F) = [] := by
  simp [programs, closing, Request.programs]

theorem isReady_openings (opened : List Opened) : IsReady (opened.map opening : Talk F) where
  programs := programs_openings opened
  unbarred := by
    rintro ⟨_, hmem, hbars⟩
    obtain ⟨new, -, rfl⟩ := List.mem_map.mp hmem
    cases hbars

/-- Whatever is not quiet in what was undone can be undone. -/
theorem Undone.isQuiet_or (h : talk.Undone) {request : Request F} {reply : request.Reply}
    (hmem : ⟨request, reply⟩ ∈ talk) :
    request.isQuiet reply = true ∨ request.isReversible = true := by
  have sandwich {first quiet last : Talk F} (hquiet : quiet.IsQuiet)
      (hfirst : ∀ exchange ∈ first, exchange.1.isReversible = true)
      (hlast : ∀ exchange ∈ last, exchange.1.isReversible = true)
      (hmem : ⟨request, reply⟩ ∈ first ++ quiet ++ last) :
      request.isQuiet reply = true ∨ request.isReversible = true := by
    rcases List.mem_append.mp hmem with hmem | hmem
    · rcases List.mem_append.mp hmem with hmem | hmem
      · exact .inr (hfirst _ hmem)
      · exact .inl (hquiet _ hmem)
    · exact .inr (hlast _ hmem)
  cases h with
  | nothing hquiet => exact .inl (hquiet _ hmem)
  | restored keys hquiet =>
    refine sandwich hquiet ?_ ?_ hmem
    · exact List.forall_mem_singleton.mpr rfl
    · exact List.forall_mem_singleton.mpr rfl
  | closed opened hquiet =>
    refine sandwich hquiet ?_ ?_ hmem
    · exact List.forall_mem_map.mpr fun _ _ => rfl
    · exact List.forall_mem_map.mpr fun _ _ => rfl

/-- What was undone does not show that anything was sent, or that anybody replied. -/
theorem Undone.programs (h : talk.Undone) : talk.programs = [] := by
  refine List.flatMap_eq_nil_iff.mpr fun ⟨request, reply⟩ hmem => ?_
  rcases h.isQuiet_or hmem with hquiet | hreversible
  · exact (isPlain_of_isQuiet hquiet).1
  · cases request with
    | drain | restore | openEndpoint | closeEndpoint => rfl
    | _ => cases hreversible

theorem Undone.not_hasReply (h : talk.Undone) : ¬ talk.HasReply := by
  rintro ⟨reply, hmem⟩
  rcases h.isQuiet_or hmem with hquiet | hreversible
  · cases hquiet
  · cases hreversible

end Talk

/-! ## At most one program -/

/-- A program is sent if none was and nothing speaks against it. -/
def once (talk : Talk F) : Request F → Prop
  | .submit _ => talk.IsReady
  | .drain | .openEndpoint => talk.programs = []
  | _ => True

/-- At most one program was sent, and none if something spoke against it. -/
structure Talk.IsFrugal (talk : Talk F) : Prop where
  length_le : talk.programs.length ≤ 1
  barred : talk.IsBarred → talk.programs = []

theorem Talk.IsReady.isFrugal {talk : Talk F} (h : talk.IsReady) : talk.IsFrugal where
  length_le := by rw [h.programs]; exact Nat.zero_le 1
  barred _ := h.programs

theorem Talk.IsFrugal.snoc {talk : Talk F} (h : talk.IsFrugal) {request : Request F}
    (hallowed : once talk request) (reply : request.Reply) :
    IsFrugal (talk ++ [⟨request, reply⟩]) := by
  have same (hprograms : request.programs = [])
      (hbars : request.bars reply = true → talk.programs = []) :
      IsFrugal (talk ++ [⟨request, reply⟩]) := by
    constructor
    · rw [programs_snoc, hprograms, List.append_nil]
      exact h.length_le
    · rw [programs_snoc, hprograms, List.append_nil, isBarred_snoc]
      exact fun hbarred => hbarred.elim h.barred hbars
  cases request with
  | submit program =>
    constructor
    · rw [programs_snoc, IsReady.programs hallowed]
      exact Nat.le_refl 1
    · rw [isBarred_snoc]
      exact fun hbarred => absurd hbarred (not_or.mpr ⟨IsReady.unbarred hallowed, nofun⟩)
  | drain => exact same rfl fun _ => hallowed
  | openEndpoint => exact same rfl fun _ => hallowed
  | _ => exact same rfl nofun

/-- At no time has a routine that obeys sent more than one program. -/
theorem Discipline.Obeys.isFrugal {post : Talk F → α → Prop} {routine rest : Routine F α}
    {before talk : Talk F} (h : (talking once).Obeys post before routine)
    (hbefore : before.IsFrugal) (hleads : routine.Leads talk rest) :
    Talk.IsFrugal (before ++ talk) := by
  induction hleads generalizing before with
  | here routine => rwa [List.append_nil]
  | ask reply hrest ih =>
    have hlater := ih (h.2 reply trivial) (hbefore.snoc h.1 reply)
    simp only [talking, List.append_assoc, List.singleton_append] at hlater
    exact hlater

end RemoteHost
