import RemoteHost.Proofs.CatalogueCalls

/-!
# Programs and the texts of their callers

Two calls that differ only in what their strings say send programs that differ only in what their
literals say. No text of a caller gets out of its literal.
-/

namespace RemoteHost

variable {F α : Type} {s : Settings}

/-! ## Talks of routines -/

/-- Requests and what they were answered. -/
abbrev Talk (F : Type) := List ((request : Request F) × request.Reply)

namespace Talk

/-- The tokens of the endpoints that were opened. -/
def tokens (talk : Talk F) : List String :=
  talk.flatMap fun ⟨request, reply⟩ => request.tokens reply

def programs (talk : Talk F) : List String := talk.flatMap fun ⟨request, _⟩ => request.programs

/-- Something was refused. -/
def isRefused (talk : Talk F) : Bool := talk.any fun ⟨request, reply⟩ => request.refuses reply

end Talk

/-- What a routine may have asked so far, whatever it was answered, and its result if it is done. -/
inductive Routine.Comes : Routine F α → Talk F → Option α → Prop
  | yet (routine : Routine F α) : Comes routine [] none
  | done (a : α) : Comes (.done a) [] (some a)
  | ask {request : Request F} {next : request.Reply → Routine F α} {talk : Talk F}
      {result : Option α} (reply : request.Reply) (h : Comes (next reply) talk result) :
      Comes (.ask request next) (⟨request, reply⟩ :: talk) result

namespace Sending

variable {allowed : List String → String → Prop} {d : Sending}

/-- At most one program was sent, and an allowed one. -/
def Sound (allowed : List String → String → Prop) (d : Sending) : Prop :=
  d.programs = [] ∨ ∃ program, d.programs = [program] ∧ allowed d.tokens program

/-- What a party has done after a talk. -/
def through (d : Sending) (talk : Talk F) : Sending :=
  ⟨d.tokens ++ talk.tokens, d.programs ++ talk.programs, d.refused || talk.isRefused⟩

theorem through_nil (d : Sending) : d.through ([] : Talk F) = d := by
  rw [through, Talk.tokens, Talk.programs, Talk.isRefused, List.flatMap_nil, List.flatMap_nil,
    List.any_nil, List.append_nil, List.append_nil, Bool.or_false]

theorem after_eq (d : Sending) (request : Request F) (reply : request.Reply) :
    (sending allowed).after d request reply = d.through [⟨request, reply⟩] := by
  have hsame : d = ⟨d.tokens ++ [], d.programs ++ [], d.refused || false⟩ := by
    rw [List.append_nil, List.append_nil, Bool.or_false]
  have hrefused : { d with refused := true } =
      Sending.mk (d.tokens ++ []) (d.programs ++ []) (d.refused || true) := by
    rw [List.append_nil, List.append_nil, Bool.or_true]
  cases request with
  | submit program =>
    change Sending.mk d.tokens (d.programs ++ [program]) d.refused =
      ⟨d.tokens ++ [], d.programs ++ [program], d.refused || false⟩
    rw [List.append_nil, Bool.or_false]
  | openEndpoint =>
    cases reply with
    | ok opened =>
      change Sending.mk (d.tokens ++ [opened.token]) d.programs d.refused =
        ⟨d.tokens ++ [opened.token], d.programs ++ [], d.refused || false⟩
      rw [List.append_nil, Bool.or_false]
    | error fault => exact hrefused
  | isReleased key =>
    cases reply with
    | false => exact hsame
    | true => exact hrefused
  | enter lineage policy =>
    cases reply with
    | ok _ => exact hsame
    | error fault => exact hrefused
  | _ => exact hsame

theorem through_cons (allowed : List String → String → Prop) (d : Sending) (request : Request F)
    (reply : request.Reply) (talk : Talk F) : d.through (⟨request, reply⟩ :: talk) =
      ((sending allowed).after d request reply).through talk := by
  rw [after_eq]
  simp only [through, Talk.tokens, Talk.programs, Talk.isRefused, List.flatMap_cons,
    List.flatMap_nil, List.any_cons, List.any_nil, List.append_nil, Bool.or_false,
    List.append_assoc, Bool.or_assoc]

theorem Sound.after {request : Request F} (h : Sound allowed d)
    (hallows : (sending allowed).allows d request) (reply : request.Reply) :
    Sound allowed ((sending allowed).after d request reply) := by
  cases request with
  | submit program =>
    refine .inr ⟨program, ?_, hallows.2⟩
    exact congrArg (· ++ [program]) hallows.1
  | openEndpoint =>
    cases reply with
    | ok opened => exact .inl hallows
    | error fault => exact h
  | isReleased key => cases reply <;> exact h
  | enter lineage policy => cases reply <;> exact h
  | _ => exact h

/-- What comes of a routine that obeys. -/
theorem Sound.comes {routine : Routine F α} {post : Sending → α → Prop} {talk : Talk F}
    {result : Option α} (hcomes : routine.Comes talk result)
    (hobeys : (sending allowed).Obeys post d routine) (h : Sound allowed d) :
    Sound allowed (d.through talk) ∧ ∀ a, result = some a → post (d.through talk) a := by
  induction hcomes generalizing d with
  | yet routine =>
    rw [through_nil]
    exact ⟨h, nofun⟩
  | done a =>
    rw [through_nil]
    refine ⟨h, ?_⟩
    rintro _ ⟨⟩
    exact hobeys
  | ask reply hrest ih =>
    rw [through_cons allowed]
    exact ih (hobeys.2 reply trivial) (h.after hobeys.1 reply)

end Sending

namespace CatalogueCall

variable {call : CatalogueCall F} {m : Method}

theorem isPlain (h : call.method? = some m) : m.IsPlain := by
  cases call with
  | operation op => exact WindowOperation.isPlain h
  | quickPanel panel =>
    obtain rfl := Option.some.inj h
    exact panel.isPlain
  | inputPanel panel =>
    obtain rfl := Option.some.inj h
    exact panel.isPlain

theorem stringsFirst (h : call.method? = some m) : m.StringsFirst := by
  cases call with
  | operation op => exact WindowOperation.stringsFirst h
  | quickPanel panel =>
    obtain rfl := Option.some.inj h
    exact panel.stringsFirst
  | inputPanel panel =>
    obtain rfl := Option.some.inj h
    exact panel.stringsFirst

/-- What was sent for a call is its program. A call that can be made is sent unless it is refused
something. -/
theorem sent_of_comes (hs : s.IsBare) {r : Receiver} (hr : r.IsReached)
    (hm : call.method? = some m) {label : String} {step : Option LineageId} {lineage : LineageId}
    {talk : Talk F} {result : Option (Except Fault Unit)}
    (hcomes : (call.carryOut s label (r.proxy s) step lineage).run.Comes talk result) :
    (∀ program ∈ talk.programs,
      talk.programs = [program] ∧ IsProgramOf s r m talk.tokens program) ∧
    (result = some (.ok ()) → talk.programs.length = 1) ∧
    (result.isSome = true → call.IsPossible s (r.proxy s) step → talk.isRefused = false →
      talk.programs.length = 1) := by
  obtain ⟨hsound, hyields⟩ := Sending.Sound.comes hcomes
    (sends_carryOut hs hr hm label step lineage) (.inl rfl)
  refine ⟨?_, fun hresult => hyields _ hresult, ?_⟩
  · intro program hprogram
    rcases hsound with hnone | ⟨sent, hsent, hallowed⟩
    · change talk.programs = [] at hnone
      rw [hnone] at hprogram
      cases hprogram
    · change talk.programs = [sent] at hsent
      rw [hsent] at hprogram
      obtain rfl := List.mem_singleton.mp hprogram
      exact ⟨hsent, hallowed⟩
  · intro hdone hpossible hwilling
    obtain ⟨outcome, hresult⟩ := Option.isSome_iff_exists.mp hdone
    have hyielded := hyields outcome hresult
    cases outcome with
    | ok a => exact hyielded
    | error fault =>
      rcases hyielded hpossible with hrefused | hsent
      · exact absurd (hwilling.symm.trans hrefused) Bool.false_ne_true
      · exact hsent

end CatalogueCall

/-- The skeleton of a program of a call is that of the call without what its strings say. -/
theorem skeleton_of_isProgramOf (hs : s.IsBare) {r : Receiver} (hr : r.IsReached) {m : Method}
    (hm : m.IsPlain) {tokens : List String} {program : String}
    (h : IsProgramOf s r m tokens program) :
    skeleton program = some ((programSymbols s r.blank m.blank []).map Symbol.outline) := by
  obtain ⟨hcount, rfl⟩ := h
  rw [skeleton, readSymbols_programOf hs hr hm hcount, ← outline_programSymbols s r m tokens]
  rfl

theorem literalTexts_of_isProgramOf (hs : s.IsBare) {r : Receiver} (hr : r.IsReached) {m : Method}
    (hm : m.IsPlain) (hfirst : m.StringsFirst) {tokens : List String} {program : String}
    (h : IsProgramOf s r m tokens program) : literalTexts program =
      some (r.strings ++ m.strings ++ tokens ++ [m.reading.shape.name]) := by
  obtain ⟨hcount, rfl⟩ := h
  rw [literalTexts, readSymbols_programOf hs hr hm hcount,
    ← texts_programSymbols s hr hfirst hcount]
  rfl

/-- Carrying out a call sends at most one program, and one if the call goes well, or is possible and
ends without having been refused its receiver, its turn or an endpoint. The literals of the program
are the strings of the receiver, those of the call and the tokens of its endpoints, in this order,
followed by the name of the shape. Calls that differ only in their strings send programs of the same
skeleton. -/
theorem skeleton_independent_of_texts (hs : s.check = .ok ()) {first second : CatalogueCall F}
    {m n : Method} (hm : first.method? = some m) (hn : second.method? = some n)
    (hcalls : m.blank = n.blank) {r q : Receiver} (hr : r.IsReached) (hq : q.IsReached)
    (hreceivers : r.blank = q.blank) {label label' : String} {step step' : Option LineageId}
    {lineage lineage' : LineageId} {talk talk' : Talk F}
    {result result' : Option (Except Fault Unit)}
    (hfirst : (first.carryOut s label (r.proxy s) step lineage).run.Comes talk result)
    (hsecond : (second.carryOut s label' (q.proxy s) step' lineage').run.Comes talk' result') :
    (result = some (.ok ()) → talk.programs.length = 1) ∧
    (result.isSome = true → first.IsPossible s (r.proxy s) step → talk.isRefused = false →
      talk.programs.length = 1) ∧
    (∀ program ∈ talk.programs, talk.programs = [program] ∧ literalTexts program =
      some (r.strings ++ m.strings ++ talk.tokens ++ [m.reading.shape.name])) ∧
    ∀ program ∈ talk.programs, ∀ program' ∈ talk'.programs, ∃ frame,
      skeleton program = some frame ∧ skeleton program' = some frame := by
  have hbare := Settings.isBare_of_check hs
  obtain ⟨hsent, hdelivered, hpossible⟩ := CatalogueCall.sent_of_comes hbare hr hm hfirst
  obtain ⟨hsent', -⟩ := CatalogueCall.sent_of_comes hbare hq hn hsecond
  have hplain := CatalogueCall.isPlain hm
  refine ⟨hdelivered, hpossible, ?_, ?_⟩
  · intro program hprogram
    obtain ⟨hall, hprogramOf⟩ := hsent program hprogram
    exact ⟨hall, literalTexts_of_isProgramOf hbare hr hplain (CatalogueCall.stringsFirst hm)
      hprogramOf⟩
  · intro program hprogram program' hprogram'
    have hframe := skeleton_of_isProgramOf hbare hr hplain (hsent program hprogram).2
    have hframe' := skeleton_of_isProgramOf hbare hq (CatalogueCall.isPlain hn)
      (hsent' program' hprogram').2
    rw [← hreceivers, ← hcalls] at hframe'
    exact ⟨_, hframe, hframe'⟩

/-- The program that shows a message at a window under a key. -/
def messageProgram (key message : String) : String :=
  Program.enveloped {} (Program.handleRef {} key ++
    (Operation.method "status_message" [Literal.quoted message]).suffix) .value

/-- What is asked and answered when a message is shown and the host is gone. -/
def messageTalk (key message : String) : Talk Unit :=
  [⟨.isReleased key, false⟩, ⟨.enter 0 .queue, .ok ()⟩,
    ⟨.submit (messageProgram key message), ()⟩, ⟨.collect, .error .closed⟩, ⟨.complete 0, ()⟩]

theorem comes_messageTalk (key message : String) :
    ((CatalogueCall.operation (.statusMessage message) : CatalogueCall Unit).carryOut {} ""
      ((Receiver.mk (some key) []).proxy {}) (some 0) 0).run.Comes
        (messageTalk key message) (some (.error (.transport .closed))) :=
  .ask _ (.ask _ (.ask _ (.ask _ (.ask _ (.done _)))))

theorem messages_share_skeleton :
    (messageTalk "it's" "$CALLBACK_TOKEN' #").programs.length = 1 ∧
    literalTexts (messageProgram "it's" "$CALLBACK_TOKEN' #") =
      some ["it's", "$CALLBACK_TOKEN' #", "value"] ∧
    ∃ frame, skeleton (messageProgram "it's" "$CALLBACK_TOKEN' #") = some frame ∧
      skeleton (messageProgram "key" "\"\n") = some frame := by
  have hfirst := comes_messageTalk "it's" "$CALLBACK_TOKEN' #"
  have hsecond := comes_messageTalk "key" "\"\n"
  have hreached : ∀ key, (Receiver.mk key []).IsReached := fun _ _ hm => nomatch hm
  have hreceivers :
      (Receiver.mk (some "it's") []).blank = (Receiver.mk (some "key") []).blank := rfl
  have hcalls : (Method.mk "status_message" [.text "$CALLBACK_TOKEN' #"] .unit).blank =
      (Method.mk "status_message" [.text "\"\n"] .unit).blank := rfl
  obtain ⟨-, hpossible, htexts, hframes⟩ := skeleton_independent_of_texts rfl rfl rfl hcalls
    (hreached _) (hreached _) hreceivers hfirst hsecond
  refine ⟨hpossible rfl ⟨nofun, .inr (.inl rfl)⟩ rfl, ?_, ?_⟩
  · exact (htexts _ List.mem_cons_self).2
  · exact hframes _ List.mem_cons_self _ List.mem_cons_self

end RemoteHost
