import RemoteHost.Proofs.SessionOperations

/-!
# One program for every operation

Whatever it is answered, an operation hands over one program at most. How it ends is one of three
things: it has sent its program; it had nothing to send, and ends well or for want of an endpoint;
or it was misused, and then it has asked for little and taken all of that back.
-/

namespace RemoteHost

variable {F α β : Type} {s : Settings}

/-! ## Endings of evaluations -/

/-- How an evaluation ends that begins after a talk: its program was sent, and then it fails by
misuse only as it may; or it was misused, and nothing else happened. -/
inductive Settles (may : Talk F → UsageFault → Prop) (before talk : Talk F)
    (result : Except Fault α) : Prop
  | sent {program : String} (hsends : talk.Sends program)
      (hreply : ∀ a, result = .ok a → talk.HasReply)
      (hfault : ∀ fault, result = .error (.usage fault) → may talk fault)
  | misused {quiet : Talk F} {fault : UsageFault} (hquiet : quiet.IsQuiet)
      (htalk : talk = before ++ quiet) (hresult : result = .error (.usage fault))

/-- Once its program was sent, an evaluation does not fail by misuse. -/
abbrev never (_ : Talk F) (_ : UsageFault) : Prop := False

section Settles

variable {may : Talk F → UsageFault → Prop} {before talk quiet : Talk F}

theorem Talk.IsAnswered.settles (h : talk.IsAnswered) {result : Except Fault α}
    (hfault : ∀ fault, result = .error (.usage fault) → may talk fault) :
    Settles may before talk result := by
  obtain ⟨program, hsends⟩ := h.programs
  exact .sent hsends (fun _ _ => h.reply) hfault

theorem Talk.IsAnswered.settlesWell (h : talk.IsAnswered) {a : α} :
    Settles may before talk (.ok a) := by
  refine h.settles fun fault heq => ?_
  cases heq

theorem Talk.IsAnswered.settlesBroken (h : talk.IsAnswered) {cause : TransportFault} :
    Settles may before talk (.error (.transport cause) : Except Fault α) := by
  refine h.settles fun fault heq => ?_
  cases heq

theorem Settles.isAnswered {a : α} (h : Settles may before talk (.ok a)) : talk.IsAnswered := by
  cases h with
  | sent hsends hreply hfault => exact ⟨⟨_, hsends⟩, hreply a rfl⟩
  | misused hquiet htalk hresult => cases hresult

theorem Settles.failed {fault : Fault}
    (h : Settles may before talk (.error fault : Except Fault α)) :
    Settles may before talk (.error fault : Except Fault β) := by
  cases h with
  | sent hsends hreply hfault =>
    exact .sent hsends nofun fun usage heq =>
      hfault usage (congrArg Except.error (Except.error.inj heq))
  | misused hquiet htalk hresult =>
    cases hresult
    exact .misused hquiet htalk rfl

/-- An evaluation that begins after a few quiet exchanges. -/
theorem Settles.from_quiet (hquiet : quiet.IsQuiet) {result : Except Fault α}
    (h : Settles may (before ++ quiet) talk result) : Settles may before talk result := by
  cases h with
  | sent hsends hreply hfault => exact .sent hsends hreply hfault
  | misused hlater htalk hresult =>
    exact .misused (hquiet.append hlater) (htalk.trans (List.append_assoc ..)) hresult

theorem Settles.andThen {job : Job F α} {f : α → Job F β} {start : Talk F}
    (h : (talking once).Obeys (Settles never before) start job.run)
    (hf : ∀ talk a, talk.IsAnswered →
      (talking once).Obeys (Settles may before) talk (f a).run) :
    (talking once).Obeys (Settles may before) start (job >>= f).run := by
  refine Discipline.Obeys.andThen h (fun talk a hsettles => hf talk a hsettles.isAnswered) ?_
  intro talk fault hsettles
  cases hsettles with
  | sent hsends hreply hfault =>
    exact .sent hsends nofun fun usage heq =>
      (hfault usage (congrArg Except.error (Except.error.inj heq))).elim
  | misused hquiet htalk hresult =>
    cases hresult
    exact .misused hquiet htalk rfl

theorem once_roundTrip (h : before.IsReady) (program : String) (lineage : LineageId) :
    (talking once).Obeys (Settles never before) before
      (roundTrip s program lineage : Job F Json).run := by
  refine Discipline.obeys_ask.mpr ⟨trivial, fun entered _ => ?_⟩
  cases entered with
  | error fault => exact .misused (Talk.isQuiet_singleton rfl) rfl rfl
  | ok _ =>
    refine Discipline.obeys_ask.mpr ⟨h.snoc rfl rfl, fun submitted _ => ?_⟩
    refine Discipline.obeys_ask.mpr ⟨trivial, fun answer _ => ?_⟩
    refine Discipline.obeys_ask.mpr ⟨trivial, fun completed _ => ?_⟩
    have hready : Talk.IsReady (before ++ [⟨.enter lineage s.stepConflict, .ok ()⟩]) :=
      h.snoc rfl rfl
    have hsends := ((hready.submitted submitted).snoc answer rfl).snoc completed rfl
    cases answer with
    | error fault => exact .sent hsends nofun nofun
    | ok reply => exact .sent hsends (fun _ _ => ⟨reply, by simp [talking]⟩) nofun

theorem once_recordAll (keys : List String) (h : talk.IsAnswered) :
    (talking once).Obeys (fun later result => later.IsAnswered ∧ result = .ok ()) talk
      (recordAll keys : Job F Unit).run := by
  induction keys generalizing talk with
  | nil => exact ⟨h, rfl⟩
  | cons key keys ih => exact Discipline.obeys_ask.mpr ⟨trivial, fun _ _ => ih (h.snoc _ rfl)⟩

theorem outcomeOfReply_ne_usage (reply : Json) (fault : UsageFault) :
    outcomeOfReply reply ≠ .error (.usage fault) := by
  unfold outcomeOfReply
  split
  · exact nofun
  · split <;> exact nofun

theorem outcomeOfShape_ne_usage (shape : ResultShape) (reply : Json) (fault : UsageFault) :
    outcomeOfShape shape reply ≠ .error (.usage fault) := by
  unfold outcomeOfShape
  split
  · rename_i other hreply
    exact fun heq => outcomeOfReply_ne_usage reply fault (hreply.trans heq)
  · split <;> exact nofun

theorem once_evaluate (h : before.IsReady) (expression : String) (shape : ResultShape)
    (lineage : LineageId) : (talking once).Obeys (Settles never before) before
      (evaluate s expression shape lineage : Job F Outcome).run := by
  refine Settles.andThen (once_roundTrip h _ lineage) fun talk reply hanswered => ?_
  cases hshape : outcomeOfShape shape reply with
  | error fault =>
    refine hanswered.settles fun usage heq => outcomeOfShape_ne_usage shape reply usage ?_
    rw [hshape]
    exact heq
  | ok outcome =>
    refine (once_recordAll _ hanswered).andThen ?_ ?_
    · exact fun later _ hlater => hlater.1.settlesWell
    · rintro later fault ⟨-, ⟨⟩⟩

/-- The caller's reading of a reply fails by misuse. -/
def readsAs (read : Json → Except Fault α) (talk : Talk F) (fault : UsageFault) : Prop :=
  talk.HasReply ∧ ∃ value, read value = .error (.usage fault)

theorem once_evaluateAs (h : before.IsReady) (expression : String) (shape : ResultShape)
    (lineage : LineageId) (read : Json → Except Fault α) :
    (talking once).Obeys (Settles (readsAs read) before) before
      (evaluateAs s expression shape lineage read : Job F α).run := by
  refine Settles.andThen (once_evaluate h expression shape lineage) fun talk outcome hanswered => ?_
  cases outcome with
  | value value => exact hanswered.settles fun fault heq => ⟨hanswered.reply, value, heq⟩
  | absent => exact hanswered.settles fun fault heq => ⟨hanswered.reply, .null, heq⟩
  | handle key => exact hanswered.settlesBroken

/-- A reading of the library does not fail by misuse. -/
theorem Settles.never_of_readsAs {read : Json → Except Fault α}
    (hread : ∀ value fault, read value ≠ .error (.usage fault)) {result : Except Fault β}
    (h : Settles (readsAs read) before talk result) : Settles never before talk result := by
  cases h with
  | sent hsends hreply hfault =>
    refine .sent hsends hreply fun fault heq => ?_
    obtain ⟨-, value, hvalue⟩ := hfault fault heq
    exact hread value fault hvalue
  | misused hquiet htalk hresult => exact .misused hquiet htalk hresult

theorem once_installPrelude (h : before.IsReady) (lineage : LineageId) :
    (talking once).Obeys (Settles never before) before
      (installPrelude s lineage : Job F Json).run := by
  refine Settles.andThen ?_ fun talk outcome hanswered => hanswered.settlesWell
  refine Settles.andThen (once_roundTrip h _ lineage) fun talk reply hanswered => ?_
  cases hreply : outcomeOfReply reply with
  | error fault =>
    refine hanswered.settles fun usage heq => outcomeOfReply_ne_usage reply usage ?_
    rw [hreply]
    exact heq
  | ok outcome => exact hanswered.settlesWell

theorem once_windows (h : before.IsReady) (lineage : LineageId) :
    (talking once).Obeys (Settles never before) before
      (windows s lineage : Job F (List Proxy)).run := by
  have hkeys : ∀ (value : Json) (fault : UsageFault),
      (handleKeys value).mapError Fault.transport ≠ .error (.usage fault) := by
    intro value fault
    cases handleKeys value <;> exact nofun
  refine Settles.andThen ?_ fun talk keys hanswered => hanswered.settlesWell
  exact (once_evaluateAs h _ _ lineage _).mono fun _ _ hsettles => hsettles.never_of_readsAs hkeys

/-! ## Endings of calls -/

/-- How a job ends that sends nothing: it comes to something, or was misused. -/
inductive Rests (good : α → Prop) (before talk : Talk F) (result : Except Fault α) : Prop
  | well {quiet : Talk F} {a : α} (hquiet : quiet.IsQuiet) (htalk : talk = before ++ quiet)
      (hresult : result = .ok a) (hgood : good a)
  | misused {quiet : Talk F} {fault : UsageFault} (hquiet : quiet.IsQuiet)
      (htalk : talk = before ++ quiet) (hresult : result = .error (.usage fault))

theorem Rests.andThen {good : α → Prop} {job : Job F α} {f : α → Job F β} {start : Talk F}
    {post : Talk F → Except Fault β → Prop}
    (h : (talking once).Obeys (Rests good before) start job.run)
    (hf : ∀ quiet a, quiet.IsQuiet → good a →
      (talking once).Obeys post (before ++ quiet) (f a).run)
    (hmisused : ∀ quiet fault, quiet.IsQuiet → post (before ++ quiet) (.error (.usage fault))) :
    (talking once).Obeys post start (job >>= f).run := by
  refine Discipline.Obeys.andThen h ?_ ?_
  · intro talk a hrests
    cases hrests with
    | well hquiet htalk hresult hgood =>
      cases hresult
      rw [htalk]
      exact hf _ _ hquiet hgood
    | misused hquiet htalk hresult => cases hresult
  · intro talk fault hrests
    cases hrests with
    | well hquiet htalk hresult hgood => cases hresult
    | misused hquiet htalk hresult =>
      cases hresult
      rw [htalk]
      exact hmisused _ _ hquiet

theorem once_refuseReleased (object : Proxy) :
    (talking once).Obeys (Rests (fun _ => True) before) before
      (refuseReleased object : Job F Unit).run := by
  cases object with
  | pending chain => exact .well Talk.isQuiet_nil (List.append_nil before).symm rfl trivial
  | resolved key =>
    refine Discipline.obeys_ask.mpr ⟨trivial, fun released _ => ?_⟩
    cases released with
    | false => exact .well (Talk.isQuiet_singleton rfl) rfl rfl trivial
    | true => exact .misused (Talk.isQuiet_singleton rfl) rfl rfl

theorem not_defers {object : Proxy} {step : Option LineageId} (h : ¬ Defers object step) :
    ∃ key lineage, object = .resolved key ∧ step = some lineage := by
  obtain ⟨hresolved, hstep⟩ := not_or.mp h
  cases object with
  | pending chain => exact absurd rfl hresolved
  | resolved key =>
    obtain ⟨lineage, hlineage⟩ := Option.ne_none_iff_exists'.mp hstep
    exact ⟨key, lineage, rfl, hlineage⟩

theorem dispatch_of_defers {object : Proxy} {step : Option LineageId} (h : Defers object step)
    (op : Operation) : dispatch s object op step = (defer s object op).map .deferred := by
  cases object with
  | pending chain => rfl
  | resolved key =>
    rcases h with hresolved | rfl
    · cases hresolved
    · rfl

/-- A call that is deferred sends nothing. -/
theorem once_call_deferred {object : Proxy} {step : Option LineageId} (h : Defers object step)
    (op : Operation) : (talking once).Obeys
      (Rests (fun result => ∃ pending, result = .pending pending) before) before
      (call s object op step : Job F Call).run := by
  refine Rests.andThen (once_refuseReleased object) ?_ fun _ _ hquiet => .misused hquiet rfl rfl
  intro quiet _ hquiet _
  rw [dispatch_of_defers h]
  cases defer s object op with
  | error fault => exact .misused hquiet rfl rfl
  | ok pending => exact .well hquiet rfl rfl ⟨pending, rfl⟩

/-- A call that is not deferred is an evaluation. -/
theorem once_call_eager (h : before.IsReady) (key : String) (op : Operation) (lineage : LineageId) :
    (talking once).Obeys (fun talk result => Settles never before talk result ∧
        ∀ call, result = .ok call → ∃ outcome, call = .resolved outcome) before
      (call s (.resolved key) op (some lineage) : Job F Call).run := by
  refine Rests.andThen (once_refuseReleased _) ?_ fun _ _ hquiet =>
    ⟨.misused hquiet rfl rfl, nofun⟩
  intro quiet _ hquiet _
  refine (once_evaluate (h.append hquiet) _ op.shape lineage).andThen ?_ ?_
  · rintro talk outcome hsettles
    refine ⟨hsettles.isAnswered.settlesWell, ?_⟩
    rintro _ ⟨⟩
    exact ⟨outcome, rfl⟩
  · exact fun talk fault hsettles => ⟨(hsettles.from_quiet hquiet).failed, nofun⟩

theorem once_resolve (h : before.IsReady) (pending : PendingCall) (step : Option LineageId) :
    (talking once).Obeys (Settles never before) before
      (pending.resolve s step : Job F Outcome).run := by
  unfold PendingCall.resolve
  cases step with
  | some lineage => exact once_evaluate h _ _ lineage
  | none =>
    dsimp only
    split
    · refine Discipline.obeys_ask.mpr ⟨trivial, fun lineage _ => ?_⟩
      have hquiet : Talk.IsQuiet [⟨(.newLineage "" : Request F), lineage⟩] :=
        Talk.isQuiet_singleton rfl
      exact (once_evaluate (h.append hquiet) _ _ lineage).mono fun _ _ hsettles =>
        hsettles.from_quiet hquiet
    · exact .misused Talk.isQuiet_nil (List.append_nil before).symm rfl

theorem once_settle (h : before.IsReady) (object : Proxy) (op : Operation)
    (step : Option LineageId) : (talking once).Obeys (Settles never before) before
      (settle s object op step : Job F Outcome).run := by
  by_cases hdefers : Defers object step
  · refine Rests.andThen (once_call_deferred hdefers op) ?_ fun _ _ hquiet =>
      .misused hquiet rfl rfl
    rintro quiet _ hquiet ⟨pending, rfl⟩
    exact (once_resolve (h.append hquiet) pending step).mono fun _ _ hsettles =>
      hsettles.from_quiet hquiet
  · obtain ⟨key, lineage, rfl, rfl⟩ := not_defers hdefers
    refine (once_call_eager h key op lineage).andThen ?_ fun _ _ hsettles => hsettles.1.failed
    rintro talk result ⟨hsettles, hresolved⟩
    obtain ⟨outcome, rfl⟩ := hresolved result rfl
    exact hsettles.isAnswered.settlesWell

/-! ## Endings of queries -/

theorem once_askObject_deferred {object : Proxy} {step : Option LineageId}
    (h : Defers object step) (suffix : String) :
    (talking once).Obeys (Rests (fun _ => True) before) before
      (askObject s object suffix step : Job F Proxy).run := by
  refine Rests.andThen (once_call_deferred h _) ?_ fun _ _ hquiet => .misused hquiet rfl rfl
  rintro quiet _ hquiet ⟨pending, rfl⟩
  exact .well hquiet rfl rfl trivial

theorem once_askObject_eager (h : before.IsReady) (key suffix : String) (lineage : LineageId) :
    (talking once).Obeys (Settles never before) before
      (askObject s (.resolved key) suffix (some lineage) : Job F Proxy).run := by
  refine (once_call_eager h key _ lineage).andThen ?_ fun _ _ hsettles => hsettles.1.failed
  rintro talk result ⟨hsettles, hresolved⟩
  obtain ⟨outcome, rfl⟩ := hresolved result rfl
  cases outcome with
  | handle key => exact hsettles.isAnswered.settlesWell
  | value | absent => exact hsettles.isAnswered.settlesBroken

theorem ofOutcome_ne_usage (reading : Reading) (outcome : Outcome) (fault : UsageFault) :
    reading.ofOutcome outcome ≠ .error (.usage fault) := by
  have hvalue : ∀ value, (reading.ofValue value).mapError
      (fun cause => Fault.transport (.malformed cause)) ≠ .error (.usage fault) := by
    intro value
    cases reading.ofValue value <;> rintro ⟨⟩
  cases reading with
  | object | optionalObject => cases outcome <;> rintro ⟨⟩
  | objects =>
    cases outcome with
    | handle | absent => rintro ⟨⟩
    | value v =>
      simp only [Reading.ofOutcome]
      split <;> rintro ⟨⟩
  | _ =>
    cases outcome with
    | handle key => rintro ⟨⟩
    | value v => exact hvalue v
    | absent => exact hvalue .null

theorem once_ask_deferred {object : Proxy} {step : Option LineageId} (h : Defers object step)
    {q : Query} (hreading : q.reading = .object) :
    (talking once).Obeys (Rests (fun _ => True) before) before
      (q.ask s object step : Job F Answer).run := by
  rw [Query.ask, if_pos hreading]
  refine Rests.andThen (once_askObject_deferred h _) ?_ fun _ _ hquiet => .misused hquiet rfl rfl
  exact fun quiet _ hquiet _ => .well hquiet rfl rfl trivial

/-- A query is sent unless it asks for an object and is deferred. -/
theorem once_ask_sent (h : before.IsReady) {object : Proxy} {step : Option LineageId} {q : Query}
    (hsent : ¬ (q.reading = .object ∧ Defers object step)) :
    (talking once).Obeys (Settles never before) before
      (q.ask s object step : Job F Answer).run := by
  by_cases hreading : q.reading = .object
  · obtain ⟨key, lineage, rfl, rfl⟩ := not_defers fun hdefers => hsent ⟨hreading, hdefers⟩
    rw [Query.ask, if_pos hreading]
    refine (once_askObject_eager h key _ lineage).andThen ?_ fun _ _ hsettles => hsettles.failed
    exact fun talk _ hsettles => hsettles.isAnswered.settlesWell
  · rw [Query.ask, if_neg hreading]
    refine (once_settle h object _ step).andThen ?_ fun _ _ hsettles => hsettles.failed
    intro talk outcome hsettles
    exact hsettles.isAnswered.settles fun fault heq => absurd heq (ofOutcome_ne_usage _ _ fault)

theorem once_materialize (h : before.IsReady) (chain : Chain) (lineage : LineageId) :
    (talking once).Obeys (Settles never before) before
      (materialize s (.pending chain) lineage : Job F Proxy).run := by
  refine Settles.andThen (once_evaluate h _ _ lineage) fun talk outcome hanswered => ?_
  cases outcome with
  | handle key => exact hanswered.settlesWell
  | value | absent => exact hanswered.settlesBroken

end Settles

/-! ## Endings of operations -/

/-- How an operation ends that begins a talk: its program was sent, there was an excuse not to send
any, or it was misused. -/
inductive Concludes (excuse : Talk F → Prop) (may : Talk F → UsageFault → Prop)
    (talk : Talk F) (result : Except Fault α) : Prop
  | sent {program : String} (hsends : talk.Sends program)
      (hexcuse : ¬ talk.IsBarred → ¬ excuse talk)
      (hfault : ∀ fault, result = .error (.usage fault) → may talk fault)
  | excused (hexcuse : excuse talk) (hprograms : talk.programs = [])
      (hfault : ∀ fault, result ≠ .error (.usage fault))
  | misused {fault : UsageFault} (hundone : talk.Undone) (hresult : result = .error (.usage fault))

section Concludes

variable {excuse : Talk F → Prop} {may : Talk F → UsageFault → Prop} {talk : Talk F}

theorem Settles.concludes {result : Except Fault α} (h : Settles may [] talk result)
    (hexcuse : ¬ excuse talk) : Concludes excuse may talk result := by
  cases h with
  | sent hsends hreply hfault => exact .sent hsends (fun _ => hexcuse) hfault
  | misused hquiet htalk hresult => exact .misused (htalk ▸ .nothing hquiet) hresult

theorem Rests.concludes {good : α → Prop} {result : Except Fault α}
    (h : Rests good [] talk result) (hexcuse : excuse talk) :
    Concludes excuse may talk result := by
  cases h with
  | well hquiet htalk hresult hgood =>
    refine .excused hexcuse ?_ ?_
    · rw [htalk]
      exact hquiet.programs
    · rw [hresult]
      exact nofun
  | misused hquiet htalk hresult => exact .misused (htalk ▸ .nothing hquiet) hresult

theorem Concludes.failed {fault : Fault}
    (h : Concludes excuse never talk (.error fault : Except Fault α)) :
    Concludes excuse never talk (.error fault : Except Fault β) := by
  have recast {usage : UsageFault}
      (h : (.error fault : Except Fault β) = .error (.usage usage)) :
      (.error fault : Except Fault α) = .error (.usage usage) :=
    congrArg Except.error (Except.error.inj h)
  cases h with
  | sent hsends hexcuse hfault =>
    exact .sent hsends hexcuse fun usage hresult => hfault usage (recast hresult)
  | excused hexcuse hprograms hfault =>
    exact .excused hexcuse hprograms fun usage hresult => hfault usage (recast hresult)
  | misused hundone hresult =>
    cases hresult
    exact .misused hundone rfl

/-- What is done with a result without asking for anything does not matter. -/
theorem Concludes.map {job : Job F α} (f : α → β) {start : Talk F}
    (h : (talking once).Obeys (Concludes excuse never) start job.run) :
    (talking once).Obeys (Concludes excuse never) start
      (do
        let a ← job
        pure (f a) : Job F β).run := by
  refine Discipline.Obeys.andThen h ?_ ?_
  · intro talk a hconcludes
    cases hconcludes with
    | sent hsends hexcuse hfault => exact .sent hsends hexcuse nofun
    | excused hexcuse hprograms hfault => exact .excused hexcuse hprograms nofun
    | misused hundone hresult => cases hresult
  · exact fun talk fault hconcludes => hconcludes.failed

/-! ## Releases -/

theorem once_release (s : Settings) (lineage : LineageId) :
    (talking once).Obeys (Concludes (fun talk => ⟨.drain, []⟩ ∈ talk) never) ([] : Talk F)
      (releaseHandles s lineage).run := by
  refine Discipline.obeys_ask.mpr ⟨rfl, fun keys _ => ?_⟩
  cases keys with
  | nil => exact .excused List.mem_cons_self rfl nofun
  | cons first rest =>
    have hready : Talk.IsReady [(Talk.draining (first :: rest) : (r : Request F) × r.Reply)] :=
      Talk.isReady_nil.snoc rfl rfl
    have hunbarred {talk : Talk F} (hbarred : ¬ talk.IsBarred) : ⟨.drain, []⟩ ∉ talk :=
      fun hmem => hbarred ⟨_, hmem, rfl⟩
    have hread : ∀ value fault, readReleaseCount value ≠ .error (.usage fault) := by
      intro value fault
      unfold readReleaseCount
      split <;> exact nofun
    have hevaluate := (once_evaluateAs (s := s) hready (Program.releaseExpression s (first :: rest))
      .value lineage readReleaseCount).mono fun _ _ hsettles => hsettles.never_of_readsAs hread
    refine hevaluate.orElse ?_ ?_
    · intro talk count hsettles
      obtain ⟨⟨program, hsends⟩, -⟩ := hsettles.isAnswered
      exact .sent hsends hunbarred nofun
    · intro talk fault hsettles
      refine Discipline.obeys_ask.mpr ⟨trivial, fun restored _ => ?_⟩
      cases hsettles with
      | sent hsends hreply hfault =>
        exact .sent (hsends.snoc restored rfl) hunbarred hfault
      | misused hquiet htalk hresult =>
        cases hresult
        rw [htalk]
        exact .misused (.restored (first :: rest) hquiet) rfl

/-! ## Invocations -/

theorem once_closeAll (opened : List Opened) : (talking once).Obeys
    (fun later result => later = talk ++ opened.map Talk.closing ∧ result = .ok ()) talk
      (closeAll opened : Job F Unit).run := by
  induction opened generalizing talk with
  | nil => exact ⟨(List.append_nil talk).symm, rfl⟩
  | cons first rest ih =>
    refine Discipline.obeys_ask.mpr ⟨trivial, fun closed _ => ?_⟩
    rw [List.map_cons, List.append_cons]
    exact ih

/-- All endpoints are opened, or one is denied and those before it are closed. -/
theorem once_openAll (opened : List Opened) (count : Nat) : (talking once).Obeys
    (fun talk result => match result with
      | .ok all => talk = all.map Talk.opening ∧ all.length = opened.length + count
      | .error fault =>
        talk.programs = [] ∧ talk.IsDenied ∧ ∃ cause, fault = .transport cause)
    (opened.map Talk.opening) (openAll opened count : Job F (List Opened)).run := by
  induction count generalizing opened with
  | zero => exact ⟨rfl, rfl⟩
  | succ count ih =>
    refine Discipline.obeys_ask.mpr ⟨Talk.programs_openings opened, fun answer _ => ?_⟩
    cases answer with
    | ok new =>
      have hmore := ih (opened ++ [new])
      rw [List.map_append, List.length_append] at hmore
      refine hmore.mono fun talk result hresult => ?_
      cases result with
      | ok all => exact ⟨hresult.1, hresult.2.trans (by simp; omega)⟩
      | error fault => exact hresult
    | error cause =>
      refine (once_closeAll opened).andThen ?_ ?_
      · rintro talk _ ⟨rfl, -⟩
        refine ⟨?_, ⟨cause, by simp [talking]⟩, cause, rfl⟩
        have hopened := Talk.programs_snoc (opened.map Talk.opening) (.openEndpoint : Request F)
          (.error cause)
        rw [Talk.programs_append, Talk.programs_closings, List.append_nil]
        exact hopened.trans ((List.append_nil _).trans (Talk.programs_openings opened))
      · rintro talk fault ⟨-, ⟨⟩⟩

/-- How the evaluation of an invocation ends: it was answered, or the invocation ends with it. -/
def Evaluated (talk : Talk F) : Except Fault Outcome → Prop
  | .ok _ => talk.IsAnswered
  | .error fault => Concludes Talk.IsDenied never talk (.error fault : Except Fault Invoked)

theorem not_isDenied_of_not_isBarred {talk : Talk F} (h : ¬ talk.IsBarred) : ¬ talk.IsDenied := by
  rintro ⟨fault, hmem⟩
  exact h ⟨_, hmem, rfl⟩

/-- An evaluation whose endpoints are closed when it fails. -/
theorem once_evaluateHolding (endpoints : List Opened) (source : String) (shape : ResultShape)
    (lineage : LineageId) :
    (talking once).Obeys Evaluated (endpoints.map Talk.opening)
      (tryCatch (evaluate s source shape lineage) fun fault => do
        closeAll endpoints
        throw fault : Job F Outcome).run := by
  refine (once_evaluate (Talk.isReady_openings endpoints) source shape lineage).orElse ?_ ?_
  · exact fun talk outcome hsettles => hsettles.isAnswered
  · intro talk fault hsettles
    refine (once_closeAll endpoints).andThen ?_ ?_
    · rintro _ _ ⟨rfl, -⟩
      have hfailed : Settles never (endpoints.map Talk.opening) talk
          (.error fault : Except Fault Invoked) := hsettles.failed
      cases hfailed with
      | sent hsends hreply hfault =>
        exact .sent (hsends.append (Talk.programs_closings endpoints))
          not_isDenied_of_not_isBarred hfault
      | misused hquiet htalk hresult =>
        cases hresult
        rw [htalk]
        exact .misused (.closed endpoints hquiet) rfl
    · rintro _ _ ⟨-, ⟨⟩⟩

theorem once_invoke (s : Settings) (label template : String) (shape : ResultShape)
    (slots : List (Slot F)) (lineage : LineageId) :
    (talking once).Obeys (Concludes Talk.IsDenied never) []
      (invoke s label template shape slots lineage).run := by
  unfold invoke
  by_cases hcount : Program.placeholders template = slots.length
  · simp only [ne_eq, hcount, not_true_eq_false, if_false]
    refine (once_openAll [] slots.length).andThen ?_ ?_
    · rintro _ endpoints ⟨rfl, hlength⟩
      obtain ⟨source, hsource⟩ := substituteTokens_eq_ok template (endpoints.map (·.token))
        (by simp [hlength, hcount])
      rw [hsource]
      refine Discipline.obeys_pure.mpr ?_
      refine (once_evaluateHolding endpoints source shape lineage).andThen ?_ fun _ _ h => h
      intro talk outcome hanswered
      refine Discipline.obeys_ask.mpr ⟨trivial, fun id _ => ?_⟩
      obtain ⟨program, hsends⟩ := Talk.IsAnswered.programs hanswered
      exact .sent (hsends.snoc id rfl) not_isDenied_of_not_isBarred nofun
    · rintro talk fault ⟨hprograms, hdenied, cause, rfl⟩
      exact .excused hdenied hprograms nofun
  · simp only [ne_eq, hcount, not_false_eq_true, if_true]
    exact .misused (.nothing Talk.isQuiet_nil) rfl

end Concludes

/-! ## The operations of a session end -/

namespace SessionOperation

/-- Why an operation may end without a program although it was not misused. Calls on objects may be
deferred; what is stored already need not be produced; there may be no key to release; and there may
be no endpoint for an operation to listen at. -/
def Excuses (s : Settings) (operation : SessionOperation F) (talk : Talk F) : Prop :=
  match operation with
  | .call receiver _ step => Defers receiver step
  | .materialize object _ => object.isResolved = true
  | .invoke _ _ _ _ _ => talk.IsDenied
  | .release _ => ⟨.drain, []⟩ ∈ talk
  | .onObject object step objectCall => objectCall.GivesObject s ∧ Defers object step ∨
      objectCall.isPanel = true ∧ talk.IsDenied
  | _ => False

/-- The caller's own function, given what a reply says, fails by misuse of its own. -/
def ReadsAs (operation : SessionOperation F) : Talk F → UsageFault → Prop :=
  match operation with
  | .evaluateMap _ _ _ read => readsAs read
  | _ => never

theorem once_onObject (s : Settings) (object : Proxy) (step : Option LineageId)
    (objectCall : ObjectCall F) : (talking once).Obeys
      (Concludes ((onObject object step objectCall).Excuses s) never) []
      (objectCall.job s object step).run := by
  have queries (q : Query) (hquery : objectCall.query? s = some q)
      (hpanel : objectCall.isPanel = false)
      (hjob : objectCall.job s object step = ObjectCall.asking s object step q) :
      (talking once).Obeys (Concludes ((onObject object step objectCall).Excuses s) never) []
        (objectCall.job s object step).run := by
    rw [hjob]
    refine Concludes.map _ ?_
    by_cases hdeferred : q.reading = .object ∧ Defers object step
    · refine (once_ask_deferred hdeferred.2 hdeferred.1).mono fun _ _ hrests => ?_
      exact hrests.concludes (.inl ⟨⟨q, hquery, hdeferred.1⟩, hdeferred.2⟩)
    · refine (once_ask_sent Talk.isReady_nil hdeferred).mono fun _ _ hsettles =>
        hsettles.concludes ?_
      rintro (⟨⟨q', hquery', hreading⟩, hdefers⟩ | ⟨hpanel', -⟩)
      · rw [hquery] at hquery'
        cases hquery'
        exact hdeferred ⟨hreading, hdefers⟩
      · rw [hpanel] at hpanel'
        cases hpanel'
  have panels (hpanel : objectCall.isPanel = true) (hquery : objectCall.query? s = none)
      {talk : Talk F} : (onObject object step objectCall).Excuses s talk ↔ talk.IsDenied := by
    constructor
    · rintro (⟨⟨q, hsome, -⟩, -⟩ | ⟨-, hdenied⟩)
      · rw [hquery] at hsome
        cases hsome
      · exact hdenied
    · exact fun hdenied => .inr ⟨hpanel, hdenied⟩
  cases objectCall with
  | window op => exact queries (op.query s) rfl rfl rfl
  | view op => exact queries op.query rfl rfl rfl
  | sheet op => exact queries op.query rfl rfl rfl
  | quickPanel label lineage panel =>
    rw [show (onObject object step (.quickPanel label lineage panel)).Excuses s =
      Talk.IsDenied from funext fun _ => propext (panels rfl rfl)]
    exact Concludes.map _ (once_invoke s label _ _ _ lineage)
  | inputPanel label lineage panel =>
    rw [show (onObject object step (.inputPanel label lineage panel)).Excuses s =
      Talk.IsDenied from funext fun _ => propext (panels rfl rfl)]
    exact Concludes.map _ (once_invoke s label _ _ _ lineage)

/-- Every operation asks for one program at most, and ends in one of three ways. -/
theorem job_concludes (s : Settings) (operation : SessionOperation F) : (talking once).Obeys
    (Concludes (operation.Excuses s) operation.ReadsAs) [] (operation.job s).run := by
  have hready : Talk.IsReady ([] : Talk F) := Talk.isReady_nil
  cases operation with
  | evaluate expression shape lineage =>
    exact (once_evaluate hready _ _ lineage).mono fun _ _ hsettles => hsettles.concludes id
  | evaluateMap expression shape lineage read =>
    exact (once_evaluateAs hready _ _ lineage read).mono fun _ _ hsettles => hsettles.concludes id
  | call receiver op step =>
    by_cases hdefers : Defers receiver step
    · exact (once_call_deferred hdefers op).mono fun _ _ hrests => hrests.concludes hdefers
    · obtain ⟨key, lineage, rfl, rfl⟩ := not_defers hdefers
      exact (once_call_eager hready key op lineage).mono fun _ _ hsettles =>
        hsettles.1.concludes hdefers
  | resolve pending step =>
    exact (once_resolve hready pending step).mono fun _ _ hsettles => hsettles.concludes id
  | materialize object lineage =>
    cases object with
    | resolved key => exact .excused rfl rfl nofun
    | pending chain =>
      exact (once_materialize hready chain lineage).mono fun _ _ hsettles =>
        hsettles.concludes nofun
  | invoke label template shape slots lineage =>
    exact once_invoke s label template shape slots lineage
  | release lineage => exact once_release s lineage
  | installPrelude lineage =>
    exact (once_installPrelude hready lineage).mono fun _ _ hsettles => hsettles.concludes id
  | windows lineage =>
    exact (once_windows hready lineage).mono fun _ _ hsettles => hsettles.concludes id
  | onObject object step objectCall => exact once_onObject s object step objectCall

/-- An operation fails by misuse of its own, and not as the caller's function makes it. -/
def IsMisused (operation : SessionOperation F) (talk : Talk F)
    (result : Except Fault operation.Result) : Prop :=
  ∃ fault, result = .error (.usage fault) ∧ ¬ operation.ReadsAs talk fault

section

variable {operation : SessionOperation F} {talk : Talk F}

theorem isFrugal {rest : Routine F (Except Fault operation.Result)}
    (h : (operation.job s).run.Leads talk rest) : talk.IsFrugal :=
  (job_concludes s operation).isFrugal Talk.isReady_nil.isFrugal h

variable {result : Except Fault operation.Result}

theorem concludes (h : (operation.job s).run.Leads talk (.done result)) :
    Concludes (operation.Excuses s) operation.ReadsAs talk result :=
  (job_concludes s operation).leads h

/-- What a caller's function makes of a reply takes a reply. -/
theorem ReadsAs.hasReply {fault : UsageFault} (h : operation.ReadsAs talk fault) :
    talk.HasReply := by
  cases operation with
  | evaluateMap expression shape lineage read => exact h.1
  | _ => cases h

theorem undone_of_isMisused (h : (operation.job s).run.Leads talk (.done result))
    (hmisused : operation.IsMisused talk result) : talk.Undone := by
  obtain ⟨fault, rfl, hown⟩ := hmisused
  cases concludes h with
  | sent hsends hexcuse hfault => exact absurd (hfault fault rfl) hown
  | excused hexcuse hprograms hfault => exact absurd rfl (hfault fault)
  | misused hundone hresult => exact hundone

/-- No program is sent exactly when there is an excuse or the operation was misused. -/
theorem programs_eq_nil_iff (h : (operation.job s).run.Leads talk (.done result)) :
    talk.programs = [] ↔ operation.Excuses s talk ∨ operation.IsMisused talk result := by
  constructor
  · intro hnone
    cases concludes h with
    | sent hsends hexcuse hfault => cases hnone.symm.trans hsends
    | excused hexcuse hprograms hfault => exact .inl hexcuse
    | misused hundone hresult =>
      exact .inr ⟨_, hresult, fun hreads => hundone.not_hasReply hreads.hasReply⟩
  · rintro (hexcuse | hmisused)
    · cases concludes h with
      | sent hsends hunexcused hfault =>
        by_cases hbarred : talk.IsBarred
        · exact (isFrugal h).barred hbarred
        · exact absurd hexcuse (hunexcused hbarred)
      | excused hexcuse hprograms hfault => exact hprograms
      | misused hundone hresult => exact hundone.programs
    · exact (undone_of_isMisused h hmisused).programs

end

end SessionOperation

end RemoteHost
