import RemoteHost.Proofs.SingleRoundTrips

/-!
# Operations in lineages of their own

An operation takes turns only of the lineages that it was given and of those that it made itself. If
nobody else takes the turns of a lineage, none of its round trips there is refused; so an operation
without a step, whose lineage is its own, does not fail for want of a turn.
-/

namespace RemoteHost

variable {F α β : Type} {s : Settings}

/-- Whether a request asks for a turn, or for a lineage to take turns of. -/
def Request.isAboutTurns : Request F → Bool
  | .enter _ _ | .newLineage _ => true
  | _ => false

/-- Rules of a party that takes turns only of lineages that are shared and of its own. It may rely
on it that its own turns are not taken. -/
def keeping (shared : LineageId → Prop) : Discipline F (List LineageId) where
  allows own
    | .enter l _ => shared l ∨ l ∈ own
    | _ => True
  expects own
    | .enter l _, reply => l ∈ own → reply = .ok ()
    | _, _ => True
  after own
    | .newLineage _, l => l :: own
    | _, _ => own

/-- If all is calm, a result is no conflict. -/
def Unrefused (calm : Prop) (result : Except Fault α) : Prop :=
  calm → ∀ label, result ≠ .error (.usage (.stepConflict label))

/-- The lineages may be used, and if all is calm they are the party's own. -/
structure Covers (shared : LineageId → Prop) (own : List LineageId) (calm : Prop)
    (lineages : List LineageId) : Prop where
  usable : ∀ l ∈ lineages, shared l ∨ l ∈ own
  own : calm → ∀ l ∈ lineages, l ∈ own

/-- How a job ends that makes no lineage: what it has is as before, and if all was calm it was not
refused. -/
abbrev Unmoved (calm : Prop) (own own' : List LineageId) (result : Except Fault α) : Prop :=
  own' = own ∧ Unrefused calm result

theorem Unrefused.ok {calm : Prop} {a : α} : Unrefused calm (.ok a) := fun _ _ => nofun

theorem Unrefused.failed {calm : Prop} {fault : Fault}
    (h : Unrefused calm (.error fault : Except Fault α)) :
    Unrefused calm (.error fault : Except Fault β) := by
  intro hcalm label heq
  exact h hcalm label (congrArg Except.error (Except.error.inj heq))

theorem Unrefused.of_ne {calm : Prop} {result : Except Fault α}
    (h : ∀ fault, result ≠ .error (.usage fault)) : Unrefused calm result := fun _ _ => h _

section Keeping

variable {shared : LineageId → Prop} {own : List LineageId} {calm : Prop} {l : LineageId}
  {lineages : List LineageId}

theorem keeping_ignores {request : Request F} (h : request.isAboutTurns = false) :
    (keeping shared).Ignores own request where
  allows := by
    cases request with
    | enter => cases h
    | _ => trivial
  after reply := by
    cases request with
    | newLineage => cases h
    | _ => rfl

theorem keeping_andThen {job : Job F α} {f : α → Job F β}
    {post : List LineageId → Except Fault β → Prop}
    (h : (keeping shared).Obeys (Unmoved calm own) own job.run)
    (hf : ∀ a, (keeping shared).Obeys post own (f a).run)
    (herror : ∀ fault, Unrefused calm (.error fault : Except Fault β) → post own (.error fault)) :
    (keeping shared).Obeys post own (job >>= f).run := by
  refine h.andThen ?_ ?_
  · rintro _ a ⟨rfl, -⟩
    exact hf a
  · rintro _ fault ⟨rfl, hcalm⟩
    exact herror fault hcalm.failed

/-- What is done with a result without asking for anything does not matter. -/
theorem keeping_map {job : Job F α} {f : α → Except Fault β} {start : List LineageId}
    (h : (keeping shared).Obeys (fun _ => Unrefused calm) start job.run)
    (hf : ∀ a, Unrefused calm (f a)) : (keeping shared).Obeys (fun _ => Unrefused calm) start
      (do
        let a ← job
        ExceptT.mk (pure (f a)) : Job F β).run :=
  h.andThen (fun _ a _ => hf a) fun _ _ herror => herror.failed

/-! ## Round trips -/

theorem keeping_roundTrip (h : Covers shared own calm [l]) (program : String) :
    (keeping shared).Obeys (Unmoved calm own) own
      (roundTrip s program l : Job F Json).run := by
  refine Discipline.obeys_ask.mpr
    ⟨h.usable l (List.mem_singleton_self l), fun entered hgranted => ?_⟩
  cases entered with
  | error fault =>
    refine ⟨rfl, fun hcalm => ?_⟩
    cases hgranted (h.own hcalm l (List.mem_singleton_self l))
  | ok _ =>
    refine Discipline.obeys_ask.mpr ⟨trivial, fun submitted _ => ?_⟩
    refine Discipline.obeys_ask.mpr ⟨trivial, fun answer _ => ?_⟩
    refine Discipline.obeys_ask.mpr ⟨trivial, fun completed _ => ?_⟩
    cases answer with
    | error fault => exact ⟨rfl, .of_ne nofun⟩
    | ok reply => exact ⟨rfl, .ok⟩

theorem keeping_recordAll (keys : List String) :
    (keeping shared).Obeys (Unmoved calm own) own (recordAll keys : Job F Unit).run := by
  induction keys with
  | nil => exact ⟨rfl, .ok⟩
  | cons key keys ih => exact (keeping_ignores rfl).obeys fun _ => ih

theorem keeping_evaluate (h : Covers shared own calm [l]) (expression : String)
    (shape : ResultShape) : (keeping shared).Obeys (Unmoved calm own) own
      (evaluate s expression shape l : Job F Outcome).run := by
  refine keeping_andThen (keeping_roundTrip h _) (fun reply => ?_) fun _ herror => ⟨rfl, herror⟩
  cases hshape : outcomeOfShape shape reply with
  | error fault =>
    refine ⟨rfl, .of_ne fun usage heq => outcomeOfShape_ne_usage shape reply usage ?_⟩
    rw [hshape]
    exact heq
  | ok outcome =>
    exact keeping_andThen (keeping_recordAll _) (fun _ => ⟨rfl, .ok⟩)
      fun _ herror => ⟨rfl, herror⟩

theorem keeping_evaluateAs (h : Covers shared own calm [l]) (expression : String)
    (shape : ResultShape) {read : Json → Except Fault α}
    (hread : calm → ∀ value label, read value ≠ .error (.usage (.stepConflict label))) :
    (keeping shared).Obeys (Unmoved calm own) own
      (evaluateAs s expression shape l read : Job F α).run := by
  refine keeping_andThen (keeping_evaluate h expression shape) (fun outcome => ?_)
    fun _ herror => ⟨rfl, herror⟩
  cases outcome with
  | value value => exact ⟨rfl, fun hcalm label => hread hcalm value label⟩
  | absent => exact ⟨rfl, fun hcalm label => hread hcalm .null label⟩
  | handle key => exact ⟨rfl, .of_ne nofun⟩

theorem keeping_installPrelude (h : Covers shared own calm [l]) :
    (keeping shared).Obeys (Unmoved calm own) own (installPrelude s l : Job F Json).run := by
  refine keeping_andThen ?_ (fun outcome => ⟨rfl, .ok⟩) fun _ herror => ⟨rfl, herror⟩
  refine keeping_andThen (keeping_roundTrip h _) (fun reply => ?_) fun _ herror => ⟨rfl, herror⟩
  cases hreply : outcomeOfReply reply with
  | error fault =>
    refine ⟨rfl, .of_ne fun usage heq => outcomeOfReply_ne_usage reply usage ?_⟩
    rw [hreply]
    exact heq
  | ok outcome => exact ⟨rfl, .ok⟩

theorem keeping_release (h : Covers shared own calm [l]) :
    (keeping shared).Obeys (fun _ => Unrefused calm) own (releaseHandles s l : Job F Nat).run := by
  refine (keeping_ignores rfl).obeys fun keys => ?_
  cases keys with
  | nil => exact .ok
  | cons first rest =>
    have hread : calm → ∀ value label,
        readReleaseCount value ≠ .error (.usage (.stepConflict label)) := by
      intro _ value label
      unfold readReleaseCount
      split <;> exact nofun
    refine (keeping_evaluateAs h _ _ hread).orElse (fun _ _ _ => .ok) ?_
    rintro _ fault ⟨rfl, herror⟩
    exact (keeping_ignores rfl).obeys fun _ => herror

/-! ## Calls -/

theorem defer_ne_conflict (s : Settings) (object : Proxy) (op : Operation) (label : String) :
    defer s object op ≠ .error (.stepConflict label) := by
  unfold defer
  dsimp only
  split
  · exact nofun
  · split <;> exact nofun

theorem keeping_call (object : Proxy) (op : Operation) {step : Option LineageId}
    (h : Covers shared own calm step.toList) : (keeping shared).Obeys (Unmoved calm own) own
      (call s object op step : Job F Call).run := by
  have hreleased : (keeping shared).Obeys (Unmoved calm own) own
      (refuseReleased object : Job F Unit).run := by
    cases object with
    | pending chain => exact ⟨rfl, .ok⟩
    | resolved key =>
      refine (keeping_ignores rfl).obeys fun released => ?_
      cases released with
      | false => exact ⟨rfl, .ok⟩
      | true => exact ⟨rfl, fun _ _ => nofun⟩
  refine keeping_andThen hreleased (fun _ => ?_) fun _ herror => ⟨rfl, herror⟩
  by_cases hdefers : Defers object step
  · rw [dispatch_of_defers hdefers]
    cases hdefer : defer s object op with
    | error fault =>
      refine ⟨rfl, fun _ label heq => defer_ne_conflict s object op label ?_⟩
      cases heq
      exact hdefer
    | ok pending => exact ⟨rfl, .ok⟩
  · obtain ⟨key, lineage, rfl, rfl⟩ := not_defers hdefers
    exact keeping_andThen (keeping_evaluate h _ _) (fun _ => ⟨rfl, .ok⟩)
      fun _ herror => ⟨rfl, herror⟩

/-- Without a step, the program runs in a lineage that nobody else knows. -/
theorem keeping_resolve (pending : PendingCall) {step : Option LineageId}
    (h : Covers shared own calm step.toList) :
    (keeping shared).Obeys (fun _ => Unrefused calm) own
      (pending.resolve s step : Job F Outcome).run := by
  unfold PendingCall.resolve
  cases step with
  | some l => exact (keeping_evaluate h _ _).mono fun _ _ hunmoved => hunmoved.2
  | none =>
    dsimp only
    split
    · refine Discipline.obeys_ask.mpr ⟨trivial, fun (l : LineageId) _ => ?_⟩
      have hown : Covers shared (l :: own) calm [l] :=
        { usable := by simp, own := by simp }
      exact (keeping_evaluate hown _ _).mono fun _ _ hunmoved => hunmoved.2
    · exact fun _ _ => nofun

theorem keeping_settle (object : Proxy) (op : Operation) {step : Option LineageId}
    (h : Covers shared own calm step.toList) :
    (keeping shared).Obeys (fun _ => Unrefused calm) own
      (settle s object op step : Job F Outcome).run := by
  refine keeping_andThen (keeping_call object op h) (fun result => ?_) fun _ herror => herror
  cases result with
  | resolved outcome => exact .ok
  | pending pending => exact keeping_resolve pending h

theorem keeping_askObject (object : Proxy) (suffix : String) {step : Option LineageId}
    (h : Covers shared own calm step.toList) :
    (keeping shared).Obeys (fun _ => Unrefused calm) own
      (askObject s object suffix step : Job F Proxy).run := by
  refine keeping_andThen (keeping_call object _ h) (fun result => ?_) fun _ herror => herror
  cases result with
  | pending pending => exact .ok
  | resolved outcome =>
    cases outcome with
    | handle key => exact .ok
    | value | absent => exact .of_ne nofun

theorem keeping_ask (object : Proxy) (q : Query) {step : Option LineageId}
    (h : Covers shared own calm step.toList) :
    (keeping shared).Obeys (fun _ => Unrefused calm) own
      (q.ask s object step : Job F Answer).run := by
  unfold Query.ask
  split
  · exact keeping_map (keeping_askObject object _ h) fun _ => .ok
  · exact keeping_map (keeping_settle object _ h) fun outcome =>
      .of_ne (ofOutcome_ne_usage _ outcome)

/-! ## Operations -/

theorem keeping_ignoresEndpoints : (keeping shared : Discipline F _).IgnoresEndpoints own where
  opening := keeping_ignores rfl
  closing _ := keeping_ignores rfl

theorem keeping_openAll (opened : List Opened) (count : Nat) :
    (keeping shared).Obeys (Unmoved calm own) own
      (openAll opened count : Job F (List Opened)).run := by
  induction count generalizing opened with
  | zero => exact ⟨rfl, .ok⟩
  | succ count ih =>
    refine (keeping_ignores rfl).obeys fun answer => ?_
    cases answer with
    | ok endpoint => exact ih (opened ++ [endpoint])
    | error fault =>
      refine (keeping_ignoresEndpoints.closeAll opened).andThen ?_ ?_
      · rintro _ _ ⟨rfl, -⟩
        exact ⟨rfl, .of_ne nofun⟩
      · rintro _ _ ⟨-, ⟨⟩⟩

/-- Where an evaluation fails, what was opened is closed; the fault stays what it is. -/
theorem keeping_evaluateClosing (h : Covers shared own calm [l]) (expression : String)
    (shape : ResultShape) (opened : List Opened) :
    (keeping shared).Obeys (Unmoved calm own) own
      (tryCatch (evaluate s expression shape l) fun fault => do
        closeAll opened
        throw fault : Job F Outcome).run := by
  refine (keeping_evaluate h expression shape).orElse (fun _ _ hunmoved => hunmoved) ?_
  rintro _ fault ⟨rfl, herror⟩
  refine (keeping_ignoresEndpoints.closeAll opened).andThen ?_ ?_
  · rintro _ _ ⟨rfl, -⟩
    exact ⟨rfl, herror⟩
  · rintro _ _ ⟨-, ⟨⟩⟩

theorem keeping_invoke (h : Covers shared own calm [l]) (label template : String)
    (shape : ResultShape) (slots : List (Slot F)) :
    (keeping shared).Obeys (fun _ => Unrefused calm) own
      (invoke s label template shape slots l).run := by
  unfold invoke
  split
  · exact fun _ _ => nofun
  · refine keeping_andThen (keeping_openAll [] slots.length) (fun endpoints => ?_)
      fun _ herror => herror
    dsimp only
    unfold Program.substituteTokens
    split
    · refine Discipline.obeys_pure.mpr ?_
      exact keeping_andThen (keeping_evaluateClosing h _ shape endpoints)
        (fun outcome => (keeping_ignores rfl).obeys fun _ => .ok) fun _ herror => herror
    · exact fun _ _ => nofun

theorem keeping_windows (h : Covers shared own calm [l]) :
    (keeping shared).Obeys (fun _ => Unrefused calm) own
      (windows s l : Job F (List Proxy)).run := by
  refine keeping_andThen (keeping_evaluateAs h _ _ ?_) (fun keys => .ok) fun _ herror => herror
  intro _ value label
  cases handleKeys value <;> exact nofun

theorem keeping_materialize (h : Covers shared own calm [l]) (object : Proxy) :
    (keeping shared).Obeys (fun _ => Unrefused calm) own
      (materialize s object l : Job F Proxy).run := by
  cases object with
  | resolved key => exact .ok
  | pending chain =>
    refine keeping_andThen (keeping_evaluate h _ _) (fun outcome => ?_) fun _ herror => herror
    cases outcome with
    | handle key => exact .ok
    | value | absent => exact .of_ne nofun

end Keeping

/-- The lineages that an operation is given. -/
def ObjectCall.lineages : ObjectCall F → List LineageId
  | .quickPanel _ lineage _ | .inputPanel _ lineage _ => [lineage]
  | _ => []

namespace SessionOperation

/-- The lineages that an operation is given. One that is called without a step is given none. -/
def lineages : SessionOperation F → List LineageId
  | .evaluate _ _ lineage | .evaluateMap _ _ lineage _ | .materialize _ lineage
  | .invoke _ _ _ _ lineage | .release lineage | .installPrelude lineage | .windows lineage =>
    [lineage]
  | .call _ _ step | .resolve _ step => step.toList
  | .onObject _ step objectCall => step.toList ++ objectCall.lineages

/-- The caller's own reading of the reply may say that there was a conflict. -/
def Feigns : SessionOperation F → Prop
  | .evaluateMap _ _ _ read => ∃ value label, read value = .error (.usage (.stepConflict label))
  | _ => False

end SessionOperation

/-- Whatever it is answered, an operation takes turns only of the lineages that it was given and of
those that it made, and in lineages that are its own it is not refused. -/
theorem keeping_operation {shared : LineageId → Prop} {own : List LineageId} {calm : Prop}
    (operation : SessionOperation F) (h : Covers shared own calm operation.lineages)
    (hfeigns : calm → ¬ operation.Feigns) :
    (keeping shared).Obeys (fun _ => Unrefused calm) own (operation.job s).run := by
  have unmoved {γ : Type} {job : Job F γ} (hjob : (keeping shared).Obeys (Unmoved calm own) own
      job.run) : (keeping shared).Obeys (fun _ => Unrefused calm) own job.run :=
    hjob.mono fun _ _ hunmoved => hunmoved.2
  cases operation with
  | evaluate expression shape lineage => exact unmoved (keeping_evaluate h _ _)
  | evaluateMap expression shape lineage read =>
    refine unmoved (keeping_evaluateAs h _ _ fun hcalm value label heq => ?_)
    exact hfeigns hcalm ⟨value, label, heq⟩
  | call receiver op step => exact unmoved (keeping_call receiver op h)
  | resolve pending step => exact keeping_resolve pending h
  | materialize object lineage => exact keeping_materialize h object
  | invoke label template shape slots lineage => exact keeping_invoke h _ _ _ _
  | release lineage => exact keeping_release h
  | installPrelude lineage => exact unmoved (keeping_installPrelude h)
  | windows lineage => exact keeping_windows h
  | onObject object step objectCall =>
    have hstep : Covers shared own calm step.toList :=
      { usable := fun l hl => h.usable l (List.mem_append_left _ hl)
        own := fun hcalm l hl => h.own hcalm l (List.mem_append_left _ hl) }
    have hpanel : Covers shared own calm objectCall.lineages :=
      { usable := fun l hl => h.usable l (List.mem_append_right _ hl)
        own := fun hcalm l hl => h.own hcalm l (List.mem_append_right _ hl) }
    cases objectCall with
    | window op => exact keeping_map (keeping_ask object _ hstep) fun _ => .ok
    | view op => exact keeping_map (keeping_ask object _ hstep) fun _ => .ok
    | sheet op => exact keeping_map (keeping_ask object _ hstep) fun _ => .ok
    | quickPanel label lineage panel =>
      exact keeping_map (keeping_invoke hpanel _ _ _ _) fun _ => .ok
    | inputPanel label lineage panel =>
      exact keeping_map (keeping_invoke hpanel _ _ _ _) fun _ => .ok

end RemoteHost
