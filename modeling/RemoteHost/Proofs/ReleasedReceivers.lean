import RemoteHost.Proofs.ObjectCalls

/-!
# Released receivers

A query whose receiver was released fails before anything is sent or opened. Nothing else is looked
at: neither the window of a panel nor an object that is passed as an argument.
-/

namespace RemoteHost

variable {F α β : Type} {s : Settings}

/-! ## Queries fail -/

theorem call_resolved (s : Settings) (key : String) (op : Operation) (step : Option LineageId) :
    ∃ next, (call s (.resolved key) op step : Job F Call).run = .ask (.isReleased key) next ∧
      next true = .done (.error (.usage (.releasedHandle key))) :=
  ⟨_, rfl, rfl⟩

theorem job_resolved {objectCall : ObjectCall F} (h : objectCall.isPanel = false) (s : Settings)
    (key : String) (step : Option LineageId) :
    ∃ next, (objectCall.job s (.resolved key) step).run = .ask (.isReleased key) next ∧
      next true = .done (.error (.usage (.releasedHandle key))) := by
  obtain ⟨op, rest, hjob, hrest⟩ := ObjectCall.continuesFrom_call h s (.resolved key) step
  obtain ⟨next, hcall, hreleased⟩ := call_resolved (F := F) s key op step
  rw [hcall] at hjob
  refine ⟨_, hjob, ?_⟩
  rw [hreleased]
  exact hrest _

namespace Session

theorem stride_isReleased (st : Session F) (p : Party) (key : String)
    (next : (Request.isReleased (F := F) key).Reply → Routine F α) :
    stride p (.ask (.isReleased key) next) st = stride p (next (st.arena.isReleased key)) st := rfl

theorem perform_of_stride (behave : Behaviour F) {p : Party} {routine : Routine F α}
    {st st' : Session F} {a : α} (h : stride p routine st = (.done a, st')) :
    st.perform behave p routine = (.done a, st') := by
  change performWith behave p (999999 + 1) routine st = _
  rw [performWith, h]

/-- The session is as it was, so nothing was sent and nothing opened. -/
theorem perform_released (behave : Behaviour F) {objectCall : ObjectCall F}
    (h : objectCall.isPanel = false) {st : Session F} {key : String}
    (hreleased : st.arena.isReleased key = true) (s : Settings) (step : Option LineageId)
    (p : Party) : st.perform behave p (objectCall.job s (.resolved key) step).run =
      (.done (.error (.usage (.releasedHandle key))), st) := by
  obtain ⟨next, hjob, hnext⟩ := job_resolved h s key step
  refine perform_of_stride behave ?_
  rw [hjob, stride_isReleased, hreleased, hnext]
  rfl

end Session

/-! ## Nothing else is looked at -/

/-- A party asks of certain keys only whether they were released. -/
def lookingAt (looks : String → Prop) : Discipline F Unit where
  allows _
    | .isReleased key => looks key
    | _ => True
  expects _ _ _ := True
  after _ _ _ := ()

section

variable {looks : String → Prop}

/-- Every routine that obeys, whatever it results in. -/
abbrev LooksAt (looks : String → Prop) (routine : Routine F α) : Prop :=
  (lookingAt looks).Obeys (fun _ _ => True) () routine

theorem LooksAt.andThen {job : Job F α} {f : α → Job F β} (h : LooksAt looks job.run)
    (hf : ∀ a, LooksAt looks (f a).run) : LooksAt looks (job >>= f).run :=
  Discipline.Obeys.andThen h (fun _ a _ => hf a) fun _ _ _ => trivial

theorem looksAt_evaluate (s : Settings) (expression : String) (shape : ResultShape)
    (lineage : LineageId) :
    LooksAt looks (evaluate s expression shape lineage : Job F Outcome).run := by
  have hignores : (lookingAt (F := F) looks).IgnoresRoundTrips () := {
    enter := fun _ _ => ⟨trivial, fun _ => rfl⟩
    submit := fun _ => ⟨trivial, fun _ => rfl⟩
    collect := ⟨trivial, fun _ => rfl⟩
    complete := fun _ => ⟨trivial, fun _ => rfl⟩
    record := fun _ => ⟨trivial, fun _ => rfl⟩ }
  exact (hignores.evaluate s expression shape lineage).mono fun _ _ _ => trivial

theorem looksAt_call {object : Proxy} (h : ∀ key, object = .resolved key → looks key)
    (op : Operation) (step : Option LineageId) :
    LooksAt looks (call s object op step : Job F Call).run := by
  refine LooksAt.andThen ?_ fun _ => ?_
  · cases object with
    | pending chain => trivial
    | resolved key =>
      refine Discipline.obeys_ask.mpr ⟨h key rfl, fun released _ => ?_⟩
      cases released <;> trivial
  · cases dispatch s object op step with
    | error fault => trivial
    | ok way =>
      cases way with
      | eager source lineage => exact (looksAt_evaluate s _ _ _).andThen fun _ => trivial
      | deferred pending => trivial

theorem looksAt_resolve (pending : PendingCall) (step : Option LineageId) :
    LooksAt looks (pending.resolve s step : Job F Outcome).run := by
  unfold PendingCall.resolve
  cases step with
  | some lineage => exact looksAt_evaluate s _ _ _
  | none =>
    dsimp only
    split
    · exact Discipline.obeys_ask.mpr ⟨trivial, fun _ _ => looksAt_evaluate s _ _ _⟩
    · trivial

theorem looksAt_ask {object : Proxy} (h : ∀ key, object = .resolved key → looks key) (q : Query)
    (step : Option LineageId) : LooksAt looks (q.ask s object step : Job F Answer).run := by
  unfold Query.ask
  split
  · refine LooksAt.andThen ?_ fun _ => trivial
    refine (looksAt_call h _ step).andThen fun result => ?_
    cases result with
    | pending pending => trivial
    | resolved outcome => cases outcome <;> trivial
  · refine LooksAt.andThen ?_ fun outcome => ?_
    · refine (looksAt_call h _ step).andThen fun result => ?_
      cases result with
      | pending pending => exact looksAt_resolve pending step
      | resolved outcome => trivial
    · cases q.reading.ofOutcome outcome <;> trivial

theorem looksAt_closeAll (opened : List Opened) :
    LooksAt looks (closeAll opened : Job F Unit).run := by
  induction opened with
  | nil => trivial
  | cons first rest ih => exact Discipline.obeys_ask.mpr ⟨trivial, fun _ _ => ih⟩

theorem looksAt_openAll (opened : List Opened) (count : Nat) :
    LooksAt looks (openAll opened count : Job F (List Opened)).run := by
  induction count generalizing opened with
  | zero => trivial
  | succ count ih =>
    refine Discipline.obeys_ask.mpr ⟨trivial, fun answer _ => ?_⟩
    cases answer with
    | ok endpoint => exact ih _
    | error fault => exact (looksAt_closeAll opened).andThen fun _ => trivial

theorem looksAt_invoke (label template : String) (shape : ResultShape) (slots : List (Slot F))
    (lineage : LineageId) : LooksAt looks (invoke s label template shape slots lineage).run := by
  unfold invoke
  split
  · trivial
  · refine (looksAt_openAll [] slots.length).andThen fun endpoints => ?_
    dsimp only
    cases Program.substituteTokens template (endpoints.map (·.token)) with
    | error fault => trivial
    | ok source =>
      refine Discipline.obeys_pure.mpr ?_
      refine LooksAt.andThen ?_ fun outcome => ?_
      · refine (looksAt_evaluate s source shape lineage).orElse (fun _ _ h => h) ?_
        exact fun _ _ _ => (looksAt_closeAll endpoints).andThen fun _ => trivial
      · exact Discipline.obeys_ask.mpr ⟨trivial, fun _ _ => trivial⟩

/-- The receiver of a query is looked at, and nothing else. -/
theorem looksAt_job (objectCall : ObjectCall F) (object : Proxy) (step : Option LineageId) :
    LooksAt (fun key => object = .resolved key ∧ objectCall.isPanel = false)
      (objectCall.job s object step).run := by
  cases hpanel : objectCall.isPanel with
  | false =>
    obtain ⟨q, hjob⟩ := ObjectCall.exists_query hpanel s
    rw [hjob]
    exact (looksAt_ask (fun key hkey => ⟨hkey, rfl⟩) q step).andThen fun _ => trivial
  | true =>
    cases objectCall with
    | quickPanel label lineage panel =>
      exact (looksAt_invoke label _ _ _ lineage).andThen fun _ => trivial
    | inputPanel label lineage panel =>
      exact (looksAt_invoke label _ _ _ lineage).andThen fun _ => trivial
    | window | view | sheet => cases hpanel

/-- What a routine that obeys asks for is among what it may look at. -/
theorem LooksAt.of_comes {routine : Routine F α} {talk : Talk F} {result : Option α}
    (hcomes : routine.Comes talk result) (h : LooksAt looks routine) {key : String}
    {released : Bool} (hasked : ⟨.isReleased key, released⟩ ∈ talk) : looks key := by
  induction hcomes with
  | yet => cases hasked
  | done => cases hasked
  | ask reply hrest ih =>
    rcases List.mem_cons.mp hasked with heq | hasked
    · cases heq
      exact h.1
    · exact ih (h.2 reply trivial) hasked

end

/-- Queries of released receivers fail and change nothing, and whether anything else was released is
not asked. -/
theorem released_receivers_are_refused :
    (∀ (behave : Behaviour F) (objectCall : ObjectCall F) (st : Session F) (key : String)
      (s : Settings) (step : Option LineageId) (p : Party),
      objectCall.isPanel = false → st.arena.isReleased key = true →
      st.perform behave p (objectCall.job s (.resolved key) step).run =
        (.done (.error (.usage (.releasedHandle key))), st)) ∧
    (∀ (objectCall : ObjectCall F) (s : Settings) (object : Proxy) (step : Option LineageId)
      (talk : Talk F) (result : Option (Except Fault (Answer ⊕ Invoked))),
      (objectCall.job s object step).run.Comes talk result →
      ∀ (key : String) (released : Bool), ⟨.isReleased key, released⟩ ∈ talk →
        object = .resolved key ∧ objectCall.isPanel = false) := by
  refine ⟨?_, ?_⟩
  · intro behave objectCall st key s step p hquery hreleased
    exact Session.perform_released behave hquery hreleased s step p
  · intro objectCall s object step talk result hcomes key released hasked
    exact (looksAt_job objectCall object step).of_comes hcomes hasked

/-! ## A released window -/

/-- A session that was given a window and has released it. -/
def windowReleased : Session Unit :=
  let replies := [(Envelope.handle "w1").toJson, (Envelope.primitive (.ofNat 1)).toJson,
    (Envelope.primitive .null).toJson]
  let started : Session Unit :=
    { settings := {}
      host := .replaying { replies := replies.map .json, tokens := [some "pick"] }
      lineages := [{ label := "step", parent := none }] }
  let given := (started.perform idle .foreground (materialize {} (activeWindow {}) 0).run).2
  (given.perform idle .foreground (releaseHandles {} 0).run).2

theorem released_window_is_refused :
    windowReleased.perform idle .foreground
      ((ObjectCall.window .id).job {} (.resolved "w1") (some 0)).run =
        (.done (.error (.usage (.releasedHandle "w1"))), windowReleased) ∧
    (Proxy.resolved "w1" = .resolved "w1" ∧
      (ObjectCall.window .id : ObjectCall Unit).isPanel = false) := by
  constructor
  · exact released_receivers_are_refused.1 idle (.window .id) windowReleased "w1" {} (some 0)
      .foreground rfl (by decide)
  · have hcomes : ((ObjectCall.window .id : ObjectCall Unit).job {} (.resolved "w1") none).run.Comes
        [⟨.isReleased "w1", true⟩] (some (.error (.usage (.releasedHandle "w1")))) :=
      .ask _ (.done _)
    exact released_receivers_are_refused.2 _ _ _ _ _ _ hcomes "w1" true List.mem_cons_self

def focusProgram : String :=
  Program.enveloped {} (activeWindowSource {} ++
    (Operation.method "focus_view" [Program.handleRef {} "w1"]).suffix) .value

/-- A panel is shown at a window that was released, and a released object is passed on. -/
theorem released_window_is_used : windowReleased.arena.isReleased "w1" = true ∧
    (windowReleased.perform idle .foreground ((ObjectCall.quickPanel "fruit" 0 fruitPanel).job {}
      (.resolved "w1") (some 0)).run).2.journal.events =
        windowReleased.journal.events ++
          [.opened "pick", .executed (fruitProgram (.resolved "w1"))] ∧
    (windowReleased.perform idle .foreground ((ObjectCall.window (.focusView (.resolved "w1"))).job
      {} (activeWindow {}) (some 0)).run).2.journal.events =
        windowReleased.journal.events ++ [.executed focusProgram] := by
  decide +kernel

end RemoteHost
