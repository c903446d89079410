import RemoteHost.Proofs.KeyLifetimes
import RemoteHost.Proofs.LaunchedOperations
import RemoteHost.Proofs.OtherMoves

/-!
# What supervision reports

Supervision forgets an operation when it tells it to end, and reports it as a leak. The operation
hears of it only where it listens: one whose function is running goes on until the function has
returned, and one with nothing to listen to ends without having heard. So every operation that was
reclaimed was reported once, but not all that were reported ended because of it.
-/

namespace RemoteHost

variable {F : Type}

/-- The tokens of the endpoints that an operation was launched with. -/
def Registration.tokens (registration : Registration F) : List String :=
  registration.listeners.map (·.2.token)

namespace Session

/-- The operations that supervision knows, with their numbers. -/
def known (s : Session F) : List (CallbackOperation F × OperationId) :=
  s.operations.zipIdx.filter (·.1.registered)

/-- The operations that supervision reports when it tells them to end, with their tokens. -/
def leaks (s : Session F) (expired : OperationId → Bool) : List (OperationId × List String) :=
  (s.known.filter (expired ·.2)).map fun leaking => (leaking.2, leaking.1.tokens)

variable {s : Session F} {expired : OperationId → Bool} {id : OperationId}
  {op : CallbackOperation F}

theorem map_known (s : Session F) : s.known.map (·.1) = s.pending := by
  have hmap := List.filter_map (f := Prod.fst) (l := s.operations.zipIdx)
    (p := fun op : CallbackOperation F => op.registered)
  rw [List.zipIdx_map_fst] at hmap
  exact hmap.symm

theorem mem_known : (op, id) ∈ s.known ↔ s.operations[id]? = some op ∧ op.registered = true := by
  rw [known, List.mem_filter, List.mem_zipIdx_iff_getElem?]

theorem mem_known_map : id ∈ s.known.map (·.2) ↔
    ∃ op, s.operations[id]? = some op ∧ op.registered = true := by
  rw [List.mem_map]
  constructor
  · rintro ⟨⟨op, id⟩, hmem, rfl⟩
    exact ⟨op, mem_known.mp hmem⟩
  · rintro ⟨op, hmem⟩
    exact ⟨(op, id), mem_known.mpr hmem, rfl⟩

/-- What is reported is what is told to end. -/
theorem map_leaks (s : Session F) (expired : OperationId → Bool) :
    (s.leaks expired).map (·.2) = (s.reclaim expired).1.map (·.tokens) := by
  have hfilter : s.known.filter (expired ·.2) =
      s.operations.zipIdx.filter fun entry => entry.1.registered && expired entry.2 := by
    rw [known, List.filter_filter]
    exact List.filter_congr fun entry _ => Bool.and_comm ..
  have hreclaim : (s.reclaim expired).1 =
      (s.operations.zipIdx.filter fun entry => entry.1.registered && expired entry.2).map (·.1) :=
    rfl
  rw [leaks, hfilter, hreclaim, List.map_map, List.map_map]
  rfl

theorem mem_leaks {tokens : List String} : (id, tokens) ∈ s.leaks expired ↔
    ∃ op, s.operations[id]? = some op ∧ op.registered = true ∧ expired id = true ∧
      tokens = op.tokens := by
  constructor
  · intro h
    obtain ⟨⟨op, id⟩, hmem, heq⟩ := List.mem_map.mp h
    obtain ⟨rfl, rfl⟩ := Prod.mk.inj heq
    obtain ⟨hknown, hexpired⟩ := List.mem_filter.mp hmem
    obtain ⟨hop, hregistered⟩ := mem_known.mp hknown
    exact ⟨op, hop, hregistered, hexpired, rfl⟩
  · rintro ⟨op, hop, hregistered, hexpired, rfl⟩
    refine List.mem_map.mpr ⟨(op, id), ?_, rfl⟩
    exact List.mem_filter.mpr ⟨mem_known.mpr ⟨hop, hregistered⟩, hexpired⟩

/-- No operation is reported twice at once. -/
theorem nodup_leaks (s : Session F) (expired : OperationId → Bool) :
    ((s.leaks expired).map (·.1)).Nodup := by
  have hsub : List.Sublist ((s.known.filter (expired ·.2)).map (·.2))
      (s.operations.zipIdx.map (·.2)) :=
    (List.filter_sublist.trans List.filter_sublist).map _
  rw [leaks, List.map_map]
  refine hsub.nodup ?_
  rw [List.zipIdx_map_snd]
  exact List.nodup_range'

end Session

/-! ## Along a run -/

/-- The lists that supervision reports with a move. -/
def Move.leakLists (s : Session F) : Move F → List (List (OperationId × List String))
  | .reclaim expired => [s.leaks expired]
  | _ => []

namespace Scene

/-- The lists that supervision reports in the course of some moves. -/
def leakLists (behave : Behaviour F) (w : Scene F) :
    List (Move F) → List (List (OperationId × List String))
  | [] => []
  | move :: moves => move.leakLists w.session ++ leakLists behave (w.act behave move) moves

/-- The operations that were told to end are those that have been reported, each once, and no other
was reclaimed. -/
structure Accounted (operations : List (CallbackOperation F))
    (leaks : List (OperationId × List String)) : Prop where
  nodup : (leaks.map (·.1)).Nodup
  listed : ∀ leak ∈ leaks, ∃ op, operations[leak.1]? = some op ∧ op.stopping = true ∧
    leak.2 = op.tokens
  told : ∀ (id : OperationId) op, operations[id]? = some op → op.stopping = true →
    id ∈ leaks.map (·.1)
  reclaimed : ∀ (id : OperationId) op, operations[id]? = some op →
    op.stage = .ended .reclaimed → op.stopping = true

section Accounted

variable {w w' : Scene F} {move : Move F} {operations : List (CallbackOperation F)}
  {leaks : List (OperationId × List String)} {id : OperationId} {op op' : CallbackOperation F}

/-- What was listed is what has been told to end. -/
theorem Accounted.mem_iff (h : Accounted operations leaks) (hop : operations[id]? = some op) :
    id ∈ leaks.map (·.1) ↔ op.stopping = true := by
  refine ⟨fun hmem => ?_, h.told id op hop⟩
  obtain ⟨leak, hleak, rfl⟩ := List.mem_map.mp hmem
  obtain ⟨op', hop', hstopping, -⟩ := h.listed leak hleak
  obtain rfl : op' = op := Option.some.inj (hop'.symm.trans hop)
  exact hstopping

/-- What the operation itself does tells nobody to end. -/
structure KeepsOrders (op op' : CallbackOperation F) : Prop where
  tokens : op'.tokens = op.tokens
  stopping : op'.stopping = op.stopping
  reclaimed : op'.stage = .ended .reclaimed → op.stage = .ended .reclaimed ∨ op.stopping = true

theorem KeepsOrders.refl (op : CallbackOperation F) : KeepsOrders op op := ⟨rfl, rfl, .inl⟩

/-- What does not end an operation. -/
theorem KeepsOrders.running (hlisteners : op'.tokens = op.tokens)
    (hstopping : op'.stopping = op.stopping) (hstage : ∀ ending, op'.stage ≠ .ended ending) :
    KeepsOrders op op' :=
  ⟨hlisteners, hstopping, fun hended => absurd hended (hstage _)⟩

theorem Accounted.untouched (h : Accounted operations leaks)
    {operations' : List (CallbackOperation F)} (hsame : operations' = operations) :
    Accounted operations' leaks :=
  hsame ▸ h

theorem Accounted.modify (h : Accounted operations leaks) (hop : operations[id]? = some op)
    (hkeeps : KeepsOrders op op') :
    Accounted (operations.modify id fun _ => op') leaks where
  nodup := h.nodup
  listed leak hleak := by
    obtain ⟨old, hold, hstopping, htokens⟩ := h.listed leak hleak
    rw [List.getElem?_modify, hold]
    by_cases hid : id = leak.1
    · obtain rfl : op = old := by simpa [hid, hold] using hop.symm
      exact ⟨op', by simp [hid], hkeeps.stopping.trans hstopping, htokens.trans hkeeps.tokens.symm⟩
    · exact ⟨old, by simp [hid], hstopping, htokens⟩
  told i new hnew hstopping := by
    rw [List.getElem?_modify] at hnew
    obtain ⟨old, hold, rfl⟩ := Option.map_eq_some_iff.mp hnew
    split at hstopping
    · rename_i hid
      obtain rfl : op = old := by simpa [← hid, hop] using hold
      exact h.told i op hold (hkeeps.stopping ▸ hstopping)
    · exact h.told i old hold hstopping
  reclaimed i new hnew hstage := by
    rw [List.getElem?_modify] at hnew
    obtain ⟨old, hold, rfl⟩ := Option.map_eq_some_iff.mp hnew
    split at hstage
    · rename_i hid
      subst hid
      rw [if_pos rfl]
      exact hkeeps.stopping.trans ((hkeeps.reclaimed hstage).elim (h.reclaimed _ op hop) fun h => h)
    · rename_i hid
      rw [if_neg hid]
      exact h.reclaimed i old hold hstage

theorem Accounted.launched (h : Accounted operations leaks) (label : String)
    (endpoints : List Opened) (slots : List (Slot F)) (parent : LineageId) :
    Accounted (operations ++ [.started label endpoints slots parent]) leaks where
  nodup := h.nodup
  listed leak hleak := by
    obtain ⟨op, hop, hrest⟩ := h.listed leak hleak
    exact ⟨op, by rw [List.getElem?_append_left (List.getElem?_eq_some_iff.mp hop).1, hop], hrest⟩
  told i op hop hstopping := by
    rw [List.getElem?_append] at hop
    split at hop
    · exact h.told i op hop hstopping
    · rw [List.mem_singleton.mp (List.mem_of_getElem? hop)] at hstopping
      cases hstopping
  reclaimed i op hop hstage := by
    rw [List.getElem?_append] at hop
    split at hop
    · exact h.reclaimed i op hop hstage
    · rw [List.mem_singleton.mp (List.mem_of_getElem? hop)] at hstage
      cases hstage

/-- Supervision tells operations to end that it knows, which none of those does that it told. -/
theorem accounted_reclaim {s : Session F} (h : Accounted s.operations leaks)
    (hknown : ∀ op ∈ s.operations, op.Known) (expired : OperationId → Bool) :
    Accounted (s.reclaim expired).2.operations (leaks ++ s.leaks expired) where
  nodup := by
    rw [List.map_append]
    refine List.nodup_append.mpr ⟨h.nodup, s.nodup_leaks expired, ?_⟩
    rintro _ hold _ hnew rfl
    obtain ⟨leak, hleak, heq⟩ := List.mem_map.mp hold
    obtain ⟨⟨id, tokens⟩, hmem, rfl⟩ := List.mem_map.mp hnew
    obtain ⟨op, hop, hregistered, -⟩ := Session.mem_leaks.mp hmem
    obtain ⟨op', hop', hstopping, -⟩ := h.listed leak hleak
    obtain rfl : op = op' := by simpa [heq, hop] using hop'
    rw [(hknown op (List.mem_of_getElem? hop)).stopping hstopping] at hregistered
    cases hregistered
  listed leak hleak := by
    rw [Session.operations_reclaim]
    rcases List.mem_append.mp hleak with hold | hnew
    · obtain ⟨op, hop, hstopping, htokens⟩ := h.listed leak hold
      refine ⟨_, by rw [hop]; rfl, ?_⟩
      dsimp only
      split
      · exact ⟨rfl, htokens⟩
      · exact ⟨hstopping, htokens⟩
    · obtain ⟨op, hop, hregistered, hexpired, htokens⟩ := Session.mem_leaks.mp hnew
      exact ⟨op.stopped, by simp [hop, hregistered, hexpired], rfl, htokens⟩
  told id new hnew hstopping := by
    rw [Session.operations_reclaim] at hnew
    obtain ⟨op, hop, rfl⟩ := Option.map_eq_some_iff.mp hnew
    rw [List.map_append, List.mem_append]
    by_cases htold : (op.registered && expired id) = true
    · obtain ⟨hregistered, hexpired⟩ := Bool.and_eq_true_iff.mp htold
      have hmem : (id, op.tokens) ∈ s.leaks expired :=
        Session.mem_leaks.mpr ⟨op, hop, hregistered, hexpired, rfl⟩
      exact .inr (List.mem_map_of_mem hmem)
    · rw [if_neg htold] at hstopping
      exact .inl (h.told id op hop hstopping)
  reclaimed id new hnew hstage := by
    rw [Session.operations_reclaim] at hnew
    obtain ⟨op, hop, rfl⟩ := Option.map_eq_some_iff.mp hnew
    split
    · rfl
    · rename_i htold
      rw [if_neg htold] at hstage
      exact h.reclaimed id op hop hstage

theorem keepsOrders_of_turn (hop : w.session.operations[id]? = some op)
    (hturn : Turn w id op move w') (hstop : move = .stop id → op.stopping = true) :
    ∃ op', KeepsOrders op op' ∧
      w'.session.operations = w.session.operations.modify id fun _ => op' := by
  have same : w.session.operations = w.session.operations.modify id fun _ => op :=
    (List.modify_id ..).symm.trans (Callbacks.modify_eq_of_getElem? hop fun op => op)
  have ended : ∀ {session : Session F} (ending : Ending) (last : CallbackOperation F),
      last.tokens = op.tokens → last.stopping = op.stopping →
      (ending = .reclaimed → op.stopping = true) →
      Callbacks.Ends id last ending w.session.callbacks session.callbacks →
      ∃ op', KeepsOrders op op' ∧
        session.operations = w.session.operations.modify id fun _ => op' := by
    rintro session ending last htokens hstopping hreclaimed ⟨c, hshut, hsession⟩
    refine ⟨last.finished ending, ⟨htokens, hstopping, fun hstage => .inr (hreclaimed ?_)⟩,
      congrArg Callbacks.operations hsession⟩
    exact Stage.ended.inj hstage
  cases hturn with
  | idle => exact ⟨op, .refl op, same⟩
  | @deafened session slot listener hstage hget hover hsession =>
    refine ⟨op.deafen slot, .running ?_ rfl (by simp [CallbackOperation.deafen, hstage]), ?_⟩
    · exact CallbackOperation.map_deafen _ (fun _ => rfl) op slot
    · exact (congrArg Callbacks.operations hsession).trans
        (Callbacks.modify_eq_of_getElem? hop (·.deafen slot))
  | refused hstage hget hlistening hseen hrefused hsession =>
    exact ⟨op, .refl op, (congrArg Callbacks.operations hsession).trans same⟩
  | @called session slot listener payload outcome call hstage hget hlistening hseen haccepted hcall
      hsession =>
    exact ⟨{ op with stage := .calling call }, .running rfl rfl (by simp),
      (congrArg Callbacks.operations hsession).trans (Callbacks.modify_eq_of_getElem? hop _)⟩
  | resumed hstage hcall hsession =>
    exact ⟨op.resumed, .running rfl rfl (by simp [CallbackOperation.resumed]),
      congrArg Callbacks.operations hsession⟩
  | fired hstage hcall hends =>
    exact ended .oneShotFired op.resumed rfl rfl (by rintro ⟨⟩) hends
  | died hstage hends => exact ended .aborted op rfl rfl (by rintro ⟨⟩) hends
  | stopped hstage hends => exact ended .reclaimed op rfl rfl (fun _ => hstop rfl) hends
  | exhausted hstage hdeaf hends =>
    exact ended .endpointsClosed op rfl rfl (by rintro ⟨⟩) hends

theorem accounted_of_answered {c c' : Callbacks F} (h : Accounted c.operations leaks) {p : Party}
    {request : Request F} {reply : request.Reply} (hanswered : Answered c p request reply c') :
    Accounted c'.operations leaks := by
  cases request with
  | openEndpoint =>
    cases reply with
    | error fault => exact h.untouched (congrArg Callbacks.operations hanswered)
    | ok opened =>
      obtain ⟨-, rfl⟩ := hanswered
      exact h
  | closeEndpoint endpoint => exact h.untouched hanswered.operations
  | launch label endpoints slots parent =>
    obtain ⟨-, rfl⟩ := hanswered
    exact h.launched label endpoints slots parent
  | _ => exact h.untouched (congrArg Callbacks.operations hanswered)

theorem accounted_act (behave : Behaviour F) (h : Accounted w.session.operations leaks)
    (hknown : ∀ op ∈ w.session.operations, op.Known) (move : Move F) :
    Accounted (w.act behave move).session.operations
      (leaks ++ (move.leakLists w.session).flatten) := by
  by_cases hreclaim : ∃ expired, move = .reclaim expired
  · obtain ⟨expired, rfl⟩ := hreclaim
    rw [Move.leakLists, List.flatten_singleton]
    exact accounted_reclaim h hknown expired
  have hnone : move.leakLists w.session = [] := by
    cases move with
    | reclaim expired => exact absurd ⟨expired, rfl⟩ hreclaim
    | _ => rfl
  rw [hnone, List.flatten_nil, List.append_nil]
  have hacted := acted_act behave w move
  generalize hact : w.act behave move = w' at hacted ⊢
  cases hacted with
  | still hmove hsame => exact h.untouched (congrArg Callbacks.operations hsame)
  | began | gained => exact h
  | asked hbusy hanswered => exact accounted_of_answered (c := w.session.callbacks) h hanswered
  | abandoned hbusy hshut => exact h.untouched hshut.operations
  | arrived hopen hconnected hsession =>
    exact h.untouched (congrArg Callbacks.operations hsession)
  | disconnected hsession => exact h.untouched (congrArg Callbacks.operations hsession)
  | told htold hsession => exact absurd ⟨_, rfl⟩ hreclaim
  | @turned move id op w' hmove hop hturn =>
    by_cases hidle : move = .stop id ∧ op.stopping = false
    · obtain ⟨rfl, hstopping⟩ := hidle
      rw [act, withOperation, hop] at hact
      exact ((stop_of_not_stopping hstopping).symm.trans hact) ▸ h
    · have hstop : move = .stop id → op.stopping = true := fun hstop =>
        (Bool.not_eq_false _).mp fun hfalse => hidle ⟨hstop, hfalse⟩
      obtain ⟨op', hkeeps, hoperations⟩ := keepsOrders_of_turn hop hturn hstop
      exact hoperations ▸ h.modify hop hkeeps

theorem accounted_run (behave : Behaviour F) (h : Accounted w.session.operations leaks)
    (henrolled : Enrolled w.session.operations w.history) (moves : List (Move F)) :
    Accounted (w.run behave moves).session.operations
      (leaks ++ (w.leakLists behave moves).flatten) := by
  induction moves generalizing w leaks with
  | nil => simpa [leakLists, run] using h
  | cons move moves ih =>
    rw [leakLists, List.flatten_append, ← List.append_assoc]
    exact ih (accounted_act behave h henrolled.known move)
      (enrolled_of_acted henrolled (acted_act behave w move))

theorem accounted_start (behave : Behaviour F) (settings : Settings) (host : Host)
    (moves : List (Move F)) :
    Accounted ((start settings host).run behave moves).session.operations
      ((start settings host).leakLists behave moves).flatten := by
  have hnone : Accounted (start settings host : Scene F).session.operations [] :=
    ⟨List.nodup_nil, nofun, by simp [start], by simp [start]⟩
  exact accounted_run behave hnone ⟨rfl, by simp [start]⟩ moves

end Accounted

/-! ## Launches and successes -/

/-- Rules under which nothing is launched. -/
def launchless : Discipline F Unit where
  allows
    | _, .launch _ _ _ _ => False
    | _, _ => True
  expects _ _ _ := True
  after _ _ _ := ()

theorem launchless_ignoresRoundTrips : (launchless (F := F)).IgnoresRoundTrips () where
  enter _ _ := ⟨trivial, fun _ => rfl⟩
  submit _ := ⟨trivial, fun _ => rfl⟩
  collect := ⟨trivial, fun _ => rfl⟩
  complete _ := ⟨trivial, fun _ => rfl⟩
  record _ := ⟨trivial, fun _ => rfl⟩

theorem not_launch_of_obeys {α : Type} {post : Unit → α → Prop} {routine : Routine F α}
    {talk : Talk F} {label : String} {endpoints : List Opened} {slots : List (Slot F)}
    {parent : LineageId} {next : OperationId → Routine F α}
    (hobeys : launchless.Obeys post () routine) :
    ¬ routine.Leads talk (.ask (.launch label endpoints slots parent) next) := by
  intro hleads
  generalize hrest : (Routine.ask (.launch label endpoints slots parent) next : Routine F α) =
    rest at hleads
  induction hleads with
  | here routine =>
    subst hrest
    exact hobeys.1
  | ask reply h ih => exact ih (hobeys.2 reply trivial) hrest

/-- Whoever is about to launch something is in the middle of an invoke. -/
theorem isInvoke_of_launch {s : Settings} {service : Service F} {talk : Talk F} {label : String}
    {endpoints : List Opened} {slots : List (Slot F)} {parent : LineageId}
    {next : OperationId → Routine F (Except Fault service.Result)}
    (hleads : (service.job s).run.Leads talk (.ask (.launch label endpoints slots parent) next)) :
    ∃ name template shape slots lineage, service = .invoke name template shape slots lineage := by
  have hround := launchless_ignoresRoundTrips (F := F)
  cases service with
  | evaluate expression shape lineage =>
    exact absurd hleads (not_launch_of_obeys (hround.evaluate s expression shape lineage))
  | installPrelude lineage =>
    exact absurd hleads (not_launch_of_obeys (hround.installPrelude s lineage))
  | release lineage =>
    have hobeys : launchless.Obeys (fun _ _ => True) ()
        (releaseHandles s lineage : Job F Nat).run := by
      refine Discipline.obeys_ask.mpr ⟨trivial, fun keys _ => ?_⟩
      by_cases hkeys : keys.isEmpty
      · simp only [hkeys, if_true]
        trivial
      · simp only [hkeys, Bool.false_eq_true, if_false]
        refine (hround.evaluateAs s _ .value lineage readReleaseCount).orElse
          (fun _ _ _ => trivial) ?_
        exact fun _ fault _ => Discipline.obeys_ask.mpr ⟨trivial, fun _ _ => trivial⟩
    exact absurd hleads (not_launch_of_obeys hobeys)
  | invoke name template shape slots lineage => exact ⟨name, template, shape, slots, lineage, rfl⟩

/-- A party has launched an operation with the last thing that its invoke asked for, and the invoke
has succeeded. -/
def Succeeded (p : Party) (history : List (Occurrence F)) (id : OperationId)
    (tokens : List String) : Prop :=
  ∃ name template shape slots lineage, ∃ invoked : Invoked, invoked.operation = id ∧
    invoked.tokens = tokens ∧
    Underway p history (.invoke name template shape slots lineage) (.done (.ok invoked))

theorem Underway.launched {p : Party} {history : List (Occurrence F)} {service : Service F}
    {label : String} {endpoints : List Opened} {slots : List (Slot F)} {parent : LineageId}
    {next : OperationId → Routine F (Except Fault service.Result)}
    (h : Underway p history service (.ask (.launch label endpoints slots parent) next))
    (id : OperationId) :
    Succeeded p (history ++ [.asked p (.launch label endpoints slots parent) id]) id
      (endpoints.map (·.token)) := by
  have hafter := h.asked id
  obtain ⟨s, past, since, -, hleads⟩ := h
  obtain ⟨name, template, shape, all, lineage, rfl⟩ := isInvoke_of_launch hleads
  have hlast := hleads.snoc id
  obtain ⟨-, hendpoints, -⟩ := invoke_launches hlast
  let talk : Talk F := talkOf p since ++ [⟨.launch label endpoints slots parent, id⟩]
  have hlaunched : talk.launched = [id] :=
    (Talk.launched_snoc ..).trans (by rw [launched_of_awaits ⟨_, _, hleads⟩]; rfl)
  have hopened : talk.opened = endpoints :=
    (Talk.opened_snoc ..).trans ((List.append_nil _).trans hendpoints.symm)
  generalize next id = rest at hafter hlast
  cases rest with
  | ask request next => cases hlaunched.symm.trans (launched_of_awaits ⟨_, _, hlast⟩)
  | done result =>
    have hstarts := starts_of_done hlast
    cases result with
    | error fault => cases hlaunched.symm.trans hstarts
    | ok invoked =>
      obtain ⟨hone, htokens, -⟩ := hstarts
      refine ⟨name, template, shape, all, lineage, invoked, ?_, ?_, hafter⟩
      · exact (List.singleton_inj.mp (hlaunched.symm.trans hone)).symm
      · exact htokens.trans (congrArg _ hopened)

/-- Whatever was launched was launched by an invoke that succeeded with it. -/
def LaunchesSucceed (history : List (Occurrence F)) : Prop :=
  ∀ p label endpoints slots parent (id : OperationId) before after,
    history = before ++ .asked p (.launch label endpoints slots parent) id :: after →
      Succeeded p (before ++ [.asked p (.launch label endpoints slots parent) id]) id
        (endpoints.map (·.token))

theorem LaunchesSucceed.append {history occurrences : List (Occurrence F)}
    (h : LaunchesSucceed history)
    (hnew : ∀ p label endpoints slots parent (id : OperationId) first last,
      occurrences = first ++ .asked p (.launch label endpoints slots parent) id :: last →
        Succeeded p (history ++ first ++ [.asked p (.launch label endpoints slots parent) id]) id
          (endpoints.map (·.token))) :
    LaunchesSucceed (history ++ occurrences) := by
  intro p label endpoints slots parent id before after hsplit
  rcases List.append_eq_append_iff.mp hsplit with ⟨first, rfl, hlater⟩ | ⟨middle, hearlier, hrest⟩
  · exact hnew p label endpoints slots parent id first after hlater
  · cases middle with
    | nil =>
      rw [List.append_nil] at hearlier
      have hlast := hnew p label endpoints slots parent id [] after hrest.symm
      rwa [List.append_nil, hearlier] at hlast
    | cons first middle =>
      obtain ⟨rfl, -⟩ := List.cons.inj hrest
      exact h p label endpoints slots parent id before middle hearlier

theorem LaunchesSucceed.quiet {history occurrences : List (Occurrence F)}
    (h : LaunchesSucceed history) (hnone : launches occurrences = []) :
    LaunchesSucceed (history ++ occurrences) := by
  refine h.append fun p label endpoints slots parent id first last heq => ?_
  simp [heq, launches] at hnone

theorem LaunchesSucceed.longer {history history' : List (Occurrence F)}
    (h : LaunchesSucceed history) (hlonger : history <+: history')
    (hsame : launches history' = launches history) : LaunchesSucceed history' := by
  obtain ⟨occurrences, rfl⟩ := hlonger
  rw [launches_append] at hsame
  exact h.quiet (List.append_right_eq_self.mp hsame)

end Scene

end RemoteHost
