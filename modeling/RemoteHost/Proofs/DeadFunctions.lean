import RemoteHost.Proofs.EndpointFates
import RemoteHost.Proofs.LeakReports

/-!
# When the function of a slot dies

With its function an operation goes down. Its endpoints are closed then, each of them once, but
nobody tells supervision: it goes on listing the operation until it reports it as a leak, and the
report of the operation counts no function although all that were called were called.
-/

namespace RemoteHost

variable {F : Type}

/-! ## How often an endpoint goes -/

/-- What changes in open endpoints. New ones are open, and none that was closed opens again. -/
structure Board.Ages (b b' : Board) : Prop where
  length : b.length ≤ b'.length
  closed : ∀ e < b.length, b'.isOpen e = true → b.isOpen e = true
  born : ∀ e, b.length ≤ e → e < b'.length → b'.isOpen e = true

namespace Board.Ages

variable {b b' : Board}

theorem of_isOpen (hlength : b'.length = b.length)
    (hclosed : ∀ e, b'.isOpen e = true → b.isOpen e = true) : Ages b b' where
  length := Nat.le_of_eq hlength.symm
  closed e _ := hclosed e
  born _ hold hnew := absurd (hlength ▸ hnew) (Nat.not_lt.mpr hold)

theorem of_eq (h : b' = b) : Ages b b' :=
  of_isOpen (congrArg List.length h) fun _ hopen => h ▸ hopen

theorem opened (hlength : b'.length = b.length) (hopen : ∀ e, b'.isOpen e = b.isOpen e)
    (token : String) : Ages b (b'.openLine token).2 where
  length := by
    rw [Board.length_openLine, hlength]
    exact Nat.le_succ _
  closed e he hnew := by
    rw [Board.isOpen_openLine, hopen, hlength] at hnew
    simpa [Nat.ne_of_lt he] using hnew
  born e hold hnew := by
    rw [Board.length_openLine, hlength] at hnew
    rw [Board.isOpen_openLine, hlength, Nat.le_antisymm (Nat.le_of_lt_succ hnew) hold]
    simp

/-- An endpoint is open, or was closed, or is not there yet. -/
theorem balance (h : Ages b b') (e : EndpointId) :
    (b.isOpen e && !b'.isOpen e).toNat + (b'.isOpen e).toNat + (decide (e < b.length)).toNat =
      (b.isOpen e).toNat + (decide (e < b'.length)).toNat := by
  have hout : ∀ b : Board, b.length ≤ e → b.isOpen e = false := fun b hb =>
    Bool.eq_false_iff.mpr fun hopen => Nat.not_lt.mpr hb (Board.lt_length_of_isOpen hopen)
  by_cases hold : e < b.length
  · have hclosed := h.closed e hold
    have hlength : e < b'.length := Nat.lt_of_lt_of_le hold h.length
    cases hopen : b.isOpen e <;> cases hopen' : b'.isOpen e <;> simp_all
  · have hshut := hout b (Nat.le_of_not_lt hold)
    by_cases hnew : e < b'.length
    · have hborn := h.born e (Nat.le_of_not_lt hold) hnew
      simp [hold, hnew, hshut, hborn]
    · simp [hold, hnew, hshut, hout b' (Nat.le_of_not_lt hnew)]

end Board.Ages

theorem Callbacks.Shut.ages {es : List EndpointId} {c c' : Callbacks F} (h : Shut es c c') :
    Board.Ages c.board c'.board := by
  refine .of_isOpen h.length fun e hopen => ?_
  rw [h.isOpen] at hopen
  exact (Bool.and_eq_true_iff.mp hopen).1

theorem Callbacks.Ends.ages {id : OperationId} {op : CallbackOperation F} {ending : Ending}
    {c c' : Callbacks F} (h : Ends id op ending c c') : Board.Ages c.board c'.board := by
  obtain ⟨c₁, hshut, rfl⟩ := h
  exact hshut.ages

namespace Scene

variable {w w' : Scene F} {move : Move F} {id : OperationId} {op : CallbackOperation F}

theorem ages_of_turn (hturn : Turn w id op move w') :
    Board.Ages w.session.board w'.session.board := by
  have same : ∀ {c : Callbacks F}, w'.session.callbacks = c → c.board = w.session.board →
      Board.Ages w.session.board w'.session.board := fun hsession hboard =>
    .of_eq ((congrArg Callbacks.board hsession).trans hboard)
  have taken : ∀ {c : Callbacks F} {e : EndpointId}, w'.session.callbacks = c →
      c.board = w.session.board.take e → Board.Ages w.session.board w'.session.board := by
    intro c e hsession hboard
    have htake : w'.session.board = w.session.board.take e :=
      (congrArg Callbacks.board hsession).trans hboard
    rw [htake]
    exact .of_isOpen (Board.length_take ..) fun i hi => by simpa using hi
  cases hturn with
  | idle => exact .of_eq rfl
  | deafened _ _ _ hsession => exact same hsession rfl
  | resumed _ _ hsession => exact same hsession rfl
  | refused _ _ _ _ _ hsession => exact taken hsession rfl
  | called _ _ _ _ _ _ hsession => exact taken hsession rfl
  | fired _ _ hends | died _ hends | stopped _ hends | exhausted _ _ hends => exact hends.ages

theorem ages_of_answered {c c' : Callbacks F} {p : Party} {request : Request F}
    {reply : request.Reply} (h : Answered c p request reply c') :
    Board.Ages c.board c'.board := by
  cases request with
  | openEndpoint =>
    cases reply with
    | error fault => exact .of_eq (congrArg Callbacks.board h)
    | ok opened =>
      obtain ⟨-, rfl⟩ := h
      exact .opened (Board.length_disown _ opened.token) (Board.isOpen_disown _ opened.token) _
  | closeEndpoint endpoint => exact Callbacks.Shut.ages h
  | launch label endpoints slots parent =>
    obtain ⟨-, rfl⟩ := h
    exact .of_eq rfl
  | _ => exact .of_eq (congrArg Callbacks.board h)

theorem ages_of_acted (hacted : Acted w move w') :
    Board.Ages w.session.board w'.session.board := by
  have changed : ∀ {session : Session F} {e : EndpointId} {f : Endpoint → Endpoint},
      session.board = w.session.board.modify e f →
      (∀ i, Board.isOpen (w.session.board.modify e f) i = w.session.board.isOpen i) →
        Board.Ages w.session.board session.board := by
    intro session e f hboard hopen
    rw [hboard]
    exact .of_isOpen (List.length_modify ..) fun i hi => hopen i ▸ hi
  cases hacted with
  | still _ hsame => exact .of_eq (congrArg Callbacks.board hsame)
  | began | gained => exact .of_eq rfl
  | asked _ hanswered => exact ages_of_answered (c := w.session.callbacks) hanswered
  | abandoned _ hshut => exact hshut.ages
  | arrived _ _ hsession =>
    exact changed (congrArg Callbacks.board hsession) fun i => Board.isOpen_append ..
  | disconnected hsession =>
    exact changed (congrArg Callbacks.board hsession) fun i => Board.isOpen_disconnect ..
  | told _ hsession =>
    have hboard := congrArg Callbacks.board hsession
    exact .of_eq hboard
  | turned _ _ hturn => exact ages_of_turn hturn

/-- How often an endpoint is open before a move and is not after it. -/
def closures (behave : Behaviour F) (e : EndpointId) : Scene F → List (Move F) → Nat
  | _, [] => 0
  | w, move :: moves =>
    (w.session.board.isOpen e && !(w.act behave move).session.board.isOpen e).toNat +
      closures behave e (w.act behave move) moves

theorem closures_balance (behave : Behaviour F) (e : EndpointId) (w : Scene F)
    (moves : List (Move F)) :
    closures behave e w moves + ((w.run behave moves).session.board.isOpen e).toNat +
        (decide (e < w.session.board.length)).toNat =
      (w.session.board.isOpen e).toNat +
        (decide (e < (w.run behave moves).session.board.length)).toNat := by
  induction moves generalizing w with
  | nil =>
    rw [closures, Nat.zero_add]
    rfl
  | cons move moves ih =>
    have hmove := (ages_of_acted (acted_act behave w move)).balance e
    have hmoves := ih (w.act behave move)
    change _ + closures behave e (w.act behave move) moves +
      (((w.act behave move).run behave moves).session.board.isOpen e).toNat + _ =
      _ + (decide (e < ((w.act behave move).run behave moves).session.board.length)).toNat
    omega

/-- An endpoint that was opened and is not open any more was closed once. -/
theorem closures_eq_one (behave : Behaviour F) (settings : Settings) (host : Host)
    (moves : List (Move F)) {e : EndpointId}
    (hborn : e < ((start settings host).run behave moves).session.board.length)
    (hclosed : ((start settings host).run behave moves).session.board.isOpen e = false) :
    closures behave e (start settings host) moves = 1 := by
  have hbalance := closures_balance behave e (start settings host) moves
  have hnone : (start settings host : Scene F).session.board.isOpen e = false := by
    simp [start, Board.isOpen]
  have hempty : (start settings host : Scene F).session.board.length = 0 := rfl
  simpa [hborn, hclosed, hnone, hempty] using hbalance

/-! ## Operations that have ended -/

theorem turn_of_ended {ending : Ending} (hstage : op.stage = .ended ending)
    (hturn : Turn w id op move w') : w' = w := by
  have hnot : ∀ {stage : Stage F}, op.stage = stage → (∀ ending, stage ≠ .ended ending) → w' = w :=
    fun hrunning hne => absurd (hrunning.symm.trans hstage) (hne ending)
  cases hturn with
  | idle => rfl
  | deafened hrunning => exact hnot hrunning nofun
  | refused hrunning => exact hnot hrunning nofun
  | called hrunning => exact hnot hrunning nofun
  | resumed hrunning => exact hnot hrunning nofun
  | fired hrunning => exact hnot hrunning nofun
  | died hrunning => exact hnot hrunning nofun
  | stopped hrunning => exact hnot hrunning nofun
  | exhausted hrunning => exact hnot hrunning nofun

/-- Nothing happens any more to an operation that has ended, but that it may be told to end. -/
def Settled (operations : List (CallbackOperation F)) (id : OperationId)
    (op : CallbackOperation F) : Prop :=
  operations[id]? = some op ∨ operations[id]? = some op.stopped

section Settled

variable {operations operations' : List (CallbackOperation F)}

theorem Settled.untouched (h : Settled operations id op)
    (hsame : operations'[id]? = operations[id]?) : Settled operations' id op :=
  h.imp hsame.trans hsame.trans

theorem Settled.told (h : Settled operations id op)
    (htold : Callbacks.Told operations operations') : Settled operations' id op := by
  rcases htold id with hsame | hstopped
  · exact h.untouched hsame
  · right
    rcases h with h | h <;> rw [hstopped, h] <;> rfl

theorem Settled.answered {c c' : Callbacks F} (h : Settled c.operations id op) {p : Party}
    {request : Request F} {reply : request.Reply} (hanswered : Answered c p request reply c') :
    Settled c'.operations id op := by
  have same : c'.operations = c.operations → Settled c'.operations id op := fun hsame =>
    h.untouched (congrArg (·[id]?) hsame)
  cases request with
  | openEndpoint =>
    cases reply with
    | error fault => exact same (congrArg Callbacks.operations hanswered)
    | ok opened =>
      obtain ⟨-, rfl⟩ := hanswered
      exact h
  | closeEndpoint endpoint => exact same hanswered.operations
  | launch label endpoints slots parent =>
    obtain ⟨-, rfl⟩ := hanswered
    have hlt : id < c.operations.length := by
      rcases h with h | h <;> exact (List.getElem?_eq_some_iff.mp h).1
    exact h.untouched (List.getElem?_append_left hlt)
  | _ => exact same (congrArg Callbacks.operations hanswered)

/-- The turn of another operation leaves this one alone, and it has no turn of its own. -/
theorem Settled.turned {ending : Ending} (hstage : op.stage = .ended ending)
    (h : Settled w.session.operations id op) {other : OperationId} {op' : CallbackOperation F}
    (hop : w.session.operations[other]? = some op') (hturn : Turn w other op' move w') :
    Settled w'.session.operations id op := by
  by_cases hother : other = id
  · subst hother
    have hended : op'.stage = .ended ending := by
      rcases h with h | h <;> rw [hop] at h <;> cases h <;> exact hstage
    rw [turn_of_ended hended hturn]
    exact h
  · obtain ⟨new, -, -, hoperations⟩ := operation_of_turn hop hturn
    refine h.untouched ?_
    simp [hoperations, hother]

theorem Settled.acted {ending : Ending} (hstage : op.stage = .ended ending)
    (h : Settled w.session.operations id op) (hacted : Acted w move w') :
    Settled w'.session.operations id op := by
  have same : w'.session.callbacks.operations = w.session.operations →
      Settled w'.session.operations id op := fun hsame => h.untouched (congrArg (·[id]?) hsame)
  cases hacted with
  | still _ hsame => exact same (congrArg Callbacks.operations hsame)
  | began | gained => exact h
  | asked _ hanswered => exact h.answered (c := w.session.callbacks) hanswered
  | abandoned _ hshut => exact same hshut.operations
  | arrived _ _ hsession => exact same (congrArg Callbacks.operations hsession)
  | disconnected hsession => exact same (congrArg Callbacks.operations hsession)
  | @told _ session operations htold hsession =>
    have hoperations : session.operations = operations := congrArg Callbacks.operations hsession
    exact hoperations ▸ h.told htold
  | turned _ hop hturn => exact h.turned hstage hop hturn

theorem Settled.run (behave : Behaviour F) {ending : Ending} (hstage : op.stage = .ended ending)
    (h : Settled w.session.operations id op) (moves : List (Move F)) :
    Settled (w.run behave moves).session.operations id op :=
  run_induction (P := fun w => Settled w.session.operations id op) h
    (fun w move h => h.acted hstage (acted_act behave w move)) moves

/-- An operation that was aborted is as it was, but that supervision knows it until it has told it
to end. -/
theorem Settled.exists_aborted (hknown : op.Known) (hrunning : ∀ ending, op.stage ≠ .ended ending)
    (h : Settled operations id (op.finished .aborted)) :
    ∃ last, operations[id]? = some last ∧ last.stage = .ended .aborted ∧ last.label = op.label ∧
      last.listeners = op.listeners ∧ last.invocations = op.invocations ∧
      last.registered = !last.stopping := by
  rcases h with h | h
  · refine ⟨_, h, rfl, rfl, rfl, rfl, ?_⟩
    cases hstopping : op.stopping with
    | false => simp [CallbackOperation.finished, hstopping, hknown.running hstopping hrunning]
    | true => simp [CallbackOperation.finished, hstopping, hknown.stopping hstopping]
  · exact ⟨_, h, rfl, rfl, rfl, rfl, rfl⟩

end Settled

/-! ## The death of a function -/

theorem leakLists_append (behave : Behaviour F) (w : Scene F) (before later : List (Move F)) :
    w.leakLists behave (before ++ later) =
      w.leakLists behave before ++ (w.run behave before).leakLists behave later := by
  induction before generalizing w with
  | nil => rfl
  | cons move before ih =>
    rw [List.cons_append, leakLists, leakLists, ih, List.append_assoc]
    rfl

/-- An operation whose function is running, with nothing that it waits for. -/
theorem calling_of_isFree (h : w.isFree (.callback id) = true) : ∃ op call,
    w.session.operations[id]? = some op ∧ op.stage = .calling call ∧
      w.busy (.callback id) = none := by
  have hbusy := busy_of_isFree h
  have hcalling : w.isCalling id = true := (Bool.and_eq_true_iff.mp h).2
  unfold isCalling at hcalling
  split at hcalling
  · rename_i op hop
    split at hcalling
    · rename_i call hstage
      exact ⟨op, call, hop, hstage, hbusy⟩
    · cases hcalling
  · cases hcalling

theorem settled_of_died (behave : Behaviour F) {call : Calling F}
    (hop : w.session.operations[id]? = some op) (hstage : op.stage = .calling call)
    (hbusy : w.busy (.callback id) = none) :
    Settled (w.act behave (.conclude id .died)).session.operations id (op.finished .aborted) := by
  have hact : (w.act behave (.conclude id .died)).session =
      w.session.conclude id op call .died := by
    simp [act, withOperation, hop, conclude, hstage, hbusy]
  obtain ⟨c, hshut, hsession⟩ := Callbacks.conclude_died hop call
  have hoperations : (w.session.conclude id op call .died).operations =
      w.session.operations.modify id fun _ => op.finished .aborted :=
    congrArg Callbacks.operations hsession
  left
  simp [hact, hoperations, hop]

/-- What has become of an operation whose function died, at any time since. -/
structure Aftermath (behave : Behaviour F) (w₀ : Scene F) (moves : List (Move F))
    (id : OperationId) (op : CallbackOperation F) : Prop where
  /-- Some functions returned, the next one was called and died, and nothing came after that. The
  report counts none of them. -/
  told : ∃ rounds slot outcome, Rounds op.slots op.invocations rounds ∧
    story (w₀.run behave moves).history id =
      rounds ++ [.called slot outcome, .returned .died, .ended ⟨op.label, 0, .aborted⟩]
  counted : callCount (story (w₀.run behave moves).history id) = op.invocations + 1
  reported : ⟨op.label, 0, .aborted⟩ ∈ (w₀.run behave moves).session.journal.endings
  closed : ∀ e ∈ op.endpoints, (w₀.run behave moves).session.board.isOpen e = false ∧
    closures behave e w₀ moves = 1
  /-- Supervision knows the operation until it has listed it. -/
  pending : id ∈ (w₀.run behave moves).session.known.map (·.2) ↔
    id ∉ (w₀.leakLists behave moves).flatten.map (·.1)
  /-- A list names the operation if it has expired and no list has named it yet. -/
  leaks : ∀ expired, (id, op.tokens) ∈ (w₀.run behave moves).session.leaks expired ↔
    expired id = true ∧ id ∉ (w₀.leakLists behave moves).flatten.map (·.1)
  once : ((w₀.leakLists behave moves).flatten.map (·.1)).count id ≤ 1

/-- It is enough to know the operation as it was when its function died. -/
theorem aftermath_of_settled (behave : Behaviour F) (settings : Settings) (host : Host)
    (moves : List (Move F)) (hknown : op.Known) (hrunning : ∀ ending, op.stage ≠ .ended ending)
    (h : Settled ((start settings host).run behave moves).session.operations id
      (op.finished .aborted)) :
    Aftermath behave (start settings host) moves id op := by
  obtain ⟨last, hop, hstage, hlabel, hlisteners, hinvocations, hregistered⟩ :=
    h.exists_aborted hknown hrunning
  have hcourse := (coursing_run behave settings host moves).courses id last hop
  have haccounted := accounted_start behave settings host moves
  have howned : Owned ((start settings host).run behave moves).session.callbacks
      ((start settings host).run behave moves).busy := owned_run settings host moves
  have htold := haccounted.mem_iff hop
  have hslots : last.slots = op.slots := congrArg (List.map _) hlisteners
  have hendpoints : last.endpoints = op.endpoints := congrArg (List.map _) hlisteners
  have htokens : last.tokens = op.tokens := congrArg (List.map _) hlisteners
  have hreport : last.report .aborted = ⟨op.label, 0, .aborted⟩ := by
    simp [CallbackOperation.report, hlabel]
  obtain ⟨n, rounds, finale, hrounds, hfinale, hstory⟩ := hcourse.tells
  rw [hstage] at hfinale
  cases hfinale with
  | @died slot outcome cardinality hslot =>
    rw [hreport] at hstory
    rw [hinvocations, hslots] at hrounds
    constructor
    case told => exact ⟨rounds, slot, outcome, hrounds, hstory⟩
    case counted =>
      rw [hstory, callCount_append, hrounds.callCount]
      rfl
    case reported => exact hcourse.reported _ (by simp [hstory])
    case closed =>
      intro e he
      rw [← hendpoints] at he
      have hclosed := hcourse.closed .aborted hstage e he
      have hborn := howned.bounded e
        (List.mem_append_right _ (List.mem_flatMap.mpr ⟨last, List.mem_of_getElem? hop, he⟩))
      exact ⟨hclosed, closures_eq_one behave settings host moves hborn hclosed⟩
    case pending =>
      rw [htold, Session.mem_known_map]
      constructor
      · rintro ⟨op', hop', hknown'⟩
        obtain rfl : op' = last := Option.some.inj (hop'.symm.trans hop)
        simpa [hregistered] using hknown'
      · exact fun hnot => ⟨last, hop, by simpa [hregistered] using hnot⟩
    case leaks =>
      intro expired
      rw [htold, Session.mem_leaks]
      constructor
      · rintro ⟨op', hop', hknown', hexpired, -⟩
        obtain rfl : op' = last := Option.some.inj (hop'.symm.trans hop)
        exact ⟨hexpired, by simpa [hregistered] using hknown'⟩
      · rintro ⟨hexpired, hnot⟩
        exact ⟨last, hop, by simpa [hregistered] using hnot, hexpired, htokens.symm⟩
    case once => exact List.nodup_iff_count_le_one.mp haccounted.nodup id

/-- Whatever happens after the function of an operation has died, the endpoints of the operation
were closed once each. But supervision goes on listing it, unless it has told it to end before, and
its report says that no function was called. -/
theorem dead_function_aftermath (behave : Behaviour F) (settings : Settings) (host : Host)
    (before later : List (Move F)) {id : OperationId}
    (hfree : ((start settings host).run behave before).isFree (.callback id) = true) :
    ∃ op, ((start settings host).run behave before).session.operations[id]? = some op ∧
      Aftermath behave (start settings host) (before ++ .conclude id .died :: later) id op ∧
      (id ∈ ((start settings host).leakLists behave before).flatten.map (·.1) →
        id ∉ ((start settings host).run behave
          (before ++ .conclude id .died :: later)).session.known.map (·.2) ∧
        id ∉ ((((start settings host).run behave before).act behave
          (.conclude id .died)).leakLists behave later).flatten.map (·.1)) := by
  obtain ⟨op, call, hop, hstage, hbusy⟩ := calling_of_isFree hfree
  have hrunning : ∀ ending, op.stage ≠ .ended ending := by simp [hstage]
  have hknown := (enrolled_run behave settings host before).known op (List.mem_of_getElem? hop)
  have hsettled := (settled_of_died behave hop hstage hbusy).run behave rfl later
  have hrun : ((start settings host).run behave (before ++ .conclude id .died :: later)) =
      (((start settings host).run behave before).act behave (.conclude id .died)).run behave
        later := run_append ..
  rw [← hrun] at hsettled
  have haftermath := aftermath_of_settled behave settings host _ hknown hrunning hsettled
  refine ⟨op, hop, haftermath, fun hlisted => ?_⟩
  have hlists : (start settings host).leakLists behave (before ++ .conclude id .died :: later) =
      (start settings host).leakLists behave before ++
        (((start settings host).run behave before).act behave
          (.conclude id .died)).leakLists behave later := leakLists_append ..
  have hcount := haftermath.once
  have hpending := haftermath.pending
  rw [hlists, List.flatten_append, List.map_append] at hcount hpending
  rw [List.count_append] at hcount
  refine ⟨fun hmem => hpending.mp hmem (List.mem_append_left _ hlisted), ?_⟩
  have hfirst := List.count_pos_iff.mpr hlisted
  exact List.count_eq_zero.mp (by omega)

/-- A panel is shown, and its function is called. -/
def panelCalling : List (Move Unit) :=
  .begin .foreground (.invoke "panel" Program.placeholder .value [⟨.oneShot, .value, ()⟩] 0) ::
    List.replicate 7 (.go .foreground) ++ [.fire "panel" Envelope.none.toJson, .look 0 0]

theorem calling_panel_aftermath :
    ((start {} briefHost).run returning panelCalling).isFree (.callback 0) = true ∧
    ∃ op, ((start {} briefHost).run returning panelCalling).session.operations[0]? = some op ∧
      Aftermath returning (start {} briefHost)
        (panelCalling ++ .conclude 0 .died :: [.reclaim fun _ => true, .reclaim fun _ => true]) 0
          op := by
  have hfree : ((start {} briefHost).run returning panelCalling).isFree (.callback 0) = true := by
    decide
  obtain ⟨op, hop, haftermath, -⟩ := dead_function_aftermath returning {} briefHost panelCalling
    [.reclaim fun _ => true, .reclaim fun _ => true] hfree
  exact ⟨hfree, op, hop, haftermath⟩

/-- The function of a panel dies. One was called, the report counts none, and supervision lists the
operation as if its endpoint was open. -/
theorem dead_panel_is_listed :
    story ((start {} briefHost).run returning (panelCalling ++ [.conclude 0 .died])).history 0 =
      [.called 0 .absent, .returned .died, .ended ⟨"panel", 0, .aborted⟩] ∧
    ((start {} briefHost).run returning
      (panelCalling ++ [.conclude 0 .died])).session.board.isOpen 0 = false ∧
    ((start {} briefHost).run returning
      (panelCalling ++ [.conclude 0 .died])).session.pending.map (·.tokens) = [["panel"]] ∧
    (start {} briefHost).leakLists returning
      (panelCalling ++ [.conclude 0 .died, .reclaim fun _ => true]) = [[(0, ["panel"])]] :=
  ⟨rfl, rfl, rfl, rfl⟩

end Scene

end RemoteHost
