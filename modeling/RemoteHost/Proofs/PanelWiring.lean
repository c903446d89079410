import RemoteHost.Proofs.AllOrNothing
import RemoteHost.Proofs.PanelPrograms
import RemoteHost.Proofs.SingleRoundTrips

/-!
# The functions of panels and their endpoints

A panel at any window that calls lead to is shown without anything that a user wrote being taken for
a slot. Every function in its program forwards to the endpoint that serves its own slot, and where
no function was given the program says so.
-/

namespace RemoteHost

variable {F α β : Type} {s : Settings}

/-! ## Refused turns -/

/-- A session refuses a turn for a conflict only. -/
def IsHonest : (request : Request F) → request.Reply → Prop
  | .enter _ _, .error fault => ∃ label, fault = .stepConflict label
  | _, _ => True

theorem Session.isHonest_of_answer {st st' : Session F} {p : Party} {request : Request F}
    {reply : request.Reply} (h : st.answer p request = (some reply, st')) :
    IsHonest request reply := by
  cases request with
  | enter lineage policy =>
    cases reply with
    | ok _ => trivial
    | error fault =>
      change st.enter p lineage policy = _ at h
      unfold enter at h
      split at h
      · cases h
      · rename_i found hfound
        split at h
        · cases h
          exact ⟨found.label, rfl⟩
        · dsimp only at h
          split at h <;> cases h
  | _ => trivial

/-- A party may ask for anything, and relies on honest answers. -/
def trusting : Discipline F Unit where
  allows _ _ := True
  expects _ := IsHonest
  after _ _ _ := ()

/-- Whoever fails by misuse was refused a turn. -/
def Conflicted (_ : Unit) (result : Except Fault α) : Prop :=
  ∀ fault, result = .error (.usage fault) → ∃ label, fault = .stepConflict label

theorem Conflicted.failed {fault : Fault} (h : Conflicted () (.error fault : Except Fault α)) :
    Conflicted () (.error fault : Except Fault β) := by
  rintro usage ⟨⟩
  exact h usage rfl

theorem trusting_ignores (request : Request F) : trusting.Ignores () request :=
  ⟨trivial, fun _ => rfl⟩

theorem trusting_ignoresEndpoints : (trusting : Discipline F Unit).IgnoresEndpoints () :=
  ⟨trusting_ignores _, fun _ => trusting_ignores _⟩

theorem conflicted_roundTrip (program : String) (lineage : LineageId) :
    trusting.Obeys Conflicted () (roundTrip s program lineage : Job F Json).run := by
  refine Discipline.obeys_ask.mpr ⟨trivial, fun entered hhonest => ?_⟩
  cases entered with
  | error fault =>
    rintro _ ⟨⟩
    exact hhonest
  | ok _ =>
    refine Discipline.obeys_ask.mpr ⟨trivial, fun _ _ => ?_⟩
    refine Discipline.obeys_ask.mpr ⟨trivial, fun answer _ => ?_⟩
    refine Discipline.obeys_ask.mpr ⟨trivial, fun _ _ => ?_⟩
    cases answer <;> exact nofun

theorem recordAll_ok (keys : List String) :
    trusting.Obeys (fun _ result => result = .ok ()) () (recordAll keys : Job F Unit).run := by
  induction keys with
  | nil => rfl
  | cons key keys ih => exact Discipline.obeys_ask.mpr ⟨trivial, fun _ _ => ih⟩

theorem conflicted_evaluate (expression : String) (shape : ResultShape) (lineage : LineageId) :
    trusting.Obeys Conflicted () (evaluate s expression shape lineage : Job F Outcome).run := by
  refine (conflicted_roundTrip _ lineage).andThen ?_ fun _ _ h => h.failed
  rintro _ reply -
  cases hshape : outcomeOfShape shape reply with
  | error fault =>
    rintro usage ⟨⟩
    exact absurd hshape (outcomeOfShape_ne_usage shape reply usage)
  | ok outcome =>
    refine (recordAll_ok _).andThen (fun _ _ _ => nofun) ?_
    rintro _ _ ⟨⟩

/-- To close endpoints and fail is to fail. -/
theorem trusting_giveUp {post : Unit → Except Fault α → Prop} {fault : Fault}
    (h : post () (.error fault)) (opened : List Opened) :
    trusting.Obeys post () (do
      closeAll opened
      throw fault : Job F α).run := by
  refine (trusting_ignoresEndpoints.closeAll opened).andThen (fun _ _ _ => h) ?_
  rintro _ _ ⟨-, ⟨⟩⟩

theorem conflicted_openAll (opened : List Opened) (count : Nat) :
    trusting.Obeys (fun _ result => Conflicted () result ∧
        ∀ all, result = .ok all → all.length = opened.length + count) ()
      (openAll opened count : Job F (List Opened)).run := by
  induction count generalizing opened with
  | zero =>
    refine ⟨nofun, ?_⟩
    rintro _ ⟨⟩
    rfl
  | succ count ih =>
    refine Discipline.obeys_ask.mpr ⟨trivial, fun answer _ => ?_⟩
    cases answer with
    | ok new =>
      have hlength : (opened ++ [new]).length + count = opened.length + (count + 1) := by
        rw [List.length_append, List.length_singleton]
        omega
      rw [← hlength]
      exact ih (opened ++ [new])
    | error fault => exact trusting_giveUp ⟨nofun, nofun⟩ opened

/-- A start with a slot for every placeholder fails by misuse only where a turn is refused. -/
theorem conflicted_invoke {template : String} {slots : List (Slot F)}
    (hcount : Program.placeholders template = slots.length) (label : String) (shape : ResultShape)
    (lineage : LineageId) : trusting.Obeys Conflicted ()
      (invoke s label template shape slots lineage).run := by
  unfold invoke
  rw [if_neg (not_not_intro hcount)]
  refine (conflicted_openAll [] slots.length).andThen ?_ fun _ _ h => h.1.failed
  rintro _ opened ⟨-, hopened⟩
  have hlength : (opened.map (·.token)).length = slots.length := by
    rw [List.length_map, hopened opened rfl, List.length_nil, Nat.zero_add]
  obtain ⟨source, hsource⟩ := substituteTokens_eq_ok template _ (hcount.trans hlength.symm)
  dsimp only
  rw [hsource]
  refine Discipline.obeys_pure.mpr ?_
  refine Discipline.Obeys.andThen (Q := Conflicted) ?_ ?_ fun _ _ h => h.failed
  · refine (conflicted_evaluate source shape lineage).orElse (fun _ _ _ => nofun) ?_
    exact fun _ fault h => trusting_giveUp h opened
  · exact fun _ outcome _ => Discipline.obeys_ask.mpr ⟨trivial, fun _ _ => nofun⟩

/-- What an honest session led a trusting party to. -/
theorem Discipline.Obeys.trusted {post : Unit → α → Prop} {routine rest : Routine F α}
    {talk : Talk F} (h : trusting.Obeys post () routine) (hleads : routine.Leads talk rest)
    (hhonest : ∀ exchange ∈ talk, IsHonest exchange.1 exchange.2) :
    trusting.Obeys post () rest := by
  induction hleads with
  | here routine => exact h
  | ask reply hrest ih =>
    obtain ⟨hfirst, hlater⟩ := List.forall_mem_cons.mp hhonest
    exact ih (h.2 reply hfirst) hlater

/-! ## Programs that were sent -/

theorem Routine.Leads.comes {routine rest : Routine F α} {talk : Talk F}
    (h : routine.Leads talk rest) : routine.Comes talk none := by
  induction h with
  | here routine => exact .yet routine
  | ask reply h ih => exact .ask reply ih

theorem Routine.Leads.comes_done {routine : Routine F α} {a : α} {talk : Talk F}
    (h : routine.Leads talk (.done a)) : routine.Comes talk (some a) := by
  generalize hrest : Routine.done a = rest at h
  induction h with
  | here routine =>
    subst hrest
    exact .done a
  | ask reply h ih => exact .ask reply (ih hrest)

theorem Talk.tokens_eq (talk : Talk F) : talk.tokens = talk.opened.map (·.token) := by
  rw [tokens, opened, List.map_flatMap]
  refine congrArg (List.flatMap · talk) (funext fun exchange => ?_)
  obtain ⟨request, reply⟩ := exchange
  cases request with
  | openEndpoint => cases reply <;> rfl
  | _ => rfl

section Invoke

variable {label template : String} {shape : ResultShape} {slots : List (Slot F)}
  {lineage : LineageId} {talk : Talk F} {rest : Routine F (Except Fault Invoked)}

/-- At most one program is sent, the template with the tokens of all endpoints. Whatever goes well
has sent it. -/
theorem invoke_programs (hcount : Program.placeholders template = slots.length)
    (h : (invoke s label template shape slots lineage).run.Leads talk rest) :
    (talk.programs = [] ∨ ∃ source,
      Program.substituteTokens template (talk.opened.map (·.token)) = .ok source ∧
        talk.programs = [Program.enveloped s source shape]) ∧
    ∀ invoked, rest = .done (.ok invoked) → talk.programs ≠ [] := by
  have hsends : (sending fun tokens program => ∃ source,
      Program.substituteTokens template tokens = .ok source ∧
        program = Program.enveloped s source shape).Obeys (Yields True Sent) {}
      (invoke s label template shape slots lineage).run := by
    refine sends_invoke (fun tokens hlength => ?_) label lineage
    obtain ⟨source, hsource⟩ :=
      substituteTokens_eq_ok template tokens (hcount.trans hlength.symm)
    exact ⟨source, hsource, source, hsource, rfl⟩
  constructor
  · rcases (Sending.Sound.comes h.comes hsends (.inl rfl)).1 with hnone | hsent
    · exact .inl hnone
    · obtain ⟨program, hprogram, source, hsource, rfl⟩ := hsent
      refine .inr ⟨source, ?_, hprogram⟩
      rw [← talk.tokens_eq]
      exact hsource
  · rintro invoked rfl hnone
    have hone : talk.programs.length = 1 :=
      (Sending.Sound.comes h.comes_done hsends (.inl rfl)).2 _ rfl
    rw [hnone] at hone
    cases hone

/-- Whatever was launched, the start went well. -/
theorem invoke_launched {id : OperationId}
    (h : (invoke s label template shape slots lineage).run.Leads talk rest)
    (hid : id ∈ talk.launched) : ∃ invoked, rest = .done (.ok invoked) := by
  cases rest with
  | ask request next =>
    exact absurd (launched_of_awaits ⟨request, next, h⟩) (List.ne_nil_of_mem hid)
  | done result =>
    cases result with
    | ok invoked => exact ⟨invoked, rfl⟩
    | error fault => exact absurd (starts_of_done h) (List.ne_nil_of_mem hid)

end Invoke

/-- Whatever a panel has sent, its endpoints are wired as its program says. -/
theorem Panel.wired_of_leads (hs : s.IsBare) {window : Proxy} (hwindow : Obtained F s window)
    (panel : Panel F) {label : String} {lineage : LineageId} {talk : Talk F}
    {rest : Routine F (Except Fault Invoked)}
    (h : (panel.present s label window lineage).run.Leads talk rest) :
    talk.programs = [] ∧ talk.launched = [] ∨
      ∃ wiring : Wiring F, wiring.Fits panel ∧ talk.opened = wiring.opened ∧
        talk.programs = [Program.enveloped s (wiring.source s window panel) panel.shape] := by
  have hcount := panel.placeholders_template hs hwindow
  rw [panel.present_eq] at h
  obtain ⟨hsent, hdone⟩ := invoke_programs hcount h
  rcases hsent with hnone | ⟨source, hsource, hprogram⟩
  · refine .inl ⟨hnone, List.eq_nil_iff_forall_not_mem.mpr fun id hid => ?_⟩
    obtain ⟨invoked, hresult⟩ := invoke_launched h hid
    exact hdone invoked hresult hnone
  · have hlength := placeholders_of_substituteTokens hsource
    rw [hcount, List.length_map] at hlength
    obtain ⟨wiring, hfits, hopened⟩ := Wiring.exists_wiring panel hlength.symm
    obtain ⟨r, hr, rfl⟩ := hwindow.exists_receiver
    have hfilled := wiring.substituteTokens_eq hs hr hfits
    rw [hopened, hsource] at hfilled
    exact .inr ⟨wiring, hfits, hopened.symm, by rw [hprogram, Except.ok.inj hfilled]⟩

/-! ## Scenes -/

theorem Session.settings_answer (st : Session F) (p : Party) (request : Request F) :
    (st.answer p request).2.settings = st.settings := by
  cases request with
  | record | drain | restore => rfl
  | _ => exact (st.sameKeys_answer p _ rfl).settings

namespace Scene

theorem settings_act (behave : Behaviour F) (w : Scene F) (move : Move F) :
    (w.act behave move).session.settings = w.session.settings := by
  have turn : ∀ (id : OperationId) (f : CallbackOperation F → Scene F),
      (∀ op, (f op).session.settings = w.session.settings) →
      (w.withOperation id f).session.settings = w.session.settings := fun id f hf =>
    withOperation_cases (P := fun w' => w'.session.settings = w.session.settings) rfl
      fun op _ => hf op
  cases move with
  | begin p service =>
    simp only [act, begin]
    split <;> rfl
  | go p =>
    simp only [act, go]
    split
    · rfl
    · rfl
    · rename_i service request next hbusy
      have hsame := w.session.settings_answer p request
      split <;> (rename_i hanswer; rwa [hanswer] at hsame)
  | abandon p =>
    simp only [act, abandon]
    split
    · exact (w.session.sameKeys_abandon p).settings
    · rfl
  | addLineage label parent => rfl
  | host host => rfl
  | fire token payload =>
    exact (Session.sameKeys_of_holdings (Callbacks.holdings_fire w.session token payload)).settings
  | hangUp token =>
    exact (Session.sameKeys_of_holdings (Callbacks.holdings_hangUp w.session token)).settings
  | reclaim expired =>
    obtain ⟨operations, hholdings, -⟩ := Callbacks.holdings_reclaim w.session expired
    exact (Session.sameKeys_of_holdings hholdings).settings
  | look id slot =>
    refine turn id _ fun op => ?_
    unfold look
    split
    · split
      · split
        · rfl
        · rfl
        · exact (w.session.spend.deliver_keys behave id op _ _).1
      · rfl
    · rfl
  | stop id =>
    refine turn id _ fun op => ?_
    unfold stop
    split
    · split
      · have hclosed := Session.sameKeys_foldl Session.sameKeys_closeEndpoint op.endpoints w.session
        exact (hclosed.trans (Session.sameKeys_finish ..)).settings
      · rfl
    · rfl
  | exhaust id =>
    refine turn id _ fun op => ?_
    unfold exhaust
    split
    · split
      · exact (Session.sameKeys_finish ..).settings
      · rfl
    · rfl
  | conclude id verdict =>
    refine turn id _ fun op => ?_
    unfold conclude
    split
    · split
      · exact (Session.sameKeys_conclude ..).settings
      · rfl
    · rfl

theorem settings_run (behave : Behaviour F) (settings : Settings) (host : Host)
    (moves : List (Move F)) :
    ((start settings host).run behave moves).session.settings = settings :=
  run_induction (P := fun w => w.session.settings = settings) rfl
    (fun w move h => (settings_act behave w move).trans h) moves

/-- Nobody asks for anything but by going on. -/
theorem asked_of_acted {w w' : Scene F} {move : Move F} (hacted : Acted w move w')
    (hmove : ∀ p, move ≠ .go p) {p : Party} {request : Request F} {reply : request.Reply}
    (h : .asked p request reply ∈ w'.history) : .asked p request reply ∈ w.history := by
  cases hacted with
  | still | disconnected | told => exact h
  | began | abandoned | arrived => simpa using h
  | asked | gained => exact absurd rfl (hmove _)
  | turned _ hop hturn =>
    obtain ⟨-, occurrences, hhistory, hparty⟩ := party_of_turn hturn
    rw [hhistory] at h
    exact (List.mem_append.mp h).resolve_right fun hin => nomatch hparty _ hin

theorem honest_run (behave : Behaviour F) (settings : Settings) (host : Host)
    (moves : List (Move F)) : ∀ p request reply,
      .asked p request reply ∈ ((start settings host).run behave moves).history →
        IsHonest request reply := by
  refine run_induction (P := fun w => ∀ p request reply,
    .asked p request reply ∈ w.history → IsHonest request reply) ?_ ?_ moves
  · exact fun p request reply hin => nomatch hin
  · intro w move ih p request reply hin
    by_cases hmove : ∃ q, move = .go q
    · obtain ⟨q, rfl⟩ := hmove
      simp only [act, go] at hin
      split at hin
      · exact ih p request reply hin
      · exact ih p request reply (by simpa using hin)
      · split at hin
        · exact ih p request reply hin
        · rename_i hanswer
          rcases List.mem_append.mp hin with hin | hin
          · exact ih p request reply hin
          · cases List.mem_singleton.mp hin
            exact Session.isHonest_of_answer hanswer
    · have hacted := acted_act behave w move
      exact ih p request reply (asked_of_acted hacted (fun q hq => hmove ⟨q, hq⟩) hin)

/-- What a party has come to with a service that it began, as long as it began nothing else. -/
theorem exists_attempt (behave : Behaviour F) (settings : Settings) (host : Host)
    (before during : List (Move F)) {p : Party} (service : Service F)
    (hfree : ((start settings host).run behave before).isFree p = true)
    (hone : ∀ service', .begin p service' ∉ during) :
    ∃ since, ((start settings host).run behave (before ++ .begin p service :: during)).history =
        ((start settings host).run behave before).history ++ .began p service :: since ∧
      Attempt p service (service.job settings).run since
        ((start settings host).run behave (before ++ .begin p service :: during)) := by
  have howned : Owned ((start settings host).run behave before).session.callbacks
      ((start settings host).run behave before).busy := owned_run settings host before
  have hsettings := settings_run behave settings host before
  rw [run_append]
  generalize (start settings host).run behave before = w at *
  have hbegun : Moved w (.begin p service) (w.act behave (.begin p service)) :=
    moved_act howned _
  obtain ⟨since, hhistory, hattempt⟩ :=
    attempt_run behave hone (attempt_begin hfree service) (owned_of_moved howned hbegun)
  rw [hsettings] at hattempt
  refine ⟨since, hhistory.trans ?_, hattempt⟩
  rw [begin, if_pos hfree, List.append_assoc]
  rfl

end Scene

/-! ## Showing panels -/

/-- The service of a party that shows a panel. -/
def Panel.service (s : Settings) (label : String) (window : Proxy) (lineage : LineageId)
    (panel : Panel F) : Service F :=
  .invoke label (panel.template s window) panel.shape panel.slots lineage

theorem Panel.service_job (s : Settings) (label : String) (window : Proxy) (lineage : LineageId)
    (panel : Panel F) : (panel.service s label window lineage).job s =
      panel.present s label window lineage :=
  (panel.present_eq s label window lineage).symm

/-- What comes of showing a panel. Of all that happened from its beginning on, as long as the party
began nothing else, `since` tells. -/
structure Panel.Shown (s : Settings) (label : String) (window : Proxy) (lineage : LineageId)
    (panel : Panel F) (p : Party) (since : List (Occurrence F)) (w : Scene F) : Prop where
  matched : ∀ slots placeholders, .gained p (panel.service s label window lineage)
    (.error (.usage (.placeholderMismatch slots placeholders))) ∉ since
  /-- One program is sent at most. Its functions forward to the endpoints that were opened, and the
  operation that is launched listens at each of them for the slot of the function. -/
  wired : (talkOf p since).programs = [] ∧ (talkOf p since).launched = [] ∨
    ∃ wiring : Wiring F, wiring.Fits panel ∧ (talkOf p since).opened = wiring.opened ∧
      (talkOf p since).programs =
        [Program.enveloped s (wiring.source s window panel) panel.shape] ∧
      ∀ id ∈ (talkOf p since).launched, ∃ op, w.session.operations[id]? = some op ∧
        op.listeners.map (fun l => (l.slot, l.opened)) = wiring.served panel
  succeeded : ∀ invoked : Invoked,
    .gained p (panel.service s label window lineage) (.ok invoked) ∈ since →
      (talkOf p since).launched = [invoked.operation]

namespace Scene

theorem shown_of_attempt (hs : s.IsBare) {window : Proxy} (hwindow : Obtained F s window)
    (panel : Panel F) {label : String} {lineage : LineageId} {p : Party}
    {since : List (Occurrence F)} {w w' : Scene F}
    (h : Attempt p (panel.service s label window lineage)
      (panel.present s label window lineage).run since w)
    (hhonest : ∀ exchange ∈ talkOf p since, IsHonest exchange.1 exchange.2)
    (hsince : ∀ o ∈ since, o ∈ w'.history)
    (henrolled : Enrolled w'.session.operations w'.history) :
    panel.Shown s label window lineage p since w' := by
  have hcount := panel.placeholders_template hs hwindow
  have hpresent := panel.present_eq s label window lineage
  obtain ⟨rest, hleads⟩ := h.progress.leads
  constructor
  case matched =>
    intro slots placeholders hgained
    obtain ⟨-, hdone⟩ := h.progress.of_gained hgained
    rw [hpresent] at hdone
    have hconflicted := (conflicted_invoke hcount label panel.shape lineage).trusted hdone hhonest
    obtain ⟨other, hother⟩ := hconflicted _ rfl
    cases hother
  case wired =>
    rcases panel.wired_of_leads hs hwindow hleads with hnone | hwired
    · exact .inl hnone
    · obtain ⟨wiring, hfits, hopened, hprogram⟩ := hwired
      refine .inr ⟨wiring, hfits, hopened, hprogram, fun id hid => ?_⟩
      obtain ⟨first, name, endpoints, slots, parent, after, hsplit⟩ := mem_launched hid
      have hasked : .asked p (.launch name endpoints slots parent) id ∈ w'.history :=
        hsince _ (mem_talkOf (hsplit ▸ List.mem_append_right _ List.mem_cons_self))
      rw [hpresent, hsplit] at hleads
      obtain ⟨rfl, rfl, rfl, -⟩ := invoke_launches hleads
      obtain ⟨op, hop, hlisteners⟩ := listeners_of_launch henrolled hasked
      have hbefore : Talk.opened
          (first ++ [⟨.launch name (Talk.opened first) panel.slots parent, id⟩]) =
            Talk.opened first := (Talk.opened_snoc ..).trans (List.append_nil _)
      rw [hsplit, hbefore] at hopened
      refine ⟨op, hop, ?_⟩
      rw [hlisteners, wiring.served_eq hfits, hopened]
  case succeeded =>
    intro invoked hgained
    obtain ⟨-, hdone⟩ := h.progress.of_gained hgained
    rw [hpresent] at hdone
    exact (starts_of_done hdone).1

/-- A panel at a window that calls led to has as many placeholders as slots. It is never refused for
their number, and each of its functions is served by the endpoint that the program sends it to. -/
theorem panel_functions_wired (behave : Behaviour F) (hs : s.check = .ok ()) (host : Host)
    (before during later : List (Move F)) {p : Party} {window : Proxy}
    (hwindow : Obtained F s window) (panel : Panel F) (label : String) (lineage : LineageId)
    (hfree : ((start s host).run behave before).isFree p = true)
    (hone : ∀ service, .begin p service ∉ during) :
    let moves := before ++ .begin p (panel.service s label window lineage) :: during
    Program.placeholders (panel.template s window) = panel.slots.length ∧
    ∃ since, ((start s host).run behave moves).history =
        ((start s host).run behave before).history ++
          .began p (panel.service s label window lineage) :: since ∧
      panel.Shown s label window lineage p since
        ((start s host).run behave (moves ++ later)) := by
  intro moves
  have hbare := Settings.isBare_of_check hs
  have hcount := panel.placeholders_template hbare hwindow
  obtain ⟨since, hhistory, hattempt⟩ :=
    exists_attempt behave s host before during (panel.service s label window lineage) hfree hone
  rw [panel.service_job] at hattempt
  have hsince : ∀ o ∈ since, o ∈ ((start s host).run behave moves).history := by
    intro o ho
    rw [hhistory]
    exact List.mem_append_right _ (List.mem_cons_of_mem _ ho)
  refine ⟨hcount, since, hhistory, shown_of_attempt hbare hwindow panel hattempt ?_ ?_ ?_⟩
  · rintro ⟨request, reply⟩ hin
    exact honest_run behave s host moves p request reply (hsince _ (mem_talkOf hin))
  · intro o ho
    rw [run_append]
    exact (history_run behave _ later).subset (hsince o ho)
  · exact enrolled_run behave s host (moves ++ later)

/-- A panel that asks for a name and may be left. Its caption spells a place for a token. -/
def fileNamePanel : Panel Bool :=
  .input { caption := "$CALLBACK_TOKEN", initialText := "", onDone := true, onCancel := some false }

/-- A host that shows one panel. -/
def fileNameHost : Host :=
  .replaying
    { replies := [.json (Envelope.handle "view").toJson], tokens := [some "done", some "cancel"] }

/-- Functions that have nothing to tell. -/
def fileNameBehaviour : Behaviour Bool := fun _ _ => .done (.returned (.ok .nothing))

/-- The scene after the panel was shown. -/
def fileNameScene : Scene Bool :=
  (start {} fileNameHost).run fileNameBehaviour
    (.begin .foreground (fileNamePanel.service {} "file" (.resolved "it's") 0) ::
      List.replicate 9 (.go .foreground))

/-- The program in which both functions have their tokens, and the third one is missing. -/
def fileNameProgram : String :=
  Program.enveloped {} (Program.handleRef {} "it's" ++
    ".show_input_panel('\\x24CALLBACK_TOKEN', '', lambda text: __hostlink_callback('done', text)" ++
    ", None, lambda : __hostlink_callback('cancel'))") .handle

theorem file_name_panel_wired : ({} : Settings).check = .ok () ∧
    Program.placeholders (fileNamePanel.template {} (.resolved "it's")) = 2 ∧
    (talkOf .foreground fileNameScene.history).programs = [fileNameProgram] ∧
    ∃ op, fileNameScene.session.operations[0]? = some op ∧
      op.listeners.map (fun l => (l.slot, l.opened)) =
        [(⟨.oneShot, .value, true⟩, ⟨0, "done"⟩), (⟨.oneShot, .empty, false⟩, ⟨1, "cancel"⟩)] := by
  have hcheck : ({} : Settings).check = .ok () := rfl
  have hfree : ((start {} fileNameHost).run fileNameBehaviour []).isFree .foreground = true := rfl
  obtain ⟨hcount, since, hhistory, hshown⟩ := panel_functions_wired fileNameBehaviour hcheck
    fileNameHost [] (List.replicate 9 (.go .foreground)) [] (.stored "it's") fileNamePanel "file"
    0 hfree (by simp)
  rw [List.append_nil] at hshown
  replace hshown : fileNamePanel.Shown {} "file" (.resolved "it's") 0 .foreground since
    fileNameScene := hshown
  replace hhistory : fileNameScene.history =
    .began .foreground (fileNamePanel.service {} "file" (.resolved "it's") 0) :: since := hhistory
  have htalk : talkOf .foreground fileNameScene.history = talkOf .foreground since := by
    rw [hhistory]
    rfl
  obtain ⟨hopened, hlaunched⟩ : (talkOf .foreground fileNameScene.history).opened =
      [⟨0, "done"⟩, ⟨1, "cancel"⟩] ∧ (talkOf .foreground fileNameScene.history).launched = [0] := by
    decide +kernel
  have hwired := hshown.wired
  rw [← htalk, hopened, hlaunched] at hwired
  rcases hwired with ⟨-, hnone⟩ | ⟨⟨done, change, cancel⟩, hfits, hwired, hprograms, hoperations⟩
  · cases hnone
  · obtain rfl : change = none := Option.map_eq_none_iff.mp hfits.change
    obtain ⟨⟨action, endpoint⟩, rfl, rfl⟩ := Option.map_eq_some_iff.mp hfits.cancel
    cases hwired
    obtain ⟨op, hop, hlisteners⟩ := hoperations 0 List.mem_cons_self
    have hprogram : Program.enveloped {} (Wiring.source {} (.resolved "it's")
        ⟨⟨0, "done"⟩, none, some (false, ⟨1, "cancel"⟩)⟩ fileNamePanel) .handle =
          fileNameProgram := by
      decide +kernel
    exact ⟨hcheck, hcount, hprograms.trans (congrArg (List.cons · []) hprogram), op, hop,
      hlisteners⟩

end Scene

end RemoteHost
