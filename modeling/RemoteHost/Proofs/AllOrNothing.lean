import RemoteHost.Proofs.EndpointFates
import RemoteHost.Proofs.HandleCustody
import RemoteHost.Proofs.LaunchedOperations
import RemoteHost.Proofs.StartingOperations

/-!
# Operations start as a whole or not at all

Whoever starts an operation and fails, or is abandoned while it waits for anything, leaves nothing
behind: no operation, no open endpoint, and no payload that was taken. Whoever succeeds has started
one operation, which supervision knows until it ends or is told to end.
-/

namespace RemoteHost

variable {F : Type}

/-- What a party asked for in a history, and what it was answered. -/
def talkOf (p : Party) (history : List (Occurrence F)) : Talk F :=
  history.filterMap fun
    | .asked q request reply => if q = p then some ⟨request, reply⟩ else none
    | _ => none

theorem talkOf_append (p : Party) (h h' : List (Occurrence F)) :
    talkOf p (h ++ h') = talkOf p h ++ talkOf p h' := List.filterMap_append

theorem talkOf_others {p : Party} {occurrences : List (Occurrence F)}
    (h : ∀ o ∈ occurrences, o.party? ≠ some p) : talkOf p occurrences = [] := by
  refine List.filterMap_eq_nil_iff.mpr fun o ho => ?_
  cases o with
  | asked q request reply => exact if_neg fun heq => h _ ho (congrArg some heq)
  | _ => rfl

theorem mem_talkOf {p : Party} {history : List (Occurrence F)} {request : Request F}
    {reply : request.Reply} (h : ⟨request, reply⟩ ∈ talkOf p history) :
    .asked p request reply ∈ history := by
  obtain ⟨o, ho, heq⟩ := List.mem_filterMap.mp h
  cases o with
  | asked q request' reply' =>
    dsimp only at heq
    split at heq
    · rename_i hq
      cases heq
      exact hq ▸ ho
    · cases heq
  | _ => cases heq

namespace Scene

variable {w w' : Scene F} {move : Move F} {p : Party} {e : EndpointId}

/-! ## One party among others -/

/-- What others did is not what the party did, and left it what it had. -/
structure Apart (p : Party) (w w' : Scene F) : Prop where
  busy : w'.busy p = w.busy p
  history : ∃ occurrences, w'.history = w.history ++ occurrences ∧
    ∀ o ∈ occurrences, o.party? ≠ some p
  held : ∀ e ∈ heldBy w.session.unclaimed p, e ∈ heldBy w'.session.unclaimed p

/-- How a party that is in the middle of something goes on. -/
inductive Goes (p : Party) (w : Scene F) : Scene F → Prop where
  | apart {w' : Scene F} (h : Apart p w w') : Goes p w w'
  | asked {service : Service F} {request : Request F}
      {next : request.Reply → Routine F (Except Fault service.Result)} {reply : request.Reply}
      {session : Session F} (hbusy : w.busy p = some ⟨service, .ask request next⟩)
      (hanswered : Answered w.session.callbacks p request reply session.callbacks) :
      Goes p w ⟨session, Function.update w.busy p (some ⟨service, next reply⟩),
        w.history ++ [.asked p request reply]⟩
  | gained {service : Service F} {result : Except Fault service.Result}
      (hbusy : w.busy p = some ⟨service, .done result⟩) :
      Goes p w ⟨w.session, Function.update w.busy p none, w.history ++ [.gained p service result]⟩
  | abandoned {session : Session F} (hbusy : (w.busy p).isSome = true)
      (hshut : Callbacks.Shut (heldBy w.session.unclaimed p) w.session.callbacks
        session.callbacks) :
      Goes p w ⟨session, Function.update w.busy p none, w.history ++ [.abandoned p]⟩

theorem Apart.quiet {session : Session F} {occurrences : List (Occurrence F)}
    (hunclaimed : session.unclaimed = w.session.unclaimed)
    (hparty : ∀ o ∈ occurrences, o.party? ≠ some p) :
    Apart p w ⟨session, w.busy, w.history ++ occurrences⟩ :=
  ⟨rfl, ⟨occurrences, rfl, hparty⟩, fun _ he => hunclaimed ▸ he⟩

theorem Apart.same {session : Session F} (h : session.unclaimed = w.session.unclaimed) :
    Apart p w { w with session } := by
  have hquiet : Apart p w ⟨session, w.busy, w.history ++ []⟩ := .quiet h (by simp)
  rwa [List.append_nil] at hquiet

theorem party_of_turn {id : OperationId} {op : CallbackOperation F} (hturn : Turn w id op move w') :
    w'.busy = w.busy ∧ ∃ occurrences, w'.history = w.history ++ occurrences ∧
      ∀ o ∈ occurrences, o.party? = none := by
  have closing : ∀ (deeds : List Deed) (report : OperationReport),
      ∀ o ∈ Coursing.endingOf id deeds op.endpoints report,
        (o : Occurrence F).party? = none := by
    intro deeds report o ho
    simp only [Coursing.endingOf, List.mem_append, List.mem_map] at ho
    rcases ho with (⟨_, _, rfl⟩ | ⟨_, _, rfl⟩) | ⟨_, _, rfl⟩ <;> rfl
  cases hturn with
  | idle => exact ⟨rfl, [], (List.append_nil _).symm, by simp⟩
  | deafened => exact ⟨rfl, [], (List.append_nil _).symm, by simp⟩
  | refused | called | resumed | died | exhausted =>
    exact ⟨rfl, _, rfl, by simp [Occurrence.party?]⟩
  | @fired session call result =>
    exact ⟨rfl, _, rfl, closing [.returned (.returned result)] _⟩
  | stopped => exact ⟨rfl, _, rfl, closing [] _⟩

/-- A party loses nothing when others lose something. -/
theorem held_of_filter {c : Callbacks F} {busy : Party → Option (Engagement F)} (h : Owned c busy)
    {q : Party} (hne : q ≠ p) {es : List EndpointId} (hes : ∀ e ∈ es, e ∈ heldBy c.unclaimed q)
    (he : e ∈ heldBy c.unclaimed p) : e ∈ heldBy (c.unclaimed.filter fun u => u.2 ∉ es) p := by
  rw [heldBy_filter]
  exact List.mem_filter.mpr ⟨he, decide_eq_true fun hin => hne (h.eq_of_mem (hes e hin) he)⟩

/-- Nobody loses anything when an endpoint is opened. -/
theorem held_of_opening {c c' : Callbacks F} {q : Party} {reply : Except TransportFault Opened}
    (hanswered : Answered c q .openEndpoint reply c') (he : e ∈ heldBy c.unclaimed p) :
    e ∈ heldBy c'.unclaimed p := by
  cases reply with
  | error fault => exact (congrArg Callbacks.unclaimed hanswered) ▸ he
  | ok opened =>
    rw [hanswered.2]
    exact mem_heldBy.mpr (List.mem_append_left _ (mem_heldBy.mp he))

theorem held_of_answered (h : Owned w.session.callbacks w.busy) {q : Party} (hne : q ≠ p)
    {service : Service F} {request : Request F}
    {next : request.Reply → Routine F (Except Fault service.Result)} {reply : request.Reply}
    {c' : Callbacks F} (hbusy : w.busy q = some ⟨service, .ask request next⟩)
    (hanswered : Answered w.session.callbacks q request reply c')
    (he : e ∈ heldBy w.session.unclaimed p) : e ∈ heldBy c'.unclaimed p := by
  have hallowed := h.keeps q
  rw [hbusy] at hallowed
  have hallowed := hallowed.1
  cases request with
  | openEndpoint => exact held_of_opening hanswered he
  | closeEndpoint endpoint =>
    rw [hanswered.unclaimed]
    exact held_of_filter h hne (fun e' he' => List.mem_singleton.mp he' ▸ hallowed) he
  | launch label endpoints slots parent =>
    rw [hanswered.2]
    exact held_of_filter h hne (fun e' he' => hallowed.1 ▸ he') he
  | _ => exact (congrArg Callbacks.unclaimed hanswered) ▸ he

/-- What is not a party's own move is none of its business. -/
theorem goes_of_acted (h : Owned w.session.callbacks w.busy) (hacted : Acted w move w')
    (hmove : ∀ service, move ≠ .begin p service) : Goes p w w' := by
  cases hacted with
  | still hidle hsame => exact .apart (.same (congrArg Callbacks.unclaimed hsame))
  | @began q service hfree =>
    have hne : q ≠ p := fun heq => hmove service (heq ▸ rfl)
    refine .apart ⟨Function.update_of_ne (Ne.symm hne) .., ⟨_, rfl, ?_⟩, fun _ he => he⟩
    simpa [Occurrence.party?] using hne
  | @asked q service request next reply session hbusy hanswered =>
    by_cases hq : q = p
    · subst hq
      exact .asked hbusy hanswered
    · refine .apart ⟨Function.update_of_ne (Ne.symm hq) .., ⟨_, rfl, ?_⟩, fun _ he => ?_⟩
      · simpa [Occurrence.party?] using hq
      · exact held_of_answered h hq hbusy hanswered he
  | @gained q service result hbusy =>
    by_cases hq : q = p
    · subst hq
      exact .gained hbusy
    · refine .apart ⟨Function.update_of_ne (Ne.symm hq) .., ⟨_, rfl, ?_⟩, fun _ he => he⟩
      simpa [Occurrence.party?] using hq
  | @abandoned q session hbusy hshut =>
    by_cases hq : q = p
    · subst hq
      exact .abandoned hbusy hshut
    · refine .apart ⟨Function.update_of_ne (Ne.symm hq) .., ⟨_, rfl, ?_⟩, fun _ he => ?_⟩
      · simpa [Occurrence.party?] using hq
      · rw [show session.unclaimed = _ from hshut.unclaimed]
        exact held_of_filter h hq (fun _ he' => he') he
  | arrived hopen hconnected hsession =>
    exact .apart (.quiet (congrArg Callbacks.unclaimed hsession) (by simp [Occurrence.party?]))
  | disconnected hsession => exact .apart (.same (congrArg Callbacks.unclaimed hsession))
  | told htold hsession => exact .apart (.same (congrArg Callbacks.unclaimed hsession))
  | turned hidle hop hturn =>
    obtain ⟨hbusy, occurrences, hhistory, hparty⟩ := party_of_turn hturn
    refine .apart ⟨by rw [hbusy], ⟨occurrences, hhistory, fun o ho => by simp [hparty o ho]⟩, ?_⟩
    intro e he
    rw [show w'.session.unclaimed = _ from (sameOwners_of_turn h hop hturn).unclaimed]
    exact he

/-! ## One service -/

/-- How far a party has come with a service. -/
inductive Progress (p : Party) (service : Service F)
    (routine : Routine F (Except Fault service.Result)) (engagement : Option (Engagement F))
    (since : List (Occurrence F)) : Prop where
  | going {rest : Routine F (Except Fault service.Result)}
      (hbusy : engagement = some ⟨service, rest⟩) (hleads : routine.Leads (talkOf p since) rest)
      (hgained : ∀ service' result, .gained p service' result ∉ since)
      (habandoned : .abandoned p ∉ since)
  | gained {result : Except Fault service.Result} (hbusy : engagement = none)
      (hleads : routine.Leads (talkOf p since) (.done result))
      (hgained : ∀ service' result', .gained p service' result' ∈ since →
        Occurrence.gained p service' result' = .gained p service result)
      (habandoned : .abandoned p ∉ since)
  | abandoned {rest : Routine F (Except Fault service.Result)} (hbusy : engagement = none)
      (hleads : routine.Leads (talkOf p since) rest)
      (hgained : ∀ service' result, .gained p service' result ∉ since)

theorem Progress.others {service : Service F} {routine : Routine F (Except Fault service.Result)}
    {engagement : Option (Engagement F)} {since occurrences : List (Occurrence F)}
    (h : Progress p service routine engagement since)
    (hparty : ∀ o ∈ occurrences, o.party? ≠ some p) :
    Progress p service routine engagement (since ++ occurrences) := by
  have htalk : talkOf p (since ++ occurrences) = talkOf p since := by
    rw [talkOf_append, talkOf_others hparty, List.append_nil]
  have hmem : ∀ {o : Occurrence F}, o.party? = some p → o ∈ since ++ occurrences → o ∈ since :=
    fun ho hin => (List.mem_append.mp hin).resolve_right fun hnew => hparty _ hnew ho
  cases h with
  | going hbusy hleads hgained habandoned =>
    exact .going hbusy (htalk ▸ hleads) (fun _ _ hin => hgained _ _ (hmem rfl hin))
      fun hin => habandoned (hmem rfl hin)
  | gained hbusy hleads hgained habandoned =>
    exact .gained hbusy (htalk ▸ hleads) (fun _ _ hin => hgained _ _ (hmem rfl hin))
      fun hin => habandoned (hmem rfl hin)
  | abandoned hbusy hleads hgained =>
    exact .abandoned hbusy (htalk ▸ hleads) fun _ _ hin => hgained _ _ (hmem rfl hin)

/-- A party that is busy is in the middle of its service. -/
theorem Progress.of_busy {service : Service F}
    {routine : Routine F (Except Fault service.Result)} {engagement : Option (Engagement F)}
    {since : List (Occurrence F)} (h : Progress p service routine engagement since)
    {now : Engagement F} (hbusy : engagement = some now) :
    ∃ rest, now = ⟨service, rest⟩ ∧ routine.Leads (talkOf p since) rest ∧
      (∀ service' result, .gained p service' result ∉ since) ∧ .abandoned p ∉ since := by
  cases h with
  | going hgoing hleads hgained habandoned =>
    rw [hbusy] at hgoing
    exact ⟨_, Option.some.inj hgoing, hleads, hgained, habandoned⟩
  | gained hnone => rw [hbusy] at hnone; cases hnone
  | abandoned hnone => rw [hbusy] at hnone; cases hnone

/-- A party that is in the middle of a service, or was, and the endpoints that it opened for it. -/
structure Attempt (p : Party) (service : Service F)
    (routine : Routine F (Except Fault service.Result)) (since : List (Occurrence F))
    (w : Scene F) : Prop where
  progress : Progress p service routine (w.busy p) since
  bounded : ∀ opened ∈ (talkOf p since).opened, opened.endpoint < w.session.board.length
  held : (talkOf p since).launched = [] → ∀ opened ∈ (talkOf p since).opened,
    opened.endpoint ∈ heldBy w.session.unclaimed p ∨
      w.session.callbacks.Ownerless opened.endpoint

variable {service : Service F} {routine : Routine F (Except Fault service.Result)}
  {since : List (Occurrence F)}

/-- What becomes of an endpoint that was opened for a service when the party asks for more. -/
theorem held_of_asked (h : Owned w.session.callbacks w.busy) {request : Request F}
    {reply : request.Reply} {c' : Callbacks F}
    (hanswered : Answered w.session.callbacks p request reply c')
    (hlaunched : request.launched reply = [])
    (he : e ∈ heldBy w.session.unclaimed p) : e ∈ heldBy c'.unclaimed p ∨ c'.Ownerless e := by
  cases request with
  | openEndpoint => exact .inl (held_of_opening hanswered he)
  | closeEndpoint endpoint =>
    by_cases hin : e ∈ [endpoint]
    · exact .inr (ownerless_of_shut h hanswered hin (List.mem_map_of_mem (mem_heldBy.mp he)))
    · left
      rw [hanswered.unclaimed, heldBy_filter]
      exact List.mem_filter.mpr ⟨he, decide_eq_true hin⟩
  | launch => cases hlaunched
  | _ => exact .inl ((congrArg Callbacks.unclaimed hanswered) ▸ he)

theorem held_of_opened {c c' : Callbacks F} {request : Request F} {reply : request.Reply}
    (hanswered : Answered c p request reply c') {opened : Opened}
    (hopened : opened ∈ request.opened reply) :
    opened.endpoint < c'.board.length ∧ opened.endpoint ∈ heldBy c'.unclaimed p := by
  cases request with
  | openEndpoint =>
    cases reply with
    | error fault => cases hopened
    | ok new =>
      obtain rfl := List.mem_singleton.mp hopened
      obtain ⟨hnew, rfl⟩ := hanswered
      rw [hnew]
      exact ⟨by simp, mem_heldBy.mpr (List.mem_append_right _ (List.mem_singleton_self _))⟩
  | _ => cases hopened

theorem attempt_of_asked (h : Attempt p service routine since w)
    (howned : Owned w.session.callbacks w.busy) {service' : Service F} {request : Request F}
    {next : request.Reply → Routine F (Except Fault service'.Result)} {reply : request.Reply}
    {session : Session F} (hbusy : w.busy p = some ⟨service', .ask request next⟩)
    (hanswered : Answered w.session.callbacks p request reply session.callbacks) :
    Attempt p service routine (since ++ [.asked p request reply])
      ⟨session, Function.update w.busy p (some ⟨service', next reply⟩),
        w.history ++ [.asked p request reply]⟩ := by
  have hmoved := moved_of_asked howned hbusy hanswered
  have htalk : talkOf p (since ++ [.asked p request reply]) =
      talkOf p since ++ [⟨request, reply⟩] := by
    rw [talkOf_append]
    simp [talkOf]
  have hopened := Talk.opened_snoc (talkOf p since) request reply
  have hlaunched := Talk.launched_snoc (talkOf p since) request reply
  rw [← htalk] at hopened hlaunched
  constructor
  · obtain ⟨rest, heq, hleads, hgained, habandoned⟩ := h.progress.of_busy hbusy
    cases heq
    refine .going (Function.update_self ..) (htalk ▸ hleads.snoc reply) ?_ ?_
    · simpa using hgained
    · simpa using habandoned
  · intro opened hmem
    rw [hopened] at hmem
    rcases List.mem_append.mp hmem with hmem | hmem
    · exact Nat.lt_of_lt_of_le (h.bounded opened hmem) (length_of_moved howned hmoved)
    · exact (held_of_opened hanswered hmem).1
  · intro hnone opened hmem
    rw [hopened] at hmem
    rw [hlaunched] at hnone
    obtain ⟨hbefore, hnow⟩ := List.append_eq_nil_iff.mp hnone
    rcases List.mem_append.mp hmem with hmem | hmem
    · rcases h.held hbefore opened hmem with hheld | hownerless
      · exact held_of_asked howned hanswered hnow hheld
      · exact .inr (ownerless_of_moved howned hmoved hownerless (h.bounded opened hmem))
    · exact .inl (held_of_opened hanswered hmem).2

theorem attempt_of_acted (h : Attempt p service routine since w)
    (howned : Owned w.session.callbacks w.busy) (hacted : Acted w move w')
    (hmove : ∀ service, move ≠ .begin p service) : ∃ occurrences,
      w'.history = w.history ++ occurrences ∧
        Attempt p service routine (since ++ occurrences) w' := by
  have hmoved := moved_of_acted howned hacted
  have longer : ∀ opened ∈ (talkOf p since).opened,
      opened.endpoint < w'.session.board.length := fun opened hopened =>
    Nat.lt_of_lt_of_le (h.bounded opened hopened) (length_of_moved howned hmoved)
  cases goes_of_acted howned hacted hmove with
  | apart hapart =>
    obtain ⟨occurrences, hhistory, hparty⟩ := hapart.history
    have htalk : talkOf p (since ++ occurrences) = talkOf p since := by
      rw [talkOf_append, talkOf_others hparty, List.append_nil]
    refine ⟨occurrences, hhistory, hapart.busy ▸ h.progress.others hparty, htalk ▸ longer, ?_⟩
    rw [htalk]
    intro hnone opened hopened
    rcases h.held hnone opened hopened with hheld | hownerless
    · exact .inl (hapart.held _ hheld)
    · exact .inr (ownerless_of_moved howned hmoved hownerless (h.bounded opened hopened))
  | asked hbusy hanswered => exact ⟨_, rfl, attempt_of_asked h howned hbusy hanswered⟩
  | @gained service' result hbusy =>
    have htalk : talkOf p (since ++ [.gained p service' result]) = talkOf p since := by
      rw [talkOf_append]
      exact List.append_nil _
    obtain ⟨rest, heq, hleads, hgained, habandoned⟩ := h.progress.of_busy hbusy
    cases heq
    refine ⟨_, rfl, .gained (Function.update_self ..) (htalk ▸ hleads) (fun _ _ hin => ?_) ?_,
      htalk ▸ longer, htalk ▸ h.held⟩
    · exact List.mem_singleton.mp ((List.mem_append.mp hin).resolve_left (hgained _ _))
    · simpa using habandoned
  | abandoned hbusy hshut =>
    have htalk : talkOf p (since ++ [.abandoned p]) = talkOf p since := by
      rw [talkOf_append]
      exact List.append_nil _
    obtain ⟨now, hnow⟩ := Option.isSome_iff_exists.mp hbusy
    obtain ⟨rest, -, hleads, hgained, -⟩ := h.progress.of_busy hnow
    refine ⟨_, rfl, .abandoned (Function.update_self ..) (htalk ▸ hleads) (by simpa using hgained),
      htalk ▸ longer, ?_⟩
    rw [htalk]
    intro hnone opened hopened
    right
    rcases h.held hnone opened hopened with hheld | hownerless
    · exact ownerless_of_shut howned hshut hheld (List.mem_map_of_mem (mem_heldBy.mp hheld))
    · exact ownerless_of_moved howned hmoved hownerless (h.bounded opened hopened)

theorem attempt_run (behave : Behaviour F) {moves : List (Move F)}
    (hone : ∀ service, .begin p service ∉ moves) (h : Attempt p service routine since w)
    (howned : Owned w.session.callbacks w.busy) : ∃ occurrences,
      (w.run behave moves).history = w.history ++ occurrences ∧
        Attempt p service routine (since ++ occurrences) (w.run behave moves) := by
  induction moves generalizing w since with
  | nil => exact ⟨[], (List.append_nil _).symm, (List.append_nil since).symm ▸ h⟩
  | cons move moves ih =>
    have hacted := acted_act behave w move
    obtain ⟨first, hfirst, hattempt⟩ := attempt_of_acted h howned hacted
      fun service heq => hone service (heq ▸ List.mem_cons_self)
    obtain ⟨second, hsecond, hlast⟩ :=
      ih (fun service hin => hone service (List.mem_cons_of_mem _ hin)) hattempt
        (owned_of_moved howned (moved_of_acted howned hacted))
    refine ⟨first ++ second, ?_, ?_⟩
    · rw [← List.append_assoc, ← hfirst]
      exact hsecond
    · rwa [← List.append_assoc]

theorem attempt_begin (hfree : w.isFree p = true) (service : Service F) :
    Attempt p service (service.job w.session.settings).run [] (w.begin p service) := by
  rw [begin, if_pos hfree]
  have hnone : ∀ opened : Opened, opened ∉ (talkOf p ([] : List (Occurrence F))).opened :=
    fun _ => List.not_mem_nil
  exact ⟨.going (Function.update_self ..) (.here _) (by simp) (by simp),
    fun opened hopened => absurd hopened (hnone opened),
    fun _ opened hopened => absurd hopened (hnone opened)⟩

/-- Endpoints that nobody has are nobody's for ever. -/
theorem ownerless_run (behave : Behaviour F) (moves : List (Move F))
    (howned : Owned w.session.callbacks w.busy) (he : w.session.callbacks.Ownerless e)
    (hlength : e < w.session.board.length) :
    (w.run behave moves).session.callbacks.Ownerless e ∧
      e < (w.run behave moves).session.board.length := by
  induction moves generalizing w with
  | nil => exact ⟨he, hlength⟩
  | cons move moves ih =>
    have hmoved : Moved w move (w.act behave move) := moved_act howned move
    exact ih (owned_of_moved howned hmoved) (ownerless_of_moved howned hmoved he hlength)
      (Nat.lt_of_lt_of_le hlength (length_of_moved howned hmoved))

end Scene

/-! ## All or nothing -/

/-- Nothing is left of an attempt. It launched no operation, its endpoints are closed, each of them
once, nothing was taken out of them, and whatever function was called was not called for them. -/
structure LeftNothing (talk : Talk F) (w : Scene F) (gone : List EndpointId) : Prop where
  launched : talk.launched = []
  closed : ∀ opened ∈ talk.opened, w.session.board.isOpen opened.endpoint = false ∧
    closings w.history opened.endpoint + gone.count opened.endpoint = 1
  untaken : ∀ opened ∈ talk.opened, takings w.history opened.endpoint = []
  uncalled : ∀ id slot outcome, .called slot outcome ∈ story w.history id →
    ∃ op, w.session.operations[id]? = some op ∧
      ∀ opened ∈ talk.opened, opened.endpoint ∉ op.endpoints

/-- An operation listens for all slots at the endpoints that were opened for them. Supervision knows
it until it ends or is told to end. -/
structure Started (slots : List (Slot F)) (opened : List Opened) (w : Scene F)
    (op : CallbackOperation F) : Prop where
  slots : op.slots = slots
  endpoints : op.endpoints = opened.map (·.endpoint)
  tokens : op.tokens = opened.map (·.token)
  pending : op.stopping = false → (∀ ending, op.stage ≠ .ended ending) → op ∈ w.session.pending
  reclaimed : op.stopping = true → op ∉ w.session.pending
  ended : ∀ ending, op.stage = .ended ending → ending ≠ .aborted → op ∉ w.session.pending

/-- What comes of an attempt to start an operation. Of all that happened from its beginning on, as
long as the party began nothing else, `since` tells, and `gone` are the endpoints that went with
abandoned parties. -/
structure AllOrNothing (s : Settings) (label template : String) (shape : ResultShape)
    (slots : List (Slot F)) (lineage : LineageId) (p : Party) (since : List (Occurrence F))
    (w : Scene F) (gone : List EndpointId) : Prop where
  /-- When the program is sent, there is an endpoint for every slot, and its token is where the
  template has its placeholder. -/
  openedFirst : ∀ (first later : Talk F) (program : String),
    talkOf p since = first ++ ⟨.submit program, ()⟩ :: later →
      first.opened.length = slots.length ∧ later.opened = [] ∧
        ∃ source, Program.Fills template (first.opened.map (·.token)) source ∧
          program = Program.enveloped s source shape
  mismatched : Program.placeholders template ≠ slots.length → talkOf p since = [] ∧
    ∀ result, .gained p (.invoke label template shape slots lineage) result ∈ since →
      result = .error
        (.usage (.placeholderMismatch slots.length (Program.placeholders template)))
  failed : ∀ fault,
    .gained p (.invoke label template shape slots lineage) (.error fault) ∈ since →
      LeftNothing (talkOf p since) w gone
  abandoned : .abandoned p ∈ since →
    (invoke s label template shape slots lineage).run.Awaits (talkOf p since) →
      LeftNothing (talkOf p since) w gone
  succeeded : ∀ invoked : Invoked,
    .gained p (.invoke label template shape slots lineage) (.ok invoked) ∈ since →
      (talkOf p since).launched = [invoked.operation] ∧
        invoked.tokens = (talkOf p since).opened.map (·.token) ∧
        (talkOf p since).opened.length = slots.length
  started : ∀ id ∈ (talkOf p since).launched, ∃ op, w.session.operations[id]? = some op ∧
    Started slots (talkOf p since).opened w op
  /-- There is no operation but by a launch, and by every launch one. -/
  numbered : launches w.history = (w.session.operations.map (·.registration)).zipIdx

namespace Scene

variable {behave : Behaviour F} {settings : Settings} {host : Host}
  {w : Scene F} {moves : List (Move F)}

theorem leftNothing {talk : Talk F} (hw : (start settings host).run behave moves = w)
    (hnone : talk.launched = [])
    (hover : ∀ opened ∈ talk.opened, w.session.callbacks.Ownerless opened.endpoint ∧
      opened.endpoint < w.session.board.length) :
    LeftNothing talk w (dropped behave (start settings host) moves) := by
  have hfates := fates_run behave settings host moves
  have hcoursing := coursing_run behave settings host moves
  rw [hw] at hfates hcoursing
  refine ⟨hnone, fun opened hopened => ?_, fun opened hopened => ?_,
    fun id slot outcome hcall => ?_⟩
  · obtain ⟨hownerless, hlength⟩ := hover opened hopened
    obtain ⟨hopen, -, honce⟩ := hfates.settled _ hlength hownerless
    exact ⟨hopen, honce⟩
  · obtain ⟨hownerless, hlength⟩ := hover opened hopened
    exact (hfates.settled _ hlength hownerless).2.1
  · have hid : id < w.session.operations.length := by
      refine Nat.lt_of_not_le fun hlate => ?_
      rw [hcoursing.silent id hlate] at hcall
      cases hcall
    refine ⟨_, List.getElem?_eq_getElem hid, fun opened hopened hin => ?_⟩
    refine (hover opened hopened).1.2 (List.mem_flatMap.mpr ⟨_, List.getElem_mem hid, hin⟩)

theorem listeners_of_launch (henrolled : Enrolled w.session.operations w.history) {p : Party}
    {label : String} {endpoints : List Opened} {slots : List (Slot F)} {parent : LineageId}
    {id : OperationId}
    (hasked : .asked p (.launch label endpoints slots parent) id ∈ w.history) :
    ∃ op, w.session.operations[id]? = some op ∧
      op.listeners.map (fun l => (l.slot, l.opened)) = slots.zip endpoints := by
  have hlaunch : (⟨label, slots.zip endpoints, parent⟩, id) ∈ launches w.history :=
    List.mem_filterMap.mpr ⟨_, hasked, rfl⟩
  rw [henrolled.launched, List.mk_mem_zipIdx_iff_getElem?, List.getElem?_map] at hlaunch
  obtain ⟨op, hop, hregistration⟩ := Option.map_eq_some_iff.mp hlaunch
  exact ⟨op, hop, congrArg Registration.listeners hregistration⟩

theorem started_of_launch (henrolled : Enrolled w.session.operations w.history) {p : Party}
    {label : String} {endpoints : List Opened} {slots : List (Slot F)} {parent : LineageId}
    {id : OperationId} (hasked : .asked p (.launch label endpoints slots parent) id ∈ w.history)
    (hlength : endpoints.length = slots.length) :
    ∃ op, w.session.operations[id]? = some op ∧ Started slots endpoints w op := by
  obtain ⟨op, hop, hlisteners⟩ := listeners_of_launch henrolled hasked
  have hopened : op.listeners.map (·.opened) = endpoints := by
    have hsecond := congrArg (List.map Prod.snd) hlisteners
    rwa [List.map_map, List.map_snd_zip (Nat.le_of_eq hlength)] at hsecond
  have hslots : op.listeners.map (·.slot) = slots := by
    have hfirst := congrArg (List.map Prod.fst) hlisteners
    rwa [List.map_map, List.map_fst_zip (Nat.le_of_eq hlength.symm)] at hfirst
  have hmem := List.mem_of_getElem? hop
  have hknown := henrolled.known op hmem
  refine ⟨op, hop, hslots, ?_, ?_, fun hnot hstage => ?_, fun hstop hin => ?_,
    fun ending hended hne hin => ?_⟩
  · rw [← hopened, List.map_map]
    rfl
  · rw [← hopened, List.map_map]
    rfl
  · exact List.mem_filter.mpr ⟨hmem, hknown.running hnot hstage⟩
  · have hstill := (List.mem_filter.mp hin).2
    rw [hknown.stopping hstop] at hstill
    cases hstill
  · have hstill := (List.mem_filter.mp hin).2
    rw [hknown.ended ending hended hne] at hstill
    cases hstill

section Attempts

variable {s : Settings} {label template : String} {shape : ResultShape} {slots : List (Slot F)}
  {lineage : LineageId} {p : Party} {since : List (Occurrence F)} {w₁ : Scene F}

theorem Progress.leads {service : Service F} {routine : Routine F (Except Fault service.Result)}
    {engagement : Option (Engagement F)} (h : Progress p service routine engagement since) :
    ∃ rest, routine.Leads (talkOf p since) rest := by
  cases h with
  | going hbusy hleads => exact ⟨_, hleads⟩
  | gained hbusy hleads => exact ⟨_, hleads⟩
  | abandoned hbusy hleads => exact ⟨_, hleads⟩

theorem Progress.of_gained {service : Service F}
    {routine : Routine F (Except Fault service.Result)} {engagement : Option (Engagement F)}
    (h : Progress p service routine engagement since) {result : Except Fault service.Result}
    (hgained : .gained p service result ∈ since) :
    engagement = none ∧ routine.Leads (talkOf p since) (.done result) := by
  cases h with
  | going hbusy hleads hnone => exact absurd hgained (hnone _ _)
  | gained hbusy hleads honly =>
    cases honly _ _ hgained
    exact ⟨hbusy, hleads⟩
  | abandoned hbusy hleads hnone => exact absurd hgained (hnone _ _)

theorem Progress.of_abandoned {service : Service F}
    {routine : Routine F (Except Fault service.Result)} {engagement : Option (Engagement F)}
    (h : Progress p service routine engagement since) (habandoned : .abandoned p ∈ since) :
    engagement = none := by
  cases h with
  | going hbusy hleads hgained hnone => exact absurd habandoned hnone
  | gained hbusy hleads hgained hnone => exact absurd habandoned hnone
  | abandoned hbusy => exact hbusy

/-- A party that is not in the middle of anything any more has left its endpoints. -/
theorem Attempt.ownerless {service : Service F}
    {routine : Routine F (Except Fault service.Result)}
    (h : Attempt p service routine since w₁) (howned : Owned w₁.session.callbacks w₁.busy)
    (hbusy : w₁.busy p = none) (hnone : (talkOf p since).launched = []) :
    ∀ opened ∈ (talkOf p since).opened, w₁.session.callbacks.Ownerless opened.endpoint := by
  intro opened hopened
  have hheld := howned.keeps p
  rw [hbusy] at hheld
  refine (h.held hnone opened hopened).resolve_left fun hmem => ?_
  rw [show heldBy w₁.session.unclaimed p = [] from hheld] at hmem
  cases hmem

theorem allOrNothing_of_attempt
    (h : Attempt p (.invoke label template shape slots lineage)
      (invoke s label template shape slots lineage).run since w₁)
    (howned : Owned w₁.session.callbacks w₁.busy)
    (hafter : ∀ e, w₁.session.callbacks.Ownerless e → e < w₁.session.board.length →
      w.session.callbacks.Ownerless e ∧ e < w.session.board.length)
    (hsince : ∀ o ∈ since, o ∈ w.history) (hw : (start settings host).run behave moves = w) :
    AllOrNothing s label template shape slots lineage p since w
      (dropped behave (start settings host) moves) := by
  have henrolled := enrolled_run behave settings host moves
  rw [hw] at henrolled
  obtain ⟨rest, hleads⟩ := h.progress.leads
  have nothing : w₁.busy p = none → (talkOf p since).launched = [] →
      LeftNothing (talkOf p since) w (dropped behave (start settings host) moves) :=
    fun hbusy hnone => leftNothing hw hnone fun opened hopened =>
      hafter _ (h.ownerless howned hbusy hnone opened hopened) (h.bounded opened hopened)
  constructor
  case openedFirst =>
    intro first later program hsplit
    rw [hsplit] at hleads
    exact invoke_submits hleads
  case mismatched =>
    intro hcount
    refine ⟨(invoke_mismatched hcount hleads).1, fun result hgained => ?_⟩
    obtain ⟨-, hdone⟩ := h.progress.of_gained hgained
    exact Routine.done.inj (invoke_mismatched hcount hdone).2
  case failed =>
    intro fault hgained
    obtain ⟨hbusy, hdone⟩ := h.progress.of_gained hgained
    exact nothing hbusy (starts_of_done hdone)
  case abandoned =>
    intro habandoned hawaits
    exact nothing (h.progress.of_abandoned habandoned) (launched_of_awaits hawaits)
  case succeeded =>
    intro invoked hgained
    exact starts_of_done (h.progress.of_gained hgained).2
  case started =>
    intro id hid
    obtain ⟨first, name, endpoints, slots', parent, after, hsplit⟩ := mem_launched hid
    have hasked : .asked p (.launch name endpoints slots' parent) id ∈ w.history :=
      hsince _ (mem_talkOf (hsplit ▸ List.mem_append_right _ List.mem_cons_self))
    rw [hsplit] at hleads ⊢
    obtain ⟨rfl, rfl, rfl, hlength⟩ := invoke_launches hleads
    have hopened : Talk.opened (first ++ [⟨.launch name (Talk.opened first) slots' parent, id⟩]) =
        Talk.opened first := (Talk.opened_snoc ..).trans (List.append_nil _)
    rw [hopened]
    exact started_of_launch henrolled hasked hlength
  case numbered => exact henrolled.launched

end Attempts

theorem starts_all_or_nothing (behave : Behaviour F) (settings : Settings) (host : Host)
    (before during later : List (Move F)) {p : Party} (label template : String)
    (shape : ResultShape) (slots : List (Slot F)) (lineage : LineageId)
    (hfree : ((start settings host).run behave before).isFree p = true)
    (hone : ∀ service, .begin p service ∉ during) :
    let moves := before ++ .begin p (.invoke label template shape slots lineage) :: during
    ∃ since, ((start settings host).run behave moves).history =
        ((start settings host).run behave before).history ++
          .began p (.invoke label template shape slots lineage) :: since ∧
      AllOrNothing ((start settings host).run behave before).session.settings label template shape
        slots lineage p since ((start settings host).run behave (moves ++ later))
        (dropped behave (start settings host) (moves ++ later)) := by
  intro moves
  have hbefore : Owned ((start settings host).run behave before).session.callbacks
      ((start settings host).run behave before).busy := owned_run settings host before
  have hmoves : Owned ((start settings host).run behave moves).session.callbacks
      ((start settings host).run behave moves).busy := owned_run settings host moves
  have hrest := run_append behave (start settings host) moves later
  have hfirst : (start settings host).run behave moves =
      (((start settings host).run behave before).begin p
        (.invoke label template shape slots lineage)).run behave during :=
    run_append behave (start settings host) before _
  generalize (start settings host).run behave before = w₀ at *
  have hbegun : Moved w₀ (.begin p (.invoke label template shape slots lineage))
      (w₀.act behave (.begin p (.invoke label template shape slots lineage))) :=
    moved_act hbefore _
  obtain ⟨since, hhistory, hattempt⟩ :=
    attempt_run behave hone (attempt_begin hfree _) (owned_of_moved hbefore hbegun)
  rw [← hfirst] at hhistory hattempt
  refine ⟨since, ?_, allOrNothing_of_attempt hattempt hmoves (fun e he hlength => ?_) ?_ rfl⟩
  · rw [hhistory, begin, if_pos hfree, List.append_assoc]
    rfl
  · rw [hrest]
    exact ownerless_run behave later hmoves he hlength
  · intro o ho
    rw [hrest]
    refine (history_run behave _ later).subset ?_
    rw [hhistory]
    exact List.mem_append_right _ ho

/-- A host that has a token for one endpoint only. -/
def meagreHost : Host := .replaying { tokens := [some "first", none] }

def slotPair : List (Slot Unit) := [⟨.oneShot, .value, ()⟩, ⟨.repeatable, .value, ()⟩]

/-- The second endpoint of a pair cannot be opened, and later something is sent to the first one. -/
theorem refused_pair_leaves_nothing :
    (start {} meagreHost : Scene Unit).isFree .foreground = true ∧
    ∃ since, (talkOf .foreground since).opened = [⟨0, "first"⟩] ∧
      LeftNothing (talkOf .foreground since)
        ((start {} meagreHost).run returning
          (.begin .foreground (.invoke "pair" (Program.placeholder ++ Program.placeholder) .value
            slotPair 0) :: List.replicate 4 (.go .foreground) ++
              [.fire "first" Envelope.none.toJson, .look 0 0])) [] := by
  have hfree : ((start {} meagreHost : Scene Unit).run returning []).isFree .foreground = true :=
    rfl
  obtain ⟨since, hhistory, hall⟩ := starts_all_or_nothing returning {} meagreHost []
    (List.replicate 4 (.go .foreground)) [.fire "first" Envelope.none.toJson, .look 0 0] "pair"
    (Program.placeholder ++ Program.placeholder) .value slotPair 0 hfree (by simp)
  obtain rfl : [.asked .foreground .openEndpoint (.ok ⟨0, "first"⟩),
      .asked .foreground .openEndpoint (.error (.host "endpoint refused")),
      .asked .foreground (.closeEndpoint 0) (),
      .gained .foreground (.invoke "pair" (Program.placeholder ++ Program.placeholder) .value
        slotPair 0) (.error (.transport (.host "endpoint refused")))] = since :=
    congrArg List.tail hhistory
  exact ⟨hfree, _, rfl, hall.failed _ (List.mem_of_getElem? (i := 3) rfl)⟩

/-- Supervision forgets an operation when it tells it to end, which is before it ends. -/
theorem forgotten_before_end :
    let w := (start {} briefHost).run returning
      (.begin .foreground (.invoke "panel" Program.placeholder .value [⟨.oneShot, .value, ()⟩] 0) ::
        List.replicate 7 (.go .foreground) ++ [.reclaim fun _ => true])
    (∃ invoked : Invoked, invoked.tokens = ["panel"] ∧
      .gained .foreground (.invoke "panel" Program.placeholder .value [⟨.oneShot, .value, ()⟩] 0)
        (.ok invoked) ∈ w.history) ∧
    w.session.operations.map (·.tokens) = [["panel"]] ∧ story w.history 0 = [] ∧
    w.session.pending.map (·.tokens) = [] :=
  ⟨⟨_, rfl, List.mem_of_getElem? (i := 7) rfl⟩, rfl, rfl, rfl⟩

end Scene

end RemoteHost
