import RemoteHost.Proofs.AllOrNothing
import RemoteHost.Proofs.GivenKeys
import RemoteHost.Proofs.KeyHistories

/-!
# How long keys are live

A key is live from the moment it is received until a release drains it, whoever else does what in
between. A service receives every key that it was given in a reply before it ends, and an operation
receives the key of a payload when it calls the function of the slot.
-/

namespace RemoteHost

variable {F : Type}

namespace Scene

/-! ## Single moves -/

/-- What a move does to the keys, and what it adds to the history. -/
inductive Rekeyed (w : Scene F) (later : List (Occurrence F)) (w' : Scene F) : Prop where
  | same (harena : w'.session.arena = w.session.arena)
      (hlater : ∀ o ∈ later, ∀ key, ¬o.Receives key)
  | received (received : String) (harena : w'.session.arena = w.session.arena.record received)
      (hlater : ∀ o ∈ later, ∀ key, o.Receives key → received = key)
  | drained (p : Party) (hlater : later = [.asked p .drain w.session.arena.drain.1])
  | restored (keys : List String) (harena : w'.session.arena = w.session.arena.restore keys)
      (hlater : ∀ o ∈ later, ∀ key, ¬o.Receives key)

theorem Replayed.rekeyed {w w' : Scene F} {later : List (Occurrence F)}
    (h : Replayed w later w') : Rekeyed w later w' := by
  cases h with
  | still harena hlater =>
    refine .same harena fun o ho key hreceives => ?_
    rw [Occurrence.receives_iff, hlater o ho] at hreceives
    cases hreceives
  | @step first o step hlater hfirst hstep harena htold =>
    have hreceives : ∀ o' ∈ later, ∀ key, o'.Receives key → step = .record key := by
      intro o' ho' key hreceives
      rw [Occurrence.receives_iff] at hreceives
      rw [hlater] at ho'
      rcases List.mem_append.mp ho' with ho' | ho'
      · rw [hfirst o' ho'] at hreceives
        cases hreceives
      · obtain rfl := List.mem_singleton.mp ho'
        exact Option.some.inj (hstep.symm.trans hreceives)
    cases step with
    | record key =>
      exact .received key harena fun o' ho' other hother =>
        ArenaStep.record.inj (hreceives o' ho' other hother)
    | restore keys =>
      exact .restored keys harena fun o' ho' other hother => nomatch hreceives o' ho' other hother
    | drain =>
      obtain ⟨p, keys, rfl⟩ : ∃ p keys, o = .asked p .drain keys := by
        unfold Occurrence.arenaStep? at hstep
        split at hstep <;> cases hstep
        exact ⟨_, _, rfl⟩
      obtain ⟨rfl, rfl⟩ := htold p keys rfl
      exact .drained p hlater

theorem rekeyed_act (behave : Behaviour F) (w : Scene F) (move : Move F) :
    ∃ later, (w.act behave move).history = w.history ++ later ∧
      Rekeyed w later (w.act behave move) := by
  obtain ⟨later, hhistory, hreplayed⟩ := replayed_act behave w move
  exact ⟨later, hhistory, hreplayed.rekeyed⟩

/-! ## Runs -/

/-- A key is live, unless a release has drained it in what came last. -/
def LiveUntilDrained (w : Scene F) (later : List (Occurrence F)) (key : String) : Prop :=
  w.session.arena.contains key = true ∨
    ∃ (p : Party) (keys : List String), .asked p .drain keys ∈ later ∧ key ∈ keys

section Rekeyed

variable {w w' : Scene F} {since later : List (Occurrence F)} {key : String}

theorem LiveUntilDrained.rekeyed (h : LiveUntilDrained w since key)
    (hrekeyed : Rekeyed w later w') : LiveUntilDrained w' (since ++ later) key := by
  rcases h with hlive | ⟨p, keys, hdrained, hkey⟩
  · cases hrekeyed with
    | same harena => exact .inl (harena ▸ hlive)
    | received received harena => exact .inl (harena ▸ Arena.contains_record.mpr (.inr hlive))
    | drained p hlater =>
      refine .inr ⟨p, w.session.arena.drain.1, ?_, Arena.mem_drain.mpr hlive⟩
      rw [hlater]
      exact List.mem_append_right _ (List.mem_singleton_self _)
    | restored keys harena => exact .inl (harena ▸ Arena.contains_restore.mpr (.inr hlive))
  · exact .inr ⟨p, keys, List.mem_append_left _ hdrained, hkey⟩

/-- A key that is received in a move is live after it. -/
theorem Rekeyed.live (hrekeyed : Rekeyed w later w') {o : Occurrence F} (ho : o ∈ later)
    (hreceives : o.Receives key) : w'.session.arena.contains key = true := by
  cases hrekeyed with
  | same _ hlater | restored _ _ hlater => exact absurd hreceives (hlater o ho key)
  | received received harena hlater =>
    rw [harena]
    exact Arena.contains_record.mpr (.inl (hlater o ho key hreceives))
  | drained p hlater =>
    rw [hlater, List.mem_singleton] at ho
    subst ho
    exact hreceives.elim

end Rekeyed

/-- A key that was received at any time is live ever since, until a release drains it. -/
theorem received_until_drained (behave : Behaviour F) (settings : Settings) (host : Host)
    (moves : List (Move F)) {key : String} {before after : List (Occurrence F)}
    {o : Occurrence F}
    (hhistory : ((start settings host).run behave moves).history = before ++ o :: after)
    (hreceives : o.Receives key) :
    LiveUntilDrained ((start settings host).run behave moves) after key := by
  refine run_induction (P := fun w => ∀ before after, w.history = before ++ o :: after →
    LiveUntilDrained w after key) ?_ ?_ moves before after hhistory
  · intro before after hstart
    cases before <;> cases hstart
  · intro w move ih before after hhistory
    obtain ⟨later, hlater, hrekeyed⟩ := rekeyed_act behave w move
    rw [hlater] at hhistory
    rcases List.append_eq_append_iff.mp hhistory with ⟨new, rfl, hnew⟩ | ⟨old, hold, hrest⟩
    · exact .inl (hrekeyed.live (hnew ▸ by simp) hreceives)
    · cases old with
      | nil =>
        have hnew : o ∈ [] ++ later := hrest ▸ List.mem_cons_self
        exact .inl (hrekeyed.live hnew hreceives)
      | cons first old =>
        obtain ⟨rfl, rfl⟩ := List.cons.inj hrest
        exact (ih before old hold).rekeyed hrekeyed

/-! ## Services -/

/-- How far a party has come with the service that it began last. -/
def Underway (p : Party) (history : List (Occurrence F)) (service : Service F)
    (rest : Routine F (Except Fault service.Result)) : Prop :=
  ∃ settings past since, history = past ++ .began p service :: since ∧
    (service.job settings).run.Leads (talkOf p since) rest

theorem Underway.others {p : Party} {history occurrences : List (Occurrence F)}
    {service : Service F} {rest : Routine F (Except Fault service.Result)}
    (h : Underway p history service rest) (hparty : ∀ o ∈ occurrences, o.party? ≠ some p) :
    Underway p (history ++ occurrences) service rest := by
  obtain ⟨settings, past, since, rfl, hleads⟩ := h
  refine ⟨settings, past, since ++ occurrences, by simp, ?_⟩
  rwa [talkOf_append, talkOf_others hparty, List.append_nil]

theorem Underway.asked {p : Party} {history : List (Occurrence F)} {service : Service F}
    {request : Request F} {next : request.Reply → Routine F (Except Fault service.Result)}
    (h : Underway p history service (.ask request next)) (reply : request.Reply) :
    Underway p (history ++ [.asked p request reply]) service (next reply) := by
  obtain ⟨settings, past, since, rfl, hleads⟩ := h
  refine ⟨settings, past, since ++ [.asked p request reply], by simp, ?_⟩
  have htalk : talkOf p [.asked p request reply] = [⟨request, reply⟩] := by simp [talkOf]
  rw [talkOf_append, htalk]
  exact hleads.snoc reply

/-- Whoever is busy is underway with its service, and so was whoever gained something. -/
structure Accountable (w : Scene F) : Prop where
  busy : ∀ p service rest, w.busy p = some ⟨service, rest⟩ → Underway p w.history service rest
  gained : ∀ p service result before after,
    w.history = before ++ .gained p service result :: after →
      Underway p before service (.done result)

section Accountable

variable {w w' : Scene F} {move : Move F}

/-- What is gained in the past stays accounted for, and so is what is gained now. -/
theorem Accountable.longer (h : Accountable w) {occurrences : List (Occurrence F)}
    (hnew : ∀ p service result first last, occurrences = first ++ .gained p service result :: last →
      Underway p (w.history ++ first) service (.done result)) :
    ∀ p service result before after,
      w.history ++ occurrences = before ++ .gained p service result :: after →
        Underway p before service (.done result) := by
  intro p service result before after hhistory
  rcases List.append_eq_append_iff.mp hhistory with ⟨first, rfl, hlater⟩ | ⟨old, hold, hrest⟩
  · exact hnew p service result first after hlater
  · cases old with
    | nil =>
      rw [List.append_nil] at hold
      rw [← hold, ← List.append_nil w.history]
      exact hnew p service result [] after hrest.symm
    | cons first old =>
      obtain ⟨rfl, rfl⟩ := List.cons.inj hrest
      exact h.gained p service result before old hold

/-- What is nobody's doing. -/
theorem Accountable.quiet (h : Accountable w) {session : Session F}
    {occurrences : List (Occurrence F)} (hparty : ∀ o ∈ occurrences, o.party? = none) :
    Accountable ⟨session, w.busy, w.history ++ occurrences⟩ where
  busy p service rest hbusy :=
    (h.busy p service rest hbusy).others fun o ho => by simp [hparty o ho]
  gained := h.longer fun p service result first last heq => by
    have hnone := hparty (.gained p service result) (heq ▸ by simp)
    cases hnone

/-- What one party does. -/
theorem Accountable.party (h : Accountable w) {session : Session F} {p : Party}
    {o : Occurrence F} (ho : o.party? = some p) {engagement : Option (Engagement F)}
    (hmine : ∀ service rest, engagement = some ⟨service, rest⟩ →
      Underway p (w.history ++ [o]) service rest)
    (hgained : ∀ q service result, o = .gained q service result →
      Underway q w.history service (.done result)) :
    Accountable ⟨session, Function.update w.busy p engagement, w.history ++ [o]⟩ where
  busy q service rest hbusy := by
    by_cases hq : q = p
    · subst hq
      exact hmine service rest (by simpa using hbusy)
    · dsimp only at hbusy
      rw [Function.update_of_ne hq] at hbusy
      refine (h.busy q service rest hbusy).others fun o' ho' heq => hq ?_
      rw [List.mem_singleton.mp ho', ho] at heq
      exact (Option.some.inj heq).symm
  gained := h.longer fun q service result first last heq => by
    cases first with
    | nil =>
      rw [List.append_nil]
      exact hgained q service result (List.cons.inj heq).1
    | cons _ first => simp at heq

theorem accountable_of_acted (h : Accountable w) (hacted : Acted w move w') : Accountable w' := by
  have still : ∀ session : Session F, Accountable { w with session } :=
    fun _ => ⟨h.busy, h.gained⟩
  cases hacted with
  | still | disconnected | told => exact still _
  | @began p service hfree =>
    refine h.party rfl ?_ (by simp)
    rintro _ _ ⟨⟩
    exact ⟨w.session.settings, w.history, [], rfl, .here _⟩
  | @asked p service request next reply session hbusy hanswered =>
    refine h.party rfl ?_ (by simp)
    rintro _ _ ⟨⟩
    exact (h.busy p service _ hbusy).asked reply
  | @gained p service result hbusy =>
    refine h.party rfl nofun ?_
    rintro _ _ _ ⟨⟩
    exact h.busy p service _ hbusy
  | abandoned => exact h.party rfl nofun (by simp)
  | arrived => exact h.quiet (by simp [Occurrence.party?])
  | turned hmove hop hturn =>
    obtain ⟨hbusy, occurrences, hhistory, hparty⟩ := party_of_turn hturn
    obtain ⟨session, busy, history⟩ := w'
    cases hbusy
    cases hhistory
    exact h.quiet hparty

theorem accountable_run (behave : Behaviour F) (settings : Settings) (host : Host)
    (moves : List (Move F)) : Accountable ((start settings host).run behave moves) := by
  refine run_induction ?_ (fun w move h => accountable_of_acted h (acted_act behave w move)) moves
  refine ⟨fun p service rest hbusy => ?_, fun p service result before after hhistory => ?_⟩
  · cases hbusy
  · cases before <;> cases hhistory

end Accountable

/-! ## Keys that are given -/

/-- A service that ends has recorded every key that was given to it. -/
theorem given_key_recorded {behave : Behaviour F} {settings : Settings} {host : Host}
    {moves : List (Move F)} {p : Party} {service : Service F} {shape : ResultShape} {reply : Json}
    {key : String} {result : Except Fault service.Result}
    {before middle after : List (Occurrence F)}
    (hhistory : ((start settings host).run behave moves).history =
      before ++ .asked p .collect (.ok reply) :: (middle ++ .gained p service result :: after))
    (hbegan : ∀ service', .began p service' ∉ middle) (hshape : service.shape? = some shape)
    (hgives : shape.Gives reply key) : .asked p (.record key) () ∈ middle := by
  obtain ⟨s, past, since, hsplit, hleads⟩ := (accountable_run behave settings host moves).gained p
    service result (before ++ .asked p .collect (.ok reply) :: middle) after (by simp [hhistory])
  -- The reply came after the service began, as nothing began between the reply and the end.
  obtain ⟨early, rfl⟩ : ∃ early, since = early ++ .asked p .collect (.ok reply) :: middle := by
    rcases List.append_eq_append_iff.mp hsplit with ⟨between, -, hbetween⟩ | ⟨between, -, hbetween⟩
    · cases between with
      | nil => cases hbetween
      | cons _ between =>
        have hmiddle := (List.cons.inj hbetween).2
        exact absurd (hmiddle ▸ by simp) (hbegan service)
    · cases between with
      | nil => cases hbetween
      | cons _ between => exact ⟨between, (List.cons.inj hbetween).2⟩
  have htalk : talkOf p (early ++ .asked p .collect (.ok reply) :: middle) =
      talkOf p early ++ ⟨.collect, .ok reply⟩ :: talkOf p middle := by
    rw [talkOf_append]
    simp [talkOf]
  rw [htalk] at hleads
  exact mem_talkOf (service_records s hshape hgives hleads)

/-- A payload that an operation takes is what it calls the function of the slot with. -/
theorem history_taking (behave : Behaviour F) {w : Scene F} {id : OperationId}
    {op : CallbackOperation F} {slot : Nat} {listener : Listener F} {payload : Json}
    {outcome : Outcome} (hop : w.session.operations[id]? = some op)
    (hstage : op.stage = .listening) (hget : op.listeners[slot]? = some listener)
    (hlistening : listener.listening = true)
    (hseen : w.session.board.sighting listener.opened.endpoint = .payload payload)
    (haccepts : listener.slot.accepts? payload = some outcome) (later : List (Move F)) :
    ∃ after, (w.run behave (.look id slot :: later)).history = w.history ++
      .taken listener.opened.endpoint payload :: .operation id (.called slot outcome) :: after := by
  have hlook : (w.act behave (.look id slot)).history = w.history ++
      [.taken listener.opened.endpoint payload, .operation id (.called slot outcome)] := by
    simp [act, withOperation, hop, look, hstage, hget, hlistening, hseen, takingDeeds, haccepts]
  obtain ⟨after, hafter⟩ := history_run behave (w.act behave (.look id slot)) later
  refine ⟨after, ?_⟩
  rw [hlook, List.append_assoc] at hafter
  exact hafter.symm

/-- Every key that the library is given and accepts is live from then on, until a release drains it.
Before a service ends, it records the keys that it was given in a reply, if it expected any. Before
the function of a slot is called with a handle, the operation records its key. -/
theorem given_keys_live_until_drained (behave : Behaviour F) (settings : Settings) (host : Host)
    (moves : List (Move F)) :
    let w := (start settings host).run behave moves
    (∀ (p : Party) (service : Service F) (shape : ResultShape) (reply : Json) (key : String)
      (result : Except Fault service.Result) (before middle after : List (Occurrence F)),
      w.history =
        before ++ .asked p .collect (.ok reply) :: (middle ++ .gained p service result :: after) →
      (∀ service', .began p service' ∉ middle) →
      service.shape? = some shape → shape.Gives reply key →
      ∃ first last, middle = first ++ .asked p (.record key) () :: last ∧
        LiveUntilDrained w (last ++ .gained p service result :: after) key) ∧
    ∀ (id : OperationId) (op : CallbackOperation F) (slot : Nat) (listener : Listener F)
      (payload : Json) (key : String) (later : List (Move F)),
      w.session.operations[id]? = some op → op.stage = .listening →
      op.listeners[slot]? = some listener → listener.listening = true →
      w.session.board.sighting listener.opened.endpoint = .payload payload →
      listener.slot.payload = .handle → Spells payload (.handle key) →
      ∃ after, (w.run behave (.look id slot :: later)).history = w.history ++
        .taken listener.opened.endpoint payload ::
          .operation id (.called slot (.handle key)) :: after ∧
        LiveUntilDrained (w.run behave (.look id slot :: later)) after key := by
  refine ⟨?replies, ?payloads⟩
  case replies =>
    intro p service shape reply key result before middle after hhistory hbegan hshape hgives
    have hrecorded := given_key_recorded hhistory hbegan hshape hgives
    obtain ⟨first, last, rfl⟩ := List.append_of_mem hrecorded
    refine ⟨first, last, rfl, ?_⟩
    have hwhen : ((start settings host).run behave moves).history =
        (before ++ .asked p .collect (.ok reply) :: first) ++ .asked p (.record key) () ::
          (last ++ .gained p service result :: after) := by simp [hhistory]
    exact received_until_drained behave settings host moves hwhen rfl
  case payloads =>
    intro id op slot listener payload key later hop hstage hget hlistening hseen hslot hspells
    have haccepts : listener.slot.accepts? payload = some (.handle key) :=
      Slot.accepts?_eq_some.mpr ⟨hspells, by rw [hslot]; rfl⟩
    generalize hw : (start settings host).run behave moves = w at *
    obtain ⟨after, hwhen⟩ :=
      history_taking behave hop hstage hget hlistening hseen haccepts later
    refine ⟨after, hwhen, ?_⟩
    have hwhole : w.run behave (.look id slot :: later) =
        (start settings host).run behave (moves ++ .look id slot :: later) := by
      rw [run_append, hw]
    rw [List.append_cons, hwhole] at hwhen
    rw [hwhole]
    exact received_until_drained behave settings host _ hwhen rfl

/-- A host that answers with a handle and has one endpoint to give. -/
def pickingHost : Host := .replaying
  { replies := [.json (Envelope.handle "panel").toJson], tokens := [some "pick"] }

def pickService (payload : PayloadShape) : Service Unit :=
  .invoke "pick" Program.placeholder .handle [⟨.repeatable, payload, ()⟩] 0

/-- A panel is shown, which is a handle itself, and an item is picked in it, which is another. -/
def picking (payload : PayloadShape) : List (Move Unit) :=
  .begin .foreground (pickService payload) :: List.replicate 8 (.go .foreground) ++
    [.fire "pick" (Envelope.handle "item").toJson]

theorem panel_and_item_are_live :
    let w := (start {} pickingHost).run returning (picking .handle)
    (∃ last, LiveUntilDrained w (last ++ w.history.drop 8) "panel") ∧
      ∃ after, LiveUntilDrained (w.run returning [.look 0 0]) after "item" := by
  obtain ⟨hreplies, hpayloads⟩ :=
    given_keys_live_until_drained returning {} pickingHost (picking .handle)
  constructor
  · obtain ⟨_, last, -, hlive⟩ := hreplies .foreground (pickService .handle) .handle
      (Envelope.handle "panel").toJson "panel" (.ok ⟨0, .handle "panel", ["pick"]⟩)
      (((start {} pickingHost).run returning (picking .handle)).history.take 4)
      [.asked .foreground (.complete 0) (), .asked .foreground (.record "panel") (),
        .asked .foreground (.launch "pick" [⟨0, "pick"⟩] [⟨.repeatable, .handle, ()⟩] 0) (0 : Nat)]
      [.arrived 0 (Envelope.handle "item").toJson] rfl (by simp) rfl
      (.handle (Envelope.spells_toJson _))
    exact ⟨last, hlive⟩
  · obtain ⟨after, -, hlive⟩ := hpayloads 0 _ 0 _ (Envelope.handle "item").toJson "item" []
      rfl rfl rfl rfl rfl rfl (Envelope.spells_toJson _)
    exact ⟨after, hlive⟩

/-- Whether live keys are drained. -/
def drains : Occurrence F → Bool
  | .asked _ .drain _ => true
  | _ => false

/-- An item is picked, but the slot expects a value. The operation goes on listening and nothing is
ever released, yet the key of the item is not live. -/
theorem refused_item_is_not_live :
    let w := (start {} pickingHost).run returning (picking .value)
    let w' := w.run returning [.look 0 0]
    (∃ op listener, w.session.operations[0]? = some op ∧ op.stage = .listening ∧
      op.listeners[0]? = some listener ∧ listener.listening = true ∧
      w.session.board.sighting listener.opened.endpoint =
        .payload (Envelope.handle "item").toJson) ∧
    Spells (Envelope.handle "item").toJson (.handle "item") ∧
    w'.history = w.history ++ [.taken 0 (Envelope.handle "item").toJson] ∧
    ¬LiveUntilDrained w' w'.history "item" := by
  refine ⟨⟨_, _, rfl, rfl, rfl, rfl, rfl⟩, Envelope.spells_toJson _, rfl, ?_⟩
  rintro (hlive | ⟨p, keys, hdrained, -⟩)
  · revert hlive
    decide +kernel
  · have hnone : (((start {} pickingHost).run returning (picking .value)).run returning
        [.look 0 0]).history.any drains = false := by decide +kernel
    exact List.any_eq_false.mp hnone _ hdrained rfl

end Scene

end RemoteHost
