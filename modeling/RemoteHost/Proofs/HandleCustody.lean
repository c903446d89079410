import RemoteHost.Proofs.ArenaChanges
import RemoteHost.Proofs.KeyFrames
import RemoteHost.Proofs.ReleaseDiscipline

/-!
# No handle is lost

As long as nobody is abandoned, a key that was handed to a caller is live, or a release that has not
ended has it in its batch, or the host has dropped it since it was last received.
-/

namespace RemoteHost

variable {F : Type}

/-! ## What histories tell of keys -/

namespace Occurrence

/-- The party whose doing an occurrence is. -/
def party? : Occurrence F → Option Party
  | .began p _ | .asked p _ _ | .gained p _ _ | .abandoned p => some p
  | _ => none

/-- A key is received when it is recorded, or as the payload of a callback. -/
def Receives (key : String) : Occurrence F → Prop
  | .asked _ (.record other) _ => other = key
  | .operation _ (.called _ (.handle other)) => other = key
  | _ => False

def handed : Occurrence F → List String
  | .gained _ service result => service.keys result
  | .operation _ (.called _ outcome) => outcome.key?.toList
  | _ => []

/-- Whether a party hands over a program or collects a reply. -/
def isExchange (p : Party) : Occurrence F → Bool
  | .asked q (.submit _) _ | .asked q .collect _ => q = p
  | _ => false

def isAbandonment : Occurrence F → Bool
  | .abandoned _ => true
  | _ => false

/-- Whether an occurrence is nobody's doing and gives no key to anybody. -/
def isSilent : Occurrence F → Bool
  | .arrived _ _ | .taken _ _ | .closed _ | .operation _ (.returned _) | .operation _ (.ended _) =>
    true
  | _ => false

theorem silent {o : Occurrence F} (h : o.isSilent = true) :
    o.party? = none ∧ (∀ key, ¬o.Receives key) ∧ o.handed = [] := by
  cases o with
  | arrived | taken | closed => exact ⟨rfl, fun _ hreceives => hreceives, rfl⟩
  | operation id deed =>
    cases deed with
    | called => cases h
    | returned | ended => exact ⟨rfl, fun _ hreceives => hreceives, rfl⟩
  | _ => cases h

end Occurrence

def Received (history : List (Occurrence F)) (key : String) : Prop :=
  ∃ o ∈ history, o.Receives key

/-- A party has drained keys in a service that has not ended. -/
def Drained (history : List (Occurrence F)) (p : Party) (keys : List String) : Prop :=
  ∃ before after, history = before ++ .asked p .drain keys :: after ∧
    ∀ service result, .gained p service result ∉ after

/-- A program is the last that a party has handed over, and there was no reply yet. -/
def Submitted (history : List (Occurrence F)) (p : Party) (program : String) : Prop :=
  ∃ before after, history = before ++ .asked p (.submit program) () :: after ∧
    ∀ o ∈ after, o.isExchange p = false

/-- The host has answered a release program that names a key, and the key was not received since. -/
def Dropped (s : Settings) (history : List (Occurrence F)) (key : String) : Prop :=
  ∃ before p reply after keys, history = before ++ .asked p .collect (.ok reply) :: after ∧
    Submitted before p (releaseProgram s keys) ∧ tellsDropped reply = true ∧ key ∈ keys ∧
      ∀ o ∈ after, ¬o.Receives key

section Histories

variable {history : List (Occurrence F)} {os : List (Occurrence F)} {p : Party} {key : String}

theorem received_append : Received (history ++ os) key ↔
    Received history key ∨ ∃ o ∈ os, o.Receives key := by
  simp only [Received, List.mem_append, or_and_right, exists_or]

theorem Drained.append {keys : List String} (h : Drained history p keys)
    (hos : ∀ service result, .gained p service result ∉ os) : Drained (history ++ os) p keys := by
  obtain ⟨before, after, rfl, hafter⟩ := h
  refine ⟨before, after ++ os, by simp, fun service result hmem => ?_⟩
  rcases List.mem_append.mp hmem with hmem | hmem
  · exact hafter service result hmem
  · exact hos service result hmem

theorem Submitted.append {program : String} (h : Submitted history p program)
    (hos : ∀ o ∈ os, o.isExchange p = false) : Submitted (history ++ os) p program := by
  obtain ⟨before, after, rfl, hafter⟩ := h
  refine ⟨before, after ++ os, by simp, fun o hmem => ?_⟩
  rcases List.mem_append.mp hmem with hmem | hmem
  · exact hafter o hmem
  · exact hos o hmem

theorem Dropped.append {s : Settings} (h : Dropped s history key)
    (hos : ∀ o ∈ os, ¬o.Receives key) : Dropped s (history ++ os) key := by
  obtain ⟨before, q, reply, after, keys, rfl, hsubmitted, htells, hkey, hafter⟩ := h
  refine ⟨before, q, reply, after ++ os, keys, by simp, hsubmitted, htells, hkey, fun o hmem => ?_⟩
  rcases List.mem_append.mp hmem with hmem | hmem
  · exact hafter o hmem
  · exact hos o hmem

end Histories

/-! ## The ledger -/

/-- A party that is in the middle of something keeps to the rules, and others have no batch. -/
def KeepsCustody (s : Settings) (c : Custody) : Option (Engagement F) → Prop
  | some ⟨service, rest⟩ => (custody s service.isRelease).Obeys service.Accounts c rest ∧
      (c.batch = .none ∨ service.isRelease = true)
  | none => c.batch = .none

/-- One party, what it is in the middle of, and the keys that it is entrusted with. -/
structure Entrusted (s : Settings) (history : List (Occurrence F)) (p : Party)
    (engagement : Option (Engagement F)) (c : Custody) : Prop where
  keeps : KeepsCustody s c engagement
  received : ∀ key ∈ c.received, Received history key
  drained : ∀ keys, c.batch = .drained keys ∨ c.batch = .sent keys → Drained history p keys
  submitted : ∀ keys, c.batch = .sent keys → Submitted history p (releaseProgram s keys)

/-- Where every key is. -/
structure Ledger (s : Settings) (w : Scene F) (custodies : Party → Custody) : Prop where
  settings : w.session.settings = s
  parties : ∀ p, Entrusted s w.history p (w.busy p) (custodies p)
  accounted : ∀ key, Received w.history key → w.session.arena.contains key = true ∨
    (∃ p, key ∈ (custodies p).batch.pending) ∨ Dropped s w.history key
  handed : ∀ o ∈ w.history, ∀ key ∈ o.handed, Received w.history key

section Ledger

variable {s : Settings} {history os : List (Occurrence F)} {p : Party}
  {engagement : Option (Engagement F)} {c : Custody}

theorem Entrusted.append (h : Entrusted s history p engagement c)
    (hgained : ∀ service result, .gained p service result ∉ os)
    (hexchange : ∀ o ∈ os, o.isExchange p = false) {engagement' : Option (Engagement F)}
    (hkeeps : KeepsCustody s c engagement') :
    Entrusted s (history ++ os) p engagement' c where
  keeps := hkeeps
  received key hkey := received_append.mpr (.inl (h.received key hkey))
  drained keys hbatch := (h.drained keys hbatch).append hgained
  submitted keys hbatch := (h.submitted keys hbatch).append hexchange

theorem Occurrence.isExchange_of_party {o : Occurrence F} (h : o.party? ≠ some p) :
    o.isExchange p = false := by
  cases o with
  | asked q request reply =>
    have hne : q ≠ p := fun heq => h (congrArg some heq)
    cases request with
    | submit | collect => exact decide_eq_false hne
    | _ => rfl
  | _ => rfl

theorem Entrusted.others (h : Entrusted s history p engagement c)
    (hos : ∀ o ∈ os, o.party? ≠ some p) : Entrusted s (history ++ os) p engagement c :=
  h.append (fun _ _ hmem => hos _ hmem rfl)
    (fun o ho => Occurrence.isExchange_of_party (hos o ho)) h.keeps

theorem Entrusted.idle (s : Settings) (history : List (Occurrence F)) (p : Party) :
    Entrusted s history p none {} where
  keeps := rfl
  received := by simp
  drained := by simp
  submitted := by simp

variable {w : Scene F} {custodies : Party → Custody}

/-- What is nobody's doing may make keys live, but loses none. -/
theorem Ledger.quiet (h : Ledger s w custodies) {session : Session F}
    (hsettings : session.settings = w.session.settings)
    (hlive : ∀ key, w.session.arena.contains key = true → session.arena.contains key = true)
    (hparty : ∀ o ∈ os, o.party? = none)
    (hreceives : ∀ o ∈ os, ∀ key, o.Receives key → session.arena.contains key = true)
    (hhanded : ∀ o ∈ os, ∀ key ∈ o.handed, o.Receives key) :
    Ledger s ⟨session, w.busy, w.history ++ os⟩ custodies where
  settings := hsettings.trans h.settings
  parties p := (h.parties p).others fun o ho => by simp [hparty o ho]
  accounted key hkey := by
    by_cases hnew : ∃ o ∈ os, o.Receives key
    · obtain ⟨o, ho, hkey⟩ := hnew
      exact .inl (hreceives o ho key hkey)
    · have hold := (received_append.mp hkey).resolve_right hnew
      rcases h.accounted key hold with hlives | hpending | hdropped
      · exact .inl (hlive key hlives)
      · exact .inr (.inl hpending)
      · exact .inr (.inr (hdropped.append fun o ho hkey => hnew ⟨o, ho, hkey⟩))
  handed o ho key hkey := by
    rcases List.mem_append.mp ho with ho | ho
    · exact received_append.mpr (.inl (h.handed o ho key hkey))
    · exact received_append.mpr (.inr ⟨o, ho, hhanded o ho key hkey⟩)

theorem Ledger.silent (h : Ledger s w custodies) {session : Session F}
    (hsame : w.session.SameKeys session) (hsilent : ∀ o ∈ os, o.isSilent = true) :
    Ledger s ⟨session, w.busy, w.history ++ os⟩ custodies := by
  refine h.quiet hsame.settings (by simp [hsame.arena]) (fun o ho => ?_) (fun o ho key hkey => ?_)
    fun o ho key hkey => ?_
  · exact (Occurrence.silent (hsilent o ho)).1
  · exact absurd hkey ((Occurrence.silent (hsilent o ho)).2.1 key)
  · rw [(Occurrence.silent (hsilent o ho)).2.2] at hkey
    cases hkey

theorem Ledger.still (h : Ledger s w custodies) {session : Session F}
    (hsame : w.session.SameKeys session) : Ledger s { w with session } custodies := by
  have hsilent : Ledger s ⟨session, w.busy, w.history ++ []⟩ custodies := h.silent hsame (by simp)
  rwa [List.append_nil] at hsilent

/-- Something that a party does. No key may get lost that was live, that the party had in its batch
or that it receives. -/
theorem Ledger.party (h : Ledger s w custodies) {session : Session F} {o : Occurrence F}
    (ho : o.party? = some p) (hsettings : session.settings = w.session.settings)
    (hentrusted : Entrusted s (w.history ++ [o]) p engagement c)
    (hlive : ∀ key, w.session.arena.contains key = true ∨ o.Receives key →
      session.arena.contains key = true ∨ key ∈ c.batch.pending)
    (hpending : ∀ key ∈ (custodies p).batch.pending, session.arena.contains key = true ∨
      key ∈ c.batch.pending ∨ Dropped s (w.history ++ [o]) key)
    (hhanded : ∀ key ∈ o.handed, Received w.history key) :
    Ledger s ⟨session, Function.update w.busy p engagement, w.history ++ [o]⟩
      (Function.update custodies p c) where
  settings := hsettings.trans h.settings
  parties q := by
    by_cases hq : q = p
    · subst hq
      simpa using hentrusted
    · dsimp only
      rw [Function.update_of_ne hq, Function.update_of_ne hq]
      refine (h.parties q).others fun o' ho' heq => hq ?_
      rw [List.mem_singleton.mp ho', ho] at heq
      exact (Option.some.inj heq).symm
  accounted key hkey := by
    have hmine : key ∈ c.batch.pending →
        ∃ q, key ∈ (Function.update custodies p c q).batch.pending := fun hkey =>
      ⟨p, by simpa using hkey⟩
    by_cases hnew : o.Receives key
    · rcases hlive key (.inr hnew) with hlives | hpending
      · exact .inl hlives
      · exact .inr (.inl (hmine hpending))
    · have hold : Received w.history key := by
        refine (received_append.mp hkey).resolve_right ?_
        rintro ⟨o', ho', hreceives⟩
        rw [List.mem_singleton.mp ho'] at hreceives
        exact hnew hreceives
      rcases h.accounted key hold with hlives | ⟨q, hq⟩ | hdropped
      · rcases hlive key (.inl hlives) with hlives | hpending
        · exact .inl hlives
        · exact .inr (.inl (hmine hpending))
      · by_cases hqp : q = p
        · subst hqp
          rcases hpending key hq with hlives | hstill | hdropped
          · exact .inl hlives
          · exact .inr (.inl (hmine hstill))
          · exact .inr (.inr hdropped)
        · exact .inr (.inl ⟨q, by rwa [Function.update_of_ne hqp]⟩)
      · refine .inr (.inr (hdropped.append fun o' ho' => ?_))
        rwa [List.mem_singleton.mp ho']
  handed o' ho' key hkey := by
    rcases List.mem_append.mp ho' with ho' | ho'
    · exact received_append.mpr (.inl (h.handed o' ho' key hkey))
    · rw [List.mem_singleton.mp ho'] at hkey
      exact received_append.mpr (.inl (hhanded key hkey))

end Ledger

/-! ## Requests -/

/-- Whether a request changes what a party is entrusted with. -/
def Request.isPassing : Request F → Bool
  | .record _ | .drain | .restore _ | .submit _ | .collect => false
  | _ => true

section Requests

variable {s : Settings} {w : Scene F} {custodies : Party → Custody} {p : Party}
  {service : Service F} {session : Session F}

/-- A request that keys have nothing to do with. -/
theorem Ledger.passing (h : Ledger s w custodies) {request : Request F}
    (hpassing : request.isPassing = true) (reply : request.Reply)
    (hsame : w.session.SameKeys session) {engagement : Option (Engagement F)}
    (hkeeps : KeepsCustody s (custodies p) engagement) :
    Ledger s ⟨session, Function.update w.busy p engagement,
        w.history ++ [.asked p request reply]⟩
      (Function.update custodies p (custodies p)) := by
  refine h.party rfl hsame.settings ((h.parties p).append (by simp) ?_ hkeeps) (fun key hkey => ?_)
    (fun key hkey => .inr (.inl hkey)) (by simp [Occurrence.handed])
  · cases request with
    | record | drain | restore | submit | collect => cases hpassing
    | _ => simp [Occurrence.isExchange]
  · rw [hsame.arena]
    refine .inl (hkey.resolve_right fun hreceives => ?_)
    cases request with
    | record => cases hpassing
    | _ => exact hreceives

theorem Ledger.recorded (h : Ledger s w custodies) (key : String)
    {engagement : Option (Engagement F)} (hkeeps : KeepsCustody s
      { custodies p with received := key :: (custodies p).received } engagement) :
    Ledger s ⟨{ w.session with arena := w.session.arena.record key },
        Function.update w.busy p engagement, w.history ++ [.asked p (.record key) ()]⟩
      (Function.update custodies p
        { custodies p with received := key :: (custodies p).received }) := by
  have hparty : Entrusted s (w.history ++ [.asked p (.record key) ()]) p (w.busy p) (custodies p) :=
    (h.parties p).append (by simp) (by simp [Occurrence.isExchange]) (h.parties p).keeps
  refine h.party rfl rfl ⟨hkeeps, fun other hother => ?_, hparty.drained, hparty.submitted⟩
    (fun other hother => .inl ?_) (fun other hother => .inr (.inl hother))
    (by simp [Occurrence.handed])
  · rcases List.mem_cons.mp hother with rfl | hother
    · exact received_append.mpr (.inr ⟨_, List.mem_singleton_self _, rfl⟩)
    · exact hparty.received other hother
  · refine Arena.contains_record.mpr ?_
    rcases hother with hother | hother
    · exact .inr hother
    · exact .inl hother

/-- Every key that was live is in the batch now. -/
theorem Ledger.drained (h : Ledger s w custodies) (hbatch : (custodies p).batch = .none)
    {engagement : Option (Engagement F)} (hkeeps : KeepsCustody s
      { custodies p with batch := .drained w.session.arena.drain.1 } engagement) :
    Ledger s ⟨{ w.session with arena := w.session.arena.drain.2 },
        Function.update w.busy p engagement,
        w.history ++ [.asked p .drain w.session.arena.drain.1]⟩
      (Function.update custodies p
        { custodies p with batch := .drained w.session.arena.drain.1 }) := by
  have hparty : Entrusted s (w.history ++ [.asked p .drain w.session.arena.drain.1]) p (w.busy p)
      (custodies p) :=
    (h.parties p).append (by simp) (by simp [Occurrence.isExchange]) (h.parties p).keeps
  refine h.party rfl rfl ⟨hkeeps, hparty.received, ?_, nofun⟩ (fun key hkey => .inr ?_)
    (by simp [hbatch, Batch.pending]) (by simp [Occurrence.handed])
  · intro keys hkeys
    rcases hkeys with hkeys | hkeys
    · injection hkeys with hkeys
      subst hkeys
      exact ⟨w.history, [], rfl, by simp⟩
    · cases hkeys
  · exact Arena.mem_drain.mpr (hkey.resolve_right fun hreceives => hreceives)

theorem Ledger.restored (h : Ledger s w custodies) {keys : List String}
    (hbatch : (custodies p).batch = .drained keys) {engagement : Option (Engagement F)}
    (hkeeps : KeepsCustody s { custodies p with batch := .none } engagement) :
    Ledger s ⟨{ w.session with arena := w.session.arena.restore keys },
        Function.update w.busy p engagement, w.history ++ [.asked p (.restore keys) ()]⟩
      (Function.update custodies p { custodies p with batch := .none }) := by
  have hparty : Entrusted s (w.history ++ [.asked p (.restore keys) ()]) p (w.busy p)
      (custodies p) :=
    (h.parties p).append (by simp) (by simp [Occurrence.isExchange]) (h.parties p).keeps
  refine h.party rfl rfl ⟨hkeeps, hparty.received, by simp, nofun⟩ (fun key hkey => .inl ?_)
    (fun key hkey => .inl ?_) (by simp [Occurrence.handed])
  · exact Arena.contains_restore.mpr (.inr (hkey.resolve_right fun hreceives => hreceives))
  · rw [hbatch] at hkey
    exact Arena.contains_restore.mpr (.inl hkey)

theorem Ledger.handedOver (h : Ledger s w custodies) {program : String}
    (hprogram : (custodies p).batch.MaySubmit s program)
    (hsame : w.session.SameKeys session) {engagement : Option (Engagement F)}
    (hkeeps : KeepsCustody s
      { custodies p with batch := (custodies p).batch.submitted } engagement) :
    Ledger s ⟨session, Function.update w.busy p engagement,
        w.history ++ [.asked p (.submit program) ()]⟩
      (Function.update custodies p
        { custodies p with batch := (custodies p).batch.submitted }) := by
  refine h.party rfl hsame.settings ⟨hkeeps, fun key hkey => ?_, fun keys hkeys => ?_,
    fun keys hkeys => ?_⟩ (fun key hkey => .inl ?_) (fun key hkey => .inr (.inl ?_))
    (by simp [Occurrence.handed])
  · exact received_append.mpr (.inl ((h.parties p).received key hkey))
  · obtain ⟨hbatch, -⟩ := Batch.of_submitted hprogram hkeys
    exact ((h.parties p).drained keys (.inl hbatch)).append (by simp)
  · obtain ⟨-, rfl⟩ := Batch.of_submitted hprogram (.inr hkeys)
    exact ⟨w.history, [], rfl, by simp⟩
  · rw [hsame.arena]
    exact hkey.resolve_right fun hreceives => hreceives
  · rwa [Batch.pending_submitted]

/-- If the host tells that it has dropped them, that is where the keys of the batch are. -/
theorem Ledger.collected (h : Ledger s w custodies) (answer : Except TransportFault Json)
    (hsame : w.session.SameKeys session) {engagement : Option (Engagement F)}
    (hkeeps : KeepsCustody s
      { custodies p with batch := (custodies p).batch.answered answer } engagement) :
    Ledger s ⟨session, Function.update w.busy p engagement, w.history ++ [.asked p .collect answer]⟩
      (Function.update custodies p
        { custodies p with batch := (custodies p).batch.answered answer }) := by
  refine h.party rfl hsame.settings ⟨hkeeps, fun key hkey => ?_, fun keys hkeys => ?_,
    fun keys hkeys => ?_⟩ (fun key hkey => .inl ?_) (fun key hkey => .inr ?_)
    (by simp [Occurrence.handed])
  · exact received_append.mpr (.inl ((h.parties p).received key hkey))
  · exact ((h.parties p).drained keys (Batch.of_answered hkeys)).append (by simp)
  · exact absurd hkeys (Batch.answered_ne_sent _ answer keys)
  · rw [hsame.arena]
    exact hkey.resolve_right fun hreceives => hreceives
  · rcases Batch.pending_answered hkey answer with hstill | ⟨keys, reply, hbatch, rfl, htells⟩
    · exact .inl hstill
    · rw [hbatch] at hkey
      exact .inr ⟨w.history, p, reply, [], keys, rfl, (h.parties p).submitted keys hbatch, htells,
        hkey, by simp⟩

end Requests

/-! ## Moves -/

namespace Scene

variable {s : Settings} {w : Scene F} {custodies : Party → Custody}

theorem ledger_go (h : Ledger s w custodies) (p : Party) :
    ∃ custodies', Ledger s (w.go p) custodies' := by
  have hkeeps := (h.parties p).keeps
  unfold go
  split
  · exact ⟨custodies, h⟩
  · rename_i service result hbusy
    rw [hbusy] at hkeeps
    obtain ⟨⟨hpending, hkeys⟩, -⟩ := hkeeps
    refine ⟨_, h.party rfl rfl (.idle ..) (fun key hkey => ?_) (by simp [hpending]) ?_⟩
    · exact .inl (hkey.resolve_right fun hreceives => hreceives)
    · exact fun key hkey => (h.parties p).received key (hkeys key hkey)
  · rename_i service request next hbusy
    rw [hbusy] at hkeeps
    obtain ⟨⟨hallowed, hnext⟩, hrelease⟩ := hkeeps
    have hafter : ∀ reply, KeepsCustody s
        ((custody s service.isRelease).after (custodies p) request reply)
        (some ⟨service, next reply⟩) := fun reply =>
      ⟨hnext reply trivial, custody_batch hallowed hrelease reply⟩
    have hsame : request.isAboutKeys = false →
        w.session.SameKeys (w.session.answer p request).2 := w.session.sameKeys_answer p request
    split
    · rename_i session hanswer
      rw [hanswer] at hsame
      refine ⟨custodies, h.still ?_⟩
      cases request with
      | record | drain | restore => cases hanswer
      | _ => exact hsame rfl
    · rename_i reply session hanswer
      rw [hanswer] at hsame
      cases request with
      | record key =>
        cases hanswer
        exact ⟨_, h.recorded key (hafter ())⟩
      | drain =>
        cases hanswer
        exact ⟨_, h.drained hallowed.2 (hafter _)⟩
      | restore keys =>
        cases hanswer
        exact ⟨_, h.restored hallowed (hafter ())⟩
      | submit program => exact ⟨_, h.handedOver hallowed (hsame rfl) (hafter reply)⟩
      | collect => exact ⟨_, h.collected reply (hsame rfl) (hafter reply)⟩
      | _ => exact ⟨_, h.passing rfl reply (hsame rfl) (hafter reply)⟩

/-- An operation that looks may receive a key, which is then live. -/
theorem ledger_look (h : Ledger s w custodies) (behave : Behaviour F) (id : OperationId)
    (op : CallbackOperation F) (slot : Nat) : Ledger s (w.look behave id op slot) custodies := by
  unfold look
  split
  · rename_i listener hstage hget
    split
    · split
      · exact h
      · exact h.still ⟨rfl, rfl⟩
      · rename_i payload hseen
        obtain ⟨hsettings, harena⟩ :=
          w.session.spend.deliver_keys behave id op listener payload
        unfold takingDeeds
        cases haccepts : listener.slot.accepts? payload with
        | none =>
          rw [haccepts] at harena
          exact h.silent ⟨hsettings, harena⟩ (by simp [Occurrence.isSilent])
        | some outcome =>
          rw [haccepts] at harena
          cases outcome with
          | value | absent =>
            refine h.quiet hsettings (fun key hkey => ?_) (by simp [Occurrence.party?])
              (by simp [Occurrence.Receives]) (by simp [Occurrence.handed, Outcome.key?])
            rwa [harena]
          | handle received =>
            refine h.quiet hsettings (fun key hkey => ?_) (by simp [Occurrence.party?])
              (fun o ho key hkey => ?_) (by simp [Occurrence.handed, Outcome.key?,
                Occurrence.Receives])
            · rw [harena]
              exact Arena.contains_record.mpr (.inr hkey)
            · rw [harena]
              refine Arena.contains_record.mpr (.inl ?_)
              rcases List.mem_cons.mp ho with rfl | ho
              · cases hkey
              · rw [List.mem_singleton.mp ho] at hkey
                exact hkey
    · exact h
  · exact h

/-- What is told when an operation closes its endpoints and ends. -/
theorem isSilent_closing (endpoints : List EndpointId) (id : OperationId)
    (report : OperationReport) : ∀ o ∈ endpoints.map .closed ++ [.operation id (.ended report)],
      (o : Occurrence F).isSilent = true := by
  intro o ho
  rcases List.mem_append.mp ho with ho | ho
  · obtain ⟨e, -, rfl⟩ := List.mem_map.mp ho
    rfl
  · rw [List.mem_singleton.mp ho]
    rfl

/-- What is told when the function that an operation called has come to its end. -/
theorem isSilent_concluding (id : OperationId) (op : CallbackOperation F) (call : Calling F)
    (verdict : Verdict) : ∀ o ∈ [.operation id (.returned verdict)] ++
      conclusion id op call.cardinality verdict, (o : Occurrence F).isSilent = true := by
  intro o ho
  rcases List.mem_append.mp ho with ho | ho
  · rw [List.mem_singleton.mp ho]
    rfl
  · unfold conclusion at ho
    split at ho
    · rw [List.mem_singleton.mp ho]
      rfl
    · split at ho
      · cases ho
      · exact isSilent_closing _ _ _ o ho

theorem ledger_stop (h : Ledger s w custodies) (id : OperationId) (op : CallbackOperation F) :
    Ledger s (w.stop id op) custodies := by
  unfold stop
  split
  · split
    · rw [List.append_assoc]
      have hclosed := Session.sameKeys_foldl Session.sameKeys_closeEndpoint op.endpoints w.session
      exact h.silent (hclosed.trans (Session.sameKeys_finish ..)) fun o ho =>
        isSilent_closing _ _ _ o ho
    · exact h
  · exact h

theorem ledger_exhaust (h : Ledger s w custodies) (id : OperationId) (op : CallbackOperation F) :
    Ledger s (w.exhaust id op) custodies := by
  unfold exhaust
  split
  · split
    · exact h.silent (Session.sameKeys_finish ..) (by simp [Occurrence.isSilent])
    · exact h
  · exact h

theorem ledger_conclude (h : Ledger s w custodies) (id : OperationId) (op : CallbackOperation F)
    (verdict : Verdict) : Ledger s (w.conclude id op verdict) custodies := by
  unfold conclude
  split
  · rename_i call hstage
    split
    · rw [List.append_assoc]
      exact h.silent (Session.sameKeys_conclude ..) (isSilent_concluding id op call verdict)
    · exact h
  · exact h

theorem ledger_act (h : Ledger s w custodies) (behave : Behaviour F) (move : Move F)
    (hkept : ∀ p, .abandoned p ∉ (w.act behave move).history) :
    ∃ custodies', Ledger s (w.act behave move) custodies' := by
  have turn : ∀ (id : OperationId) (f : CallbackOperation F → Scene F),
      (∀ op, Ledger s (f op) custodies) →
      ∃ custodies', Ledger s (w.withOperation id f) custodies' := by
    intro id f hf
    exact ⟨custodies, withOperation_cases (P := (Ledger s · custodies)) h fun op _ => hf op⟩
  cases move with
  | begin p service =>
    simp only [act, begin]
    split
    · rename_i hfree
      have hkeeps := (h.parties p).keeps
      rw [busy_of_isFree hfree] at hkeeps
      have hbatch : (custodies p).batch = .none := hkeeps
      have hjob : (custody s service.isRelease).Obeys service.Accounts {}
          (service.job w.session.settings).run := by
        rw [h.settings]
        exact service_accounts s service
      refine ⟨_, h.party rfl rfl ⟨⟨hjob, .inl rfl⟩, by simp, by simp, by simp⟩ (fun key hkey => ?_)
        (by simp [hbatch, Batch.pending]) (by simp [Occurrence.handed])⟩
      exact .inl (hkey.resolve_right fun hreceives => hreceives)
    · exact ⟨custodies, h⟩
  | go p => exact ledger_go h p
  | abandon p =>
    simp only [act, abandon] at hkept ⊢
    split
    · rename_i hbusy
      rw [if_pos hbusy] at hkept
      exact absurd (by simp) (hkept p)
    · exact ⟨custodies, h⟩
  | addLineage label parent => exact ⟨custodies, h.still ⟨rfl, rfl⟩⟩
  | host host => exact ⟨custodies, h.still ⟨rfl, rfl⟩⟩
  | fire token payload =>
    have hsame := Session.sameKeys_of_holdings (Callbacks.holdings_fire w.session token payload)
    refine ⟨custodies, h.silent hsame ?_⟩
    split <;> simp [Occurrence.isSilent]
  | hangUp token =>
    exact ⟨custodies, h.still (Session.sameKeys_of_holdings
      (Callbacks.holdings_hangUp w.session token))⟩
  | reclaim expired =>
    obtain ⟨operations, hholdings, -⟩ := Callbacks.holdings_reclaim w.session expired
    exact ⟨custodies, h.still (Session.sameKeys_of_holdings hholdings)⟩
  | look id slot => exact turn id _ fun op => ledger_look h behave id op slot
  | stop id => exact turn id _ fun op => ledger_stop h id op
  | exhaust id => exact turn id _ fun op => ledger_exhaust h id op
  | conclude id verdict => exact turn id _ fun op => ledger_conclude h id op verdict

theorem ledger_start (settings : Settings) (host : Host) :
    Ledger settings (start settings host : Scene F) fun _ => {} where
  settings := rfl
  parties p := .idle settings [] p
  accounted key hkey := by
    obtain ⟨o, ho, -⟩ := hkey
    cases ho
  handed o ho := nomatch ho

/-- Nobody has to be abandoned for the ledger to be kept until the end. -/
theorem ledger_run (behave : Behaviour F) (settings : Settings) (host : Host)
    (moves : List (Move F))
    (hkept : ∀ p, .abandoned p ∉ ((start settings host).run behave moves).history) :
    ∃ custodies, Ledger settings ((start settings host).run behave moves) custodies := by
  refine run_induction (P := fun w => (∀ p, .abandoned p ∉ w.history) →
    ∃ custodies, Ledger settings w custodies) ?_ ?_ moves hkept
  · exact fun _ => ⟨_, ledger_start settings host⟩
  · intro w move ih hkept
    obtain ⟨later, hlater⟩ := history_act behave w move
    obtain ⟨custodies, hledger⟩ := ih fun p hmem => hkept p (by
      rw [← hlater]
      exact List.mem_append_left _ hmem)
    exact ledger_act hledger behave move hkept

/-- A release that has not ended has a key in its batch. -/
def IsReleasing (w : Scene F) (p : Party) (key : String) : Prop :=
  (∃ lineage rest, w.busy p = some ⟨.release lineage, rest⟩) ∧
    ∃ keys, Drained w.history p keys ∧ key ∈ keys

theorem releasing_of_pending (h : Ledger s w custodies) {p : Party} {key : String}
    (hkey : key ∈ (custodies p).batch.pending) : IsReleasing w p key := by
  have hkeeps := (h.parties p).keeps
  have hdrained := (h.parties p).drained
  have hbatch : (custodies p).batch ≠ .none := fun hnone => by
    rw [hnone] at hkey
    cases hkey
  refine ⟨?_, (custodies p).batch.pending, hdrained _ ?_, hkey⟩
  · cases hbusy : w.busy p with
    | none =>
      rw [hbusy] at hkeeps
      exact absurd hkeeps hbatch
    | some engagement =>
      obtain ⟨service, rest⟩ := engagement
      rw [hbusy] at hkeeps
      have hrelease := hkeeps.2.resolve_left hbatch
      cases service with
      | release lineage => exact ⟨lineage, rest, rfl⟩
      | _ => cases hrelease
  · cases hcase : (custodies p).batch with
    | drained keys => exact .inl rfl
    | sent keys => exact .inr rfl
    | none | dropped =>
      rw [hcase] at hkey
      cases hkey

/-- No handle is lost: where nobody was abandoned, every key that was handed to a caller is live, or
in the batch of a release that has not ended, or the host has dropped it since it was last
received. -/
theorem no_handle_lost (behave : Behaviour F) (settings : Settings) (host : Host)
    (moves : List (Move F))
    (hkept : ∀ p, .abandoned p ∉ ((start settings host).run behave moves).history)
    {key : String} (hhanded : ∃ o ∈ ((start settings host).run behave moves).history,
      key ∈ o.handed) :
    ((start settings host).run behave moves).session.arena.contains key = true ∨
      (∃ p, IsReleasing ((start settings host).run behave moves) p key) ∨
      Dropped settings ((start settings host).run behave moves).history key := by
  obtain ⟨custodies, hledger⟩ := ledger_run behave settings host moves hkept
  obtain ⟨o, ho, hkey⟩ := hhanded
  rcases hledger.accounted key (hledger.handed o ho key hkey) with hlive | ⟨p, hpending⟩ | hdropped
  · exact .inl hlive
  · exact .inr (.inl ⟨p, releasing_of_pending hledger hpending⟩)
  · exact .inr (.inr hdropped)

def givingHost : Host :=
  .replaying { replies := [.json (Envelope.handle "view").toJson], tokens := [] }

/-- A handle is given, and somebody else drains it for a release. -/
def givenAndDrained : List (Move Unit) :=
  .begin .foreground (.evaluate "view()" .handle 0) :: List.replicate 6 (.go .foreground) ++
    [.begin (.task 0) (.release 0), .go (.task 0)]

/-- A handle that is not live while it is being released is not lost. -/
theorem drained_not_lost :
    ((start {} givingHost).run returning givenAndDrained).session.arena.contains "view" = false ∧
    (((start {} givingHost).run returning givenAndDrained).session.arena.contains "view" = true ∨
      (∃ p, IsReleasing ((start {} givingHost).run returning givenAndDrained) p "view") ∨
      Dropped {} ((start {} givingHost).run returning givenAndDrained).history "view") := by
  have hdrained : ((start {} givingHost).run returning
      givenAndDrained).session.arena.contains "view" = false := by decide +kernel
  have hhanded : ((start {} givingHost).run returning givenAndDrained).history.any
      (fun o => o.handed.contains "view") = true := by decide +kernel
  have hkept : ((start {} givingHost).run returning givenAndDrained).history.all
      (fun o => !o.isAbandonment) = true := by decide +kernel
  refine ⟨hdrained, no_handle_lost returning {} givingHost givenAndDrained (fun p hmem => ?_) ?_⟩
  · cases List.all_eq_true.mp hkept _ hmem
  · simpa using hhanded

end Scene

end RemoteHost
