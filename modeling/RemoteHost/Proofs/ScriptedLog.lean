import RemoteHost.Proofs.NumberedEndpoints
import RemoteHost.Script.Perform

/-!
# The log of a scripted host

A rehearsal is all that is done with one scripted host: programs are executed, endpoints are opened,
looked at, closed or dropped, and somebody sends to tokens of any kind. The host's log, the tokens
that it calls open and what its endpoints find agree with what was done, in whatever order.
-/

namespace RemoteHost

variable {F : Type}

/-! ## Rehearsals -/

inductive RehearsalMove where
  | push (envelope : Envelope)
  | respond (responder : String → Envelope)
  | execute (p : Party) (program : String)
  | openEndpoint (p : Party)
  | fire (token : String) (payload : Envelope)
  /-- The owner of an endpoint looks for the next payload. -/
  | receive (endpoint : EndpointId)
  | close (endpoint : EndpointId)
  | drop (endpoint : EndpointId)

/-- What was done, and what came of it. -/
inductive RehearsalDeed where
  | pushed (envelope : Envelope)
  | taught (responder : String → Envelope)
  | executed (program : String) (reply : Option (Except TransportFault Json))
  | opened (endpoint : EndpointId) (token : String)
  | fired (token : String) (payload : Json) (received : Bool)
  | found (endpoint : EndpointId) (payload : Json)
  /-- An endpoint was closed or dropped. -/
  | letGo (endpoint : EndpointId)

/-- A session with a scripted host, and what was done in it. -/
structure Rehearsal (F : Type) where
  session : Session F
  deeds : List RehearsalDeed := []

namespace Session

/-- Changes what a scripted host has been told. -/
def script (s : Session F) (f : ScriptedHost → ScriptedHost) : Session F :=
  match s.host with
  | .scripted host => { s with host := .scripted (f host) }
  | _ => s

/-- Hands a program over and asks for the reply at once. -/
def execute (s : Session F) (p : Party) (program : String) :
    Option (Except TransportFault Json) × Session F :=
  (s.answer p (.submit program)).2.answer p .collect

end Session

namespace Rehearsal

def did (w : Rehearsal F) (session : Session F) (deed : RehearsalDeed) : Rehearsal F :=
  ⟨session, w.deeds ++ [deed]⟩

/-- Only an endpoint that was opened can be looked at or let go. -/
def act (w : Rehearsal F) : RehearsalMove → Rehearsal F
  | .push envelope => w.did (w.session.script (·.push envelope)) (.pushed envelope)
  | .respond responder =>
    w.did (w.session.script ({ · with responder := some responder })) (.taught responder)
  | .execute p program =>
    let (reply, session) := w.session.execute p program
    w.did session (.executed program reply)
  | .openEndpoint p =>
    match w.session.openEndpoint p with
    | (.ok opened, session) => w.did session (.opened opened.endpoint opened.token)
    | (.error _, session) => { w with session }
  | .fire token payload =>
    let (received, session) := w.session.fire token payload.toJson
    w.did session (.fired token payload.toJson received)
  | .receive e =>
    match w.session.board.sighting e with
    | .payload payload =>
      w.did { w.session with board := w.session.board.take e } (.found e payload)
    | _ => w
  | .close e =>
    if e < w.session.board.length then w.did (w.session.closeEndpoint e) (.letGo e) else w
  | .drop e => if e < w.session.board.length then w.did (w.session.dropEndpoint e) (.letGo e) else w

def run (w : Rehearsal F) (moves : List RehearsalMove) : Rehearsal F := moves.foldl act w

def start (settings : Settings) : Rehearsal F where
  session := { settings, host := .scripted {} }

end Rehearsal

/-! ## What was done -/

namespace RehearsalDeed

@[simp] def tokensIn : RehearsalDeed → List String
  | .opened _ token => [token]
  | _ => []

@[simp] def sentUnder (token : String) : RehearsalDeed → List Json
  | .fired target payload true => if target = token then [payload] else []
  | _ => []

@[simp] def foundAt (e : EndpointId) : RehearsalDeed → List Json
  | .found endpoint payload => if endpoint = e then [payload] else []
  | _ => []

@[simp] def letsGo (e : EndpointId) : RehearsalDeed → Bool
  | .letGo endpoint => endpoint == e
  | _ => false

/-- The tokens of the endpoints that were opened. -/
def tokens (deeds : List RehearsalDeed) : List String := deeds.flatMap tokensIn

/-- The payloads that were received under a token. -/
def sent (deeds : List RehearsalDeed) (token : String) : List Json :=
  deeds.flatMap (sentUnder token)

/-- The payloads that the owner of an endpoint found. -/
def finds (deeds : List RehearsalDeed) (e : EndpointId) : List Json := deeds.flatMap (foundAt e)

def isLetGo (deeds : List RehearsalDeed) (e : EndpointId) : Bool := deeds.any (letsGo e)

/-- The envelopes that were pushed and have not answered a program: each program uses up the one
that has waited longest. -/
def waiting (deeds : List RehearsalDeed) : List Envelope :=
  deeds.foldl (fun queue deed => match deed with
    | .pushed envelope => queue ++ [envelope]
    | .executed _ _ => queue.tail
    | _ => queue) []

/-- The responder that the host was given last. -/
def responder? (deeds : List RehearsalDeed) : Option (String → Envelope) :=
  deeds.foldl (fun last deed => match deed with
    | .taught responder => some responder
    | _ => last) none

/-- What a program is answered after some deeds. -/
def replyAfter (deeds : List RehearsalDeed) (program : String) : Except TransportFault Json :=
  match waiting deeds with
  | envelope :: _ => .ok envelope.toJson
  | [] =>
    match responder? deeds with
    | some respond => .ok (respond program).toJson
    | none => .error (.host "scripted host has no response for this program")

variable (deeds : List RehearsalDeed) (deed : RehearsalDeed)

@[simp] theorem tokens_snoc : tokens (deeds ++ [deed]) = tokens deeds ++ deed.tokensIn := by
  simp [tokens]

@[simp] theorem sent_snoc (token : String) :
    sent (deeds ++ [deed]) token = sent deeds token ++ deed.sentUnder token := by
  simp [sent]

@[simp] theorem finds_snoc (e : EndpointId) :
    finds (deeds ++ [deed]) e = finds deeds e ++ deed.foundAt e := by
  simp [finds]

@[simp] theorem isLetGo_snoc (e : EndpointId) :
    isLetGo (deeds ++ [deed]) e = (isLetGo deeds e || deed.letsGo e) := by
  simp [isLetGo]

/-- Whether a deed has nothing to do with endpoints. -/
def isQuiet : RehearsalDeed → Bool
  | .pushed _ | .taught _ | .executed _ _ | .fired _ _ false => true
  | _ => false

end RehearsalDeed

/-- The token of an endpoint that an event is about. -/
def HostEvent.token? : HostEvent → Option String
  | .opened token | .fired token | .closed token => some token
  | .executed _ | .sent _ => none

/-- What a log says about a token. -/
def saga (events : List HostEvent) (token : String) : List HostEvent :=
  events.filter (·.token? = some token)

@[simp] theorem saga_append (events more : List HostEvent) (token : String) :
    saga (events ++ more) token = saga events token ++ saga more token :=
  List.filter_append ..

theorem saga_singleton {event : HostEvent} {target token : String}
    (h : event.token? = some target) :
    saga [event] token = if target = token then [event] else [] := by
  simp [saga, List.filter_cons, h]

/-! ## Replies -/

/-- Every program was answered as the deeds before it say. -/
def Replied (deeds : List RehearsalDeed) : Prop :=
  ∀ before program reply after, deeds = before ++ .executed program reply :: after →
    reply = some (RehearsalDeed.replyAfter before program)

theorem Replied.snoc {deeds : List RehearsalDeed} {deed : RehearsalDeed} (h : Replied deeds)
    (hdeed : ∀ program reply, deed = .executed program reply →
      reply = some (RehearsalDeed.replyAfter deeds program)) : Replied (deeds ++ [deed]) := by
  intro before program reply after heq
  rcases List.eq_nil_or_concat after with rfl | ⟨earlier, last, rfl⟩
  · obtain ⟨rfl, hlast⟩ := List.append_inj' heq rfl
    exact hdeed program reply (List.singleton_inj.mp hlast)
  · rw [List.concat_eq_append, ← List.cons_append, ← List.append_assoc] at heq
    exact h before program reply earlier (List.append_inj' heq rfl).1

/-- The host has been told what the deeds say. -/
structure Primed (host : Host) (deeds : List RehearsalDeed) : Prop where
  host : ∃ opened, host =
    .scripted ⟨RehearsalDeed.waiting deeds, RehearsalDeed.responder? deeds, opened⟩
  replied : Replied deeds

namespace Primed

variable {s : Session F} {deeds : List RehearsalDeed}

open RehearsalDeed (waiting responder? replyAfter)

/-- Deeds at endpoints tell the host nothing. -/
theorem quiet {host : Host} (h : Primed host deeds) {deed : RehearsalDeed}
    (hqueue : waiting (deeds ++ [deed]) = waiting deeds)
    (hresponder : responder? (deeds ++ [deed]) = responder? deeds)
    (hdeed : ∀ program reply, deed ≠ .executed program reply) : Primed host (deeds ++ [deed]) where
  host := by
    rw [hqueue, hresponder]
    exact h.host
  replied := h.replied.snoc fun program reply heq => absurd heq (hdeed program reply)

theorem script (h : Primed s.host deeds) {deed : RehearsalDeed} {f : ScriptedHost → ScriptedHost}
    (hf : ∀ opened, f ⟨waiting deeds, responder? deeds, opened⟩ =
      ⟨waiting (deeds ++ [deed]), responder? (deeds ++ [deed]), opened⟩)
    (hdeed : ∀ program reply, deed ≠ .executed program reply) :
    Primed (s.script f).host (deeds ++ [deed]) where
  host := by
    obtain ⟨opened, hhost⟩ := h.host
    exact ⟨opened, by simp [Session.script, hhost, hf]⟩
  replied := h.replied.snoc fun program reply heq => absurd heq (hdeed program reply)

end Primed

namespace Session

/-- A scripted host replies at once. -/
theorem execute_eq {s : Session F} {host : ScriptedHost} (h : s.host = .scripted host) (p : Party)
    (program : String) : (s.execute p program).1 = some (host.reply program).1 ∧
      (s.execute p program).2.outlook = ⟨.scripted (host.reply program).2,
        s.journal.events ++ [.executed program]⟩ ∧
      (s.execute p program).2.callbacks = s.callbacks := by
  have hcallbacks : (s.execute p program).2.callbacks = s.callbacks :=
    (callbacks_answer _ p .collect rfl).trans (callbacks_answer s p (.submit program) rfl)
  have hsubmit : (s.answer p (.submit program)).2 = Session.note { s with
      host := .scripted (host.reply program).2
      inFlight := (p, .answered (host.reply program).1) ::
        s.inFlight.filter fun entry => entry.1 ≠ p } [.executed program] := by
    simp [answer, submit, Host.isExclusive, h, handOver, Host.submit]
  obtain ⟨t, ht⟩ : ∃ t : Session F, t = (s.answer p (.submit program)).2 := ⟨_, rfl⟩
  have hflight : (t.inFlight.find? fun entry => entry.1 = p) =
      some (p, .answered (host.reply program).1) := by simp [ht, hsubmit, note]
  have hcollect : t.answer p .collect = (some (host.reply program).1,
      Session.leaveWire { t with inFlight := t.inFlight.filter fun entry => entry.1 ≠ p } p) := by
    rw [answer, collect, hflight]
    rfl
  rw [execute, ← ht] at hcallbacks ⊢
  refine ⟨by rw [hcollect], ?_, hcallbacks⟩
  rw [hcollect, outlook_leaveWire]
  change t.outlook = _
  rw [ht, hsubmit]
  rfl

end Session

/-! ## Endpoints -/

open RehearsalDeed

/-- The token of an endpoint of a scripted host. -/
def memory (e : EndpointId) : String := numbered "mem-" e

@[simp] theorem memory_inj {e i : EndpointId} : memory e = memory i ↔ e = i := numbered_inj

theorem nodup_memory (n : Nat) : ((List.range n).map memory).Nodup :=
  List.Pairwise.map memory (fun _ _ hne heq => hne (memory_inj.mp heq)) List.nodup_range

/-- What the log says about the token of an endpoint under which so much was received. -/
def tale (token : String) (received : Nat) (letGo : Bool) : List HostEvent :=
  .opened token :: (List.replicate received (.fired token) ++ if letGo then [.closed token] else [])

/-- Board and log are what was done at endpoints. -/
structure Tended (s : Session F) (deeds : List RehearsalDeed) : Prop where
  counts : s.Counts "mem-"
  opened : ∀ e token, .opened e token ∈ deeds ↔ e < s.board.length ∧ token = memory e
  tokens : tokens deeds = (List.range s.board.length).map memory
  isOpen : ∀ e < s.board.length, s.board.isOpen e = !isLetGo deeds e
  fresh : ∀ e, s.board.length ≤ e → sent deeds (memory e) = [] ∧ isLetGo deeds e = false
  queued : ∀ e, sent deeds (memory e) = finds deeds e ++ Board.inbox s.board e
  told : ∀ e < s.board.length, saga s.journal.events (memory e) =
    tale (memory e) (sent deeds (memory e)).length (isLetGo deeds e)
  untold : ∀ token ∉ RehearsalDeed.tokens deeds, saga s.journal.events token = []

namespace Tended

variable {s s' : Session F} {deeds : List RehearsalDeed} {deed : RehearsalDeed}

theorem start (settings : Settings) :
    Tended ({ settings, host := .scripted {} } : Session F) [] where
  counts := .start rfl
  opened := by simp
  tokens := rfl
  isOpen e he := absurd he (Nat.not_lt_zero e)
  fresh _ _ := ⟨rfl, rfl⟩
  queued _ := rfl
  told e he := absurd he (Nat.not_lt_zero e)
  untold _ _ := rfl

theorem mem_opened (h : Tended s deeds) {token : String} :
    token ∈ RehearsalDeed.tokens deeds ↔ ∃ e < s.board.length, token = memory e := by
  simp [h.tokens, eq_comm]

/-- What is new in the log and in the deeds has to do with no endpoint. -/
theorem quiet (h : Tended s deeds) (hdeed : deed.isQuiet = true) (hboard : s'.board = s.board)
    (hcounting : s'.host.counting? = s.host.counting?)
    (hevents : ∀ token, saga s'.journal.events token = saga s.journal.events token) :
    Tended s' (deeds ++ [deed]) := by
  obtain ⟨htokens, hsent, hfinds, hletGo, hopened⟩ :
      RehearsalDeed.tokens (deeds ++ [deed]) = RehearsalDeed.tokens deeds ∧
        sent (deeds ++ [deed]) = sent deeds ∧ finds (deeds ++ [deed]) = finds deeds ∧
        isLetGo (deeds ++ [deed]) = isLetGo deeds ∧
        ∀ e token, .opened e token ∈ deeds ++ [deed] ↔ .opened e token ∈ deeds := by
    cases deed with
    | pushed | taught | executed => simp [funext_iff]
    | fired target payload received =>
      cases received with
      | false => simp [funext_iff]
      | true => cases hdeed
    | opened | found | letGo => cases hdeed
  exact
    { counts := ⟨by rw [hcounting, hboard]; exact h.counts.host, hboard ▸ h.counts.board⟩
      opened := fun e token => by rw [hopened, hboard, h.opened]
      tokens := by rw [htokens, hboard, h.tokens]
      isOpen := by rw [hletGo, hboard]; exact h.isOpen
      fresh := by rw [hsent, hletGo, hboard]; exact h.fresh
      queued := by rw [hsent, hfinds, hboard]; exact h.queued
      told := fun e he => by
        rw [hboard] at he
        rw [hsent, hletGo, hevents, h.told e he]
      untold := fun token htoken => by
        rw [htokens] at htoken
        rw [hevents, h.untold token htoken] }

theorem openEndpoint (h : Tended s deeds)
    (hnotes : s.host.nextToken.2.notesEndpoints = true) (p : Party) :
    Tended (s.openEndpoint p).2
      (deeds ++ [.opened s.board.length (memory s.board.length)]) := by
  obtain ⟨-, hboard, houtlook⟩ := h.counts.openEndpoint_eq p
  have hevents : (s.openEndpoint p).2.journal.events =
      s.journal.events ++ [.opened (memory s.board.length)] := by
    rw [if_pos hnotes] at houtlook
    exact congrArg Outlook.events houtlook
  have hlength : (s.openEndpoint p).2.board.length = s.board.length + 1 := by
    rw [hboard, Board.length_openLine]
  have hnew : memory s.board.length ∉ RehearsalDeed.tokens deeds := fun hmem => by
    obtain ⟨e, he, htoken⟩ := h.mem_opened.mp hmem
    exact Nat.ne_of_gt he (memory_inj.mp htoken)
  obtain ⟨hsent, hletGo⟩ := h.fresh s.board.length (Nat.le_refl _)
  have hlast : ∀ e < s.board.length + 1, e ≠ s.board.length → e < s.board.length := fun e he hne =>
    Nat.lt_of_le_of_ne (Nat.le_of_lt_succ he) hne
  exact
    { counts := h.counts.openEndpoint p
      opened := fun e token => by
        rw [List.mem_append, h.opened, hlength, List.mem_singleton, RehearsalDeed.opened.injEq]
        constructor
        · rintro (⟨he, rfl⟩ | ⟨rfl, rfl⟩)
          · exact ⟨Nat.lt_succ_of_lt he, rfl⟩
          · exact ⟨Nat.lt_succ_self _, rfl⟩
        · rintro ⟨he, rfl⟩
          by_cases heq : e = s.board.length
          · exact .inr ⟨heq, heq ▸ rfl⟩
          · exact .inl ⟨hlast e he heq, rfl⟩
      tokens := by simp [hlength, h.tokens, List.range_succ]
      isOpen := fun e he => by
        rw [hlength] at he
        rw [hboard, Board.isOpen_openLine]
        by_cases heq : e = s.board.length
        · simp [heq, hletGo]
        · simp [heq, h.isOpen e (hlast e he heq)]
      fresh := fun e he => by
        rw [hlength] at he
        simpa using h.fresh e (Nat.le_of_succ_le he)
      queued := fun e => by simp [hboard, h.queued e]
      told := fun e he => by
        rw [hlength] at he
        rw [hevents, saga_append, saga_singleton rfl]
        by_cases heq : e = s.board.length
        · simp [heq, h.untold _ hnew, hsent, hletGo, tale]
        · simp [h.told e (hlast e he heq), Ne.symm heq]
      untold := fun token htoken => by
        have hother : token ∉ RehearsalDeed.tokens deeds ∧ memory s.board.length ≠ token := by
          simpa [eq_comm] using htoken
        rw [hevents, saga_append, saga_singleton rfl, if_neg hother.2, h.untold token hother.1]
        rfl }

/-- What is sent to an open endpoint arrives there, and the log says so. -/
theorem received (h : Tended s deeds) (hnotes : s.host.notesEndpoints = true) {e : EndpointId}
    (hopen : s.board.isOpen e = true) (payload : Json) :
    (s.fire (memory e) payload).1 = true ∧ Tended (s.fire (memory e) payload).2
      (deeds ++ [.fired (memory e) payload true]) := by
  have hsend := h.counts.board.send_of_isOpen hopen payload
  have hreceived : (s.fire (memory e) payload).1 = true := by
    rw [Session.fire, memory, hsend]
  have hboard : (s.fire (memory e) payload).2.board =
      s.board.modify e fun e => { e with inbox := e.inbox ++ [payload] } := by
    have hcallbacks := Session.callbacks_of_holdings
      (Callbacks.holdings_fire s (memory e) payload)
    rw [memory, hsend] at hcallbacks
    exact congrArg Callbacks.board hcallbacks
  have hevents : (s.fire (memory e) payload).2.journal.events =
      s.journal.events ++ [.fired (memory e)] := by
    have houtlook := Session.outlook_fire s (memory e) payload
    rw [hreceived, hnotes, Bool.and_self, if_pos rfl] at houtlook
    exact congrArg Outlook.events houtlook
  have hlt := Board.lt_length_of_isOpen hopen
  have hkept : isLetGo deeds e = false := by
    rw [h.isOpen e hlt] at hopen
    simpa using hopen
  refine ⟨hreceived, ?_⟩
  exact
    { counts := h.counts.fire (memory e) payload
      opened := fun i token => by simp [hboard, h.opened]
      tokens := by simp [hboard, h.tokens]
      isOpen := fun i hi => by
        rw [hboard, List.length_modify] at hi
        simp [hboard, h.isOpen i hi]
      fresh := fun i hi => by
        rw [hboard, List.length_modify] at hi
        have hother : e ≠ i := fun heq => Nat.not_lt.mpr hi (heq ▸ hlt)
        simpa [hother] using h.fresh i hi
      queued := fun i => by
        rw [hboard, Board.inbox_append hlt]
        by_cases heq : e = i
        · simp [heq, h.queued]
        · simp [heq, h.queued]
      told := fun i hi => by
        rw [hboard, List.length_modify] at hi
        rw [hevents, saga_append, saga_singleton rfl, h.told i hi]
        by_cases heq : e = i
        · subst heq
          simp [hkept, tale, List.replicate_succ']
        · simp [heq]
      untold := fun token htoken => by
        have hother : token ∉ RehearsalDeed.tokens deeds := by simpa using htoken
        have hne : memory e ≠ token := fun heq =>
          hother (h.mem_opened.mpr ⟨e, hlt, heq.symm⟩)
        rw [hevents, saga_append, saga_singleton rfl, if_neg hne, h.untold token hother]
        rfl }

theorem found (h : Tended s deeds) {e : EndpointId} {payload : Json}
    (hseen : s.board.sighting e = .payload payload) :
    Tended ({ s with board := s.board.take e } : Session F) (deeds ++ [.found e payload]) where
  counts := h.counts.take e
  opened i token := by simp [h.opened]
  tokens := by simp [h.tokens]
  isOpen i hi := by
    rw [Board.length_take] at hi
    simp [h.isOpen i hi]
  fresh i hi := by
    rw [Board.length_take] at hi
    simpa using h.fresh i hi
  queued i := by
    obtain ⟨later, hinbox⟩ := Board.sighting_eq_payload hseen
    rw [Board.inbox_take]
    by_cases heq : e = i
    · subst heq
      simp [h.queued, hinbox]
    · simp [heq, h.queued]
  told i hi := by
    rw [Board.length_take] at hi
    simp [h.told i hi]
  untold token htoken := h.untold token (by simpa using htoken)

/-- An endpoint is let go, whether it is closed or dropped. Only the first time is noted. -/
theorem letGo (h : Tended s deeds) {e : EndpointId} (he : e < s.board.length)
    (hcounts : s'.Counts "mem-") (hlength : s'.board.length = s.board.length)
    (hisOpen : ∀ i, s'.board.isOpen i = (s.board.isOpen i && e != i))
    (hinbox : ∀ i, Board.inbox s'.board i = Board.inbox s.board i)
    (hevents : s'.journal.events =
      s.journal.events ++ if s.board.isOpen e then [.closed (memory e)] else []) :
    Tended s' (deeds ++ [.letGo e]) where
  counts := hcounts
  opened i token := by simp [hlength, h.opened]
  tokens := by simp [hlength, h.tokens]
  isOpen i hi := by
    rw [hlength] at hi
    simp [hisOpen, h.isOpen i hi, bne]
  fresh i hi := by
    rw [hlength] at hi
    have hother : e ≠ i := fun heq => Nat.not_lt.mpr hi (heq ▸ he)
    simpa [hother] using h.fresh i hi
  queued i := by simp [hinbox, h.queued]
  told i hi := by
    rw [hlength] at hi
    rw [hevents, saga_append, h.told i hi, h.isOpen e he]
    by_cases heq : e = i
    · subst heq
      cases isLetGo deeds e <;> simp [tale, saga, HostEvent.token?]
    · have hbeq : (e == i) = false := beq_eq_false_iff_ne.mpr heq
      cases isLetGo deeds e <;> simp [saga, HostEvent.token?, heq, hbeq]
  untold token htoken := by
    have hother : token ∉ RehearsalDeed.tokens deeds := by simpa using htoken
    have hne : memory e ≠ token := fun heq => hother (h.mem_opened.mpr ⟨e, he, heq.symm⟩)
    rw [hevents, saga_append, h.untold token hother]
    split <;> simp [saga, HostEvent.token?, hne]

end Tended

/-! ## Every move -/

namespace Rehearsal

/-- Whatever was done, the host was told it, and board and log are what was done. -/
structure Sound (w : Rehearsal F) : Prop where
  primed : Primed w.session.host w.deeds
  tended : Tended w.session w.deeds

variable {w : Rehearsal F}

theorem sound_start (settings : Settings) : (start settings : Rehearsal F).Sound where
  primed := ⟨⟨0, rfl⟩, fun before program reply after h => by simp [start] at h⟩
  tended := .start settings

namespace Sound

theorem scripted (h : w.Sound) : ∃ host, w.session.host = .scripted host :=
  let ⟨_, hhost⟩ := h.primed.host
  ⟨_, hhost⟩

theorem notes (h : w.Sound) (wasOpen : Bool) : w.session.host.notesEndpoints = true ∧
    w.session.host.notesClosing wasOpen = wasOpen ∧
    w.session.host.notesDropping wasOpen = wasOpen := by
  obtain ⟨host, hhost⟩ := h.scripted
  rw [hhost]
  exact ⟨rfl, rfl, rfl⟩

/-- What is told to the host has to do with no endpoint. -/
theorem script (h : w.Sound) {deed : RehearsalDeed} {f : ScriptedHost → ScriptedHost}
    (hf : ∀ opened, f ⟨waiting w.deeds, responder? w.deeds, opened⟩ =
      ⟨waiting (w.deeds ++ [deed]), responder? (w.deeds ++ [deed]), opened⟩)
    (hquiet : deed.isQuiet = true) (hdeed : ∀ program reply, deed ≠ .executed program reply) :
    (w.did (w.session.script f) deed).Sound where
  primed := h.primed.script hf hdeed
  tended := by
    obtain ⟨opened, hhost⟩ := h.primed.host
    have hscript : w.session.script f = { w.session with
        host := .scripted (f ⟨waiting w.deeds, responder? w.deeds, opened⟩) } := by
      simp only [Session.script, hhost]
    refine h.tended.quiet hquiet (by rw [hscript]; rfl) ?_ fun token => by rw [hscript]; rfl
    rw [hscript, hhost, hf]
    rfl

theorem execute (h : w.Sound) (p : Party) (program : String) :
    (w.act (.execute p program)).Sound := by
  obtain ⟨opened, hhost⟩ := h.primed.host
  obtain ⟨hreply, houtlook, hcallbacks⟩ := Session.execute_eq hhost p program
  have hanswer : ((⟨waiting w.deeds, responder? w.deeds, opened⟩ : ScriptedHost).reply program) =
      (replyAfter w.deeds program, ⟨(waiting w.deeds).tail, responder? w.deeds, opened⟩) := by
    unfold ScriptedHost.reply replyAfter
    cases waiting w.deeds with
    | cons envelope rest => rfl
    | nil => cases responder? w.deeds <;> rfl
  rw [hanswer] at hreply houtlook
  have hnow : (w.session.execute p program).2.host =
      .scripted ⟨(waiting w.deeds).tail, responder? w.deeds, opened⟩ :=
    congrArg Outlook.host houtlook
  change (w.did (w.session.execute p program).2
    (.executed program (w.session.execute p program).1)).Sound
  refine ⟨⟨⟨opened, ?_⟩, h.primed.replied.snoc fun program' reply heq => ?_⟩, ?_⟩
  · exact hnow.trans (by simp [did, waiting, responder?])
  · cases heq
    exact hreply
  · refine h.tended.quiet rfl (congrArg Callbacks.board hcallbacks) ?_ fun token => ?_
    · rw [did, hnow, hhost]
      rfl
    · have hevents : (w.session.execute p program).2.journal.events =
          w.session.journal.events ++ [.executed program] := congrArg Outlook.events houtlook
      rw [did, hevents, saga_append]
      exact List.append_nil _

theorem openEndpoint (h : w.Sound) (p : Party) : (w.act (.openEndpoint p)).Sound := by
  obtain ⟨opened, hhost⟩ := h.primed.host
  obtain ⟨hanswer, -, houtlook⟩ := h.tended.counts.openEndpoint_eq p
  have hnow : (w.session.openEndpoint p).2.host =
      .scripted ⟨waiting w.deeds, responder? w.deeds, opened + 1⟩ := by
    rw [hhost] at houtlook
    exact congrArg Outlook.host houtlook
  have hact : w.act (.openEndpoint p) = w.did (w.session.openEndpoint p).2
      (.opened w.session.board.length (memory w.session.board.length)) := by
    cases hopen : w.session.openEndpoint p with
    | mk answer session =>
      rw [hopen] at hanswer
      cases hanswer
      simp [act, hopen, memory]
  rw [hact]
  refine ⟨Primed.quiet ⟨⟨opened + 1, hnow⟩, h.primed.replied⟩ ?_ ?_ (by simp),
    h.tended.openEndpoint (by rw [hhost]; rfl) p⟩
  · simp [waiting]
  · simp [responder?]

/-- A token reaches its endpoint as long as that is open, and else nothing. -/
theorem fire_eq (h : w.Sound) (token : String) (payload : Json) :
    (∃ e, token = memory e ∧ w.session.board.isOpen e = true) ∨
      w.session.fire token payload = (false, w.session) := by
  by_cases hopen : ∃ e, token = memory e ∧ w.session.board.isOpen e = true
  · exact .inl hopen
  · right
    have hclosed : ∀ e, token = memory e → w.session.board.isOpen e = false :=
      fun e htoken => Bool.eq_false_iff.mpr fun he => hopen ⟨e, htoken, he⟩
    have hsend := h.tended.counts.board.send_of_not_isOpen hclosed payload
    rw [Session.fire, hsend]

theorem fire (h : w.Sound) (token : String) (payload : Envelope) :
    (w.act (.fire token payload)).Sound := by
  change (w.did (w.session.fire token payload.toJson).2
    (.fired token payload.toJson (w.session.fire token payload.toJson).1)).Sound
  have hprimed : Primed (w.session.fire token payload.toJson).2.host
      (w.deeds ++ [.fired token payload.toJson (w.session.fire token payload.toJson).1]) := by
    have hhost : (w.session.fire token payload.toJson).2.host = w.session.host := by
      have houtlook := Session.outlook_fire w.session token payload.toJson
      split at houtlook <;> exact congrArg Outlook.host houtlook
    rw [hhost]
    exact h.primed.quiet (by simp [waiting]) (by simp [responder?]) (by simp)
  rcases h.fire_eq token payload.toJson with ⟨e, rfl, hopen⟩ | hmissed
  · obtain ⟨hreceived, htended⟩ := h.tended.received (h.notes true).1 hopen payload.toJson
    rw [← hreceived] at htended
    exact ⟨hprimed, htended⟩
  · rw [hmissed] at hprimed ⊢
    exact ⟨hprimed, h.tended.quiet rfl rfl rfl fun _ => rfl⟩

theorem receive (h : w.Sound) (e : EndpointId) : (w.act (.receive e)).Sound := by
  simp only [Rehearsal.act]
  split
  · rename_i payload hseen
    exact ⟨h.primed.quiet (by simp [waiting]) (by simp [responder?]) (by simp),
      h.tended.found hseen⟩
  · exact h

theorem letGo (h : w.Sound) {e : EndpointId} (he : e < w.session.board.length)
    {session : Session F} (hcounts : session.Counts "mem-")
    (hshut : Callbacks.Shut [e] w.session.callbacks session.callbacks)
    (houtlook : session.outlook = if w.session.board.isOpen e then
      w.session.outlook.note [.closed (w.session.tokenOf e)] else w.session.outlook) :
    (w.did session (.letGo e)).Sound := by
  have hhost : session.host = w.session.host := by
    split at houtlook <;> exact congrArg Outlook.host houtlook
  have hevents : session.journal.events = w.session.journal.events ++
      if w.session.board.isOpen e then [.closed (memory e)] else [] := by
    have htoken : w.session.tokenOf e = memory e := by
      rw [h.tended.counts.tokenOf, if_pos he, memory]
    rw [htoken] at houtlook
    split at houtlook <;> rename_i hopen <;>
      simp only [hopen, if_true, Bool.false_eq_true, if_false]
    · exact congrArg Outlook.events houtlook
    · exact (congrArg Outlook.events houtlook).trans (List.append_nil _).symm
  refine ⟨?_, h.tended.letGo he hcounts hshut.length (fun i => ?_) hshut.inbox hevents⟩
  · rw [did, hhost]
    exact h.primed.quiet (by simp [waiting]) (by simp [responder?]) (by simp)
  · refine (hshut.isOpen i).trans (congrArg (w.session.board.isOpen i && ·) ?_)
    by_cases heq : e = i
    · simp [heq]
    · simp [heq, Ne.symm heq]

theorem act (h : w.Sound) (move : RehearsalMove) : (w.act move).Sound := by
  cases move with
  | push envelope =>
    exact h.script (fun _ => by simp [ScriptedHost.push, waiting, responder?]) rfl (by simp)
  | respond responder => exact h.script (fun _ => by simp [waiting, responder?]) rfl (by simp)
  | execute p program => exact h.execute p program
  | openEndpoint p => exact h.openEndpoint p
  | fire token payload => exact h.fire token payload
  | receive e => exact h.receive e
  | close e =>
    simp only [Rehearsal.act]
    split
    · rename_i he
      refine h.letGo he (h.tended.counts.closeEndpoint e) (Callbacks.shut_closeEndpoint _ e) ?_
      rw [Session.outlook_closeEndpoint, (h.notes _).2.1]
    · exact h
  | drop e =>
    simp only [Rehearsal.act]
    split
    · rename_i he
      refine h.letGo he (h.tended.counts.dropEndpoint e) (Callbacks.shut_dropEndpoint _ e) ?_
      rw [Session.outlook_dropEndpoint, (h.notes _).2.2]
    · exact h

end Sound

theorem sound_run (settings : Settings) (moves : List RehearsalMove) :
    ((start settings : Rehearsal F).run moves).Sound := by
  have every : ∀ (moves : List RehearsalMove) (w : Rehearsal F), w.Sound → (w.run moves).Sound := by
    intro moves
    induction moves with
    | nil => exact fun _ h => h
    | cons move moves ih => exact fun w h => ih (w.act move) (h.act move)
  exact every moves _ (sound_start settings)

end Rehearsal

/-! ## The log, the host and the endpoints -/

/-- A log has a token as opened and not closed. -/
def IsLive (events : List HostEvent) (token : String) : Prop :=
  .opened token ∈ events ∧ .closed token ∉ events

theorem mem_saga {event : HostEvent} {token : String} (h : event.token? = some token)
    (events : List HostEvent) : event ∈ saga events token ↔ event ∈ events := by
  simp [saga, h]

theorem closed_mem_tale {token : String} {received : Nat} {letGo : Bool} :
    .closed token ∈ tale token received letGo ↔ letGo = true := by
  cases letGo <;> simp [tale]

namespace Tended

variable {s : Session F} {deeds : List RehearsalDeed}

theorem isLive_iff (h : Tended s deeds) {token : String} : IsLive s.journal.events token ↔
    ∃ e, token = memory e ∧ s.board.isOpen e = true := by
  have hopens : (HostEvent.opened token).token? = some token := rfl
  have hcloses : (HostEvent.closed token).token? = some token := rfl
  rw [IsLive, ← mem_saga hopens, ← mem_saga hcloses]
  constructor
  · rintro ⟨hopened, hclosed⟩
    by_cases hmem : token ∈ RehearsalDeed.tokens deeds
    · obtain ⟨e, he, rfl⟩ := h.mem_opened.mp hmem
      rw [h.told e he, closed_mem_tale] at hclosed
      exact ⟨e, rfl, by rw [h.isOpen e he, Bool.eq_false_iff.mpr hclosed]; rfl⟩
    · rw [h.untold token hmem] at hopened
      cases hopened
  · rintro ⟨e, rfl, hopen⟩
    have he := Board.lt_length_of_isOpen hopen
    rw [h.isOpen e he] at hopen
    rw [h.told e he, closed_mem_tale]
    exact ⟨List.mem_cons_self, by simpa using hopen⟩

theorem tokens_board (h : Tended s deeds) :
    s.board.map (·.token) = (List.range s.board.length).map memory := by
  refine List.ext_getElem? fun i => ?_
  rw [List.getElem?_map, List.getElem?_map]
  cases hget : s.board[i]? with
  | none => rw [List.getElem?_eq_none (by simpa using hget)]; rfl
  | some e =>
    rw [List.getElem?_range (List.getElem?_eq_some_iff.mp hget).1]
    exact congrArg some (h.counts.board.token i e hget)

theorem nodup_tokens (h : Tended s deeds) : (RehearsalDeed.tokens deeds).Nodup := by
  rw [h.tokens]
  exact nodup_memory _

theorem mem_receiving (h : Tended s deeds) {token : String} :
    token ∈ (s.board.filter fun e => e.isOpen && e.connected).map (·.token) ↔
      ∃ e, token = memory e ∧ s.board.isOpen e = true := by
  constructor
  · intro hmem
    obtain ⟨endpoint, hendpoint, rfl⟩ := List.mem_map.mp hmem
    obtain ⟨hin, hboth⟩ := List.mem_filter.mp hendpoint
    obtain ⟨e, hget⟩ := List.mem_iff_getElem?.mp hin
    exact ⟨e, h.counts.board.token e endpoint hget,
      by simpa [Board.isOpen, hget] using (Bool.and_eq_true_iff.mp hboth).1⟩
  · rintro ⟨e, rfl, hopen⟩
    obtain ⟨endpoint, hget, hconnected⟩ :=
      Board.isConnected_eq_true (h.counts.board.connected e hopen)
    have hlistens : endpoint.isOpen = true := by simpa [Board.isOpen, hget] using hopen
    refine List.mem_map.mpr ⟨endpoint, List.mem_filter.mpr ⟨List.mem_of_getElem? hget, ?_⟩,
      h.counts.board.token e endpoint hget⟩
    rw [hlistens, hconnected]
    rfl

end Tended

namespace Rehearsal

open Script (Action hostState sorted)

/-- What the log of a scripted host, the host and the endpoints have to say about what was done. -/
structure Consistent (w : Rehearsal Action) : Prop where
  /-- No two endpoints were opened under one token. -/
  distinct : (tokens w.deeds).Nodup
  /-- The log tells of a token that it was opened, then of everything received under it, and then,
  once its endpoint was let go, that it was closed. -/
  told : ∀ e token, .opened e token ∈ w.deeds → saga w.session.journal.events token =
    tale token (sent w.deeds token).length (isLetGo w.deeds e)
  untold : ∀ token ∉ tokens w.deeds, saga w.session.journal.events token = []
  fires : ∀ token payload, (w.session.fire token payload).1 = true ↔
    IsLive w.session.journal.events token
  notes : ∀ token payload, (w.session.fire token payload).2.journal.events =
    w.session.journal.events ++
      if (w.session.fire token payload).1 = true then [.fired token] else []
  openTokens : ∃ opens closed programs, hostState w.session = .hostState opens closed programs ∧
    opens.Nodup ∧ ∀ token, token ∈ opens ↔ IsLive w.session.journal.events token
  found : ∀ e token, .opened e token ∈ w.deeds → finds w.deeds e <+: sent w.deeds token ∧
    ((∀ payload, w.session.board.sighting e ≠ .payload payload) →
      finds w.deeds e = sent w.deeds token)
  replied : Replied w.deeds

/-- Whatever is done with a scripted host, in whatever order, its log is consistent: each token was
opened once, received only while it was open and was closed at most once; exactly the open tokens
can be reached; what an endpoint finds is what was sent to it, in order and in the end all of it;
and programs are answered from the queue first. -/
theorem consistent_run (settings : Settings) (moves : List RehearsalMove) :
    ((start settings : Rehearsal Action).run moves).Consistent := by
  have h := sound_run (F := Action) settings moves
  generalize (start settings : Rehearsal Action).run moves = w at h ⊢
  have hfires : ∀ token payload, (w.session.fire token payload).1 = true ↔
      IsLive w.session.journal.events token := by
    intro token payload
    rw [h.tended.isLive_iff]
    constructor
    · intro hreceived
      rcases h.fire_eq token payload with hopen | hmissed
      · exact hopen
      · rw [hmissed] at hreceived
        cases hreceived
    · rintro ⟨e, rfl, hopen⟩
      exact (h.tended.received (h.notes true).1 hopen payload).1
  refine ⟨h.tended.nodup_tokens, fun e token hopened => ?_, h.tended.untold, hfires,
    fun token payload => ?_, ?_, fun e token hopened => ?_, h.primed.replied⟩
  · obtain ⟨he, rfl⟩ := (h.tended.opened e token).mp hopened
    exact h.tended.told e he
  · have houtlook := Session.outlook_fire w.session token payload
    rw [(h.notes true).1, Bool.and_true] at houtlook
    split at houtlook
    · rename_i hreceived
      rw [if_pos hreceived]
      exact congrArg Outlook.events houtlook
    · rename_i hmissed
      rw [if_neg hmissed, List.append_nil]
      exact congrArg Outlook.events houtlook
  · refine ⟨_, _, _, rfl, ?_, fun token => ?_⟩
    · rw [sorted, (List.mergeSort_perm ..).nodup_iff]
      have hall : (w.session.board.map (·.token)).Nodup := by
        rw [h.tended.tokens_board]
        exact nodup_memory _
      exact hall.sublist (List.filter_sublist.map _)
    · rw [sorted, (List.mergeSort_perm ..).mem_iff, h.tended.mem_receiving, h.tended.isLive_iff]
  · obtain ⟨he, rfl⟩ := (h.tended.opened e token).mp hopened
    have hqueued := h.tended.queued e
    refine ⟨⟨_, hqueued.symm⟩, fun hnothing => ?_⟩
    have hinbox : Board.inbox w.session.board e = [] := by
      cases hinbox : Board.inbox w.session.board e with
      | nil => rfl
      | cons payload later => exact absurd (Board.sighting_of_inbox hinbox) (hnothing payload)
    rw [hqueued, hinbox, List.append_nil]

end Rehearsal

end RemoteHost
