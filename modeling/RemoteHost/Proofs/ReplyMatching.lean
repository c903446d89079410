import RemoteHost.Proofs.Exchange
import RemoteHost.Proofs.TurnLines

/-!
# Replies come to their own requests

Calls use a connection one after another, and a request is written only when the one before it has
been settled or given up. Requests are numbered in the order in which they are written, so a line
with another number is never taken for the reply, and one with a smaller number changes nothing.
-/

namespace RemoteHost

open Wire (Line Connection lineBreak lineBytes AreWhole attend attended Reads)

variable {F : Type}

namespace Exchange

/-- The session of an exchange after a party has looked for its reply. -/
def answered (s : Session F) (p : Party) : Option (Except TransportFault Json) → Session F
  | none => s
  | some _ => { s with inFlight := [] }.leaveWire p

/-- The session in which the party that uses the connection is looked at again. -/
def roused (s : Session F) : Session F :=
  match s.wire.holder with
  | some p => s.wake p
  | none => s

theorem answered_eq (s : Session F) (p : Party) (result : Except TransportFault Json) :
    ∃ ready, answered s p (some result) =
      { s with inFlight := [], wire := s.wire.withdraw p, ready } :=
  Session.leaveWire_eq { s with inFlight := [] } p

theorem roused_eq (s : Session F) : ∃ ready, roused s = { s with ready } := by
  unfold roused
  split
  · exact s.wake_eq _
  · exact ⟨s.ready, rfl⟩

/-- An exchange of which the parties in a line use the connection, the first one now, and on which
some lines have arrived that nobody has read. -/
structure Serving (w : Exchange F) (s : Session F) (c : Connection) (line : List Party)
    (lines : List Line) : Prop where
  session : w.session = s.connected c
  idle : c.writing = false
  hangs : c.ended = false
  whole : AreWhole lines
  received : c.received = lineBytes lines
  lineages : s.lineages = []
  unclaimed : s.unclaimed = []
  wire : s.wire = .ofLine line
  nodup : line.Nodup
  calling : ∀ p ∈ line, (w.calls p).isSome
  waiting : ∀ p request, w.calls p = some (.waiting request) →
    line.head? = some p ∧ s.inFlight = [(p, .awaited request)] ∧ request + 1 = c.nextId
  flight : (∀ p request, w.calls p ≠ some (.waiting request)) → s.inFlight = []

variable {w : Exchange F} {s : Session F} {c : Connection} {line : List Party} {lines : List Line}
  {p : Party} {program : String} {request : Nat}

namespace Serving

theorem start (settings : Settings) :
    Serving (Exchange.start settings : Exchange F)
      { settings, host := .wired { replies := none } } {} [] [] where
  session := rfl
  idle := rfl
  hangs := rfl
  whole := nofun
  received := rfl
  lineages := rfl
  unclaimed := rfl
  wire := rfl
  nodup := List.nodup_nil
  calling := nofun
  waiting := nofun
  flight _ := rfl

/-! ## What moves do -/

theorem go_queued (h : Serving w s c line lines) (hcall : w.calls p = some (.asking program))
    (hlast : (Gate.joined line p).head? ≠ some p) : w.go p =
      { w with session := { s with wire := .ofLine (Gate.joined line p) }.connected c } := by
  have hsubmit := Session.submit_connected (s := s) h.idle h.hangs p program
  rw [h.wire, Gate.ask_ofLine h.nodup, if_neg (by simpa using hlast), ← h.session] at hsubmit
  simp [go, hcall, hsubmit]

theorem go_wrote (h : Serving w s c line lines) (hcall : w.calls p = some (.asking program))
    (hfirst : (Gate.joined line p).head? = some p) : w.go p =
      { session := (s.lend p c.nextId program).connected { c with nextId := c.nextId + 1 }
        calls := Function.update w.calls p (some (.waiting c.nextId))
        log := w.log ++ [.wrote p c.nextId program] } := by
  have hsubmit := Session.submit_connected (s := s) h.idle h.hangs p program
  rw [h.wire, Gate.ask_ofLine h.nodup, if_pos (by simpa using hfirst), ← h.session] at hsubmit
  have hnext : w.session.nextRequest = c.nextId := by
    rw [h.session]
    rfl
  simp [go, hcall, hsubmit, hnext]

theorem unread_connected (s : Session F) {c : Connection} {lines : List Line}
    (hwhole : AreWhole lines) (hreceived : c.received = lineBytes lines) :
    (s.connected c).unread = lines := by
  simp [Session.unread, Session.connected, hreceived, Wire.cutLines_lineBytes hwhole]

theorem unread (h : Serving w s c line lines) : w.session.unread = lines := by
  rw [h.session]
  exact unread_connected s h.whole h.received

theorem whole_left (h : Serving w s c line lines) (request : Nat) :
    AreWhole (attend request lines).2 := by
  intro l hl
  have hsplit := (Wire.attend_reads request lines).1
  refine h.whole l ?_
  rw [hsplit]
  exact List.mem_append_right _ hl

theorem go_read (h : Serving w s c line lines) (hcall : w.calls p = some (.waiting request)) :
    w.go p =
      { session := (answered s p (attend request lines).1).connected
          { c with received := lineBytes (attend request lines).2 }
        calls := if (attend request lines).1.isSome then Function.update w.calls p none
          else w.calls
        log := w.log ++ [.read p request (attended request lines) (attend request lines).1] } := by
  obtain ⟨-, hflight, -⟩ := h.waiting p request hcall
  have hcollect : w.session.collect p = ((attend request lines).1,
      (answered s p (attend request lines).1).connected
        { c with received := lineBytes (attend request lines).2 }) := by
    rw [h.session, Session.collect_connected hflight,
      Wire.await_whole h.hangs h.whole h.received request]
    cases (attend request lines).1 <;> rfl
  have hleft : ∀ s' : Session F, (s'.connected
      { c with received := lineBytes (attend request lines).2 }).unread =
        (attend request lines).2 := fun s' =>
    unread_connected s' (h.whole_left request) rfl
  simp only [go, hcall, hcollect, h.unread, hleft, attended]

theorem abandon (h : Serving w s c line lines) (p : Party) :
    w.session.abandon p = (s.forsaken p).connected c := by
  rw [h.session]
  exact Session.abandon_connected h.lineages h.unclaimed p

theorem receive (h : Serving w s c line lines) (bytes : List UInt8) :
    w.session.receive (some bytes) = (roused s).connected (c.arrive bytes) := by
  rw [h.session]
  exact Session.receive_connected s c bytes

/-! ## What moves keep -/

/-- Nobody can write a request while another one waits for its reply. -/
theorem nobody_waits (h : Serving w s c line lines) (hcall : w.calls p = some (.asking program))
    (hfirst : (Gate.joined line p).head? = some p) (q : Party) (request : Nat) :
    w.calls q ≠ some (.waiting request) := by
  intro hwaits
  obtain ⟨hhead, -, -⟩ := h.waiting q request hwaits
  have hsame : q = p := by
    have hjoined := Gate.head?_joined hhead p
    rw [hfirst] at hjoined
    exact (Option.some.inj hjoined).symm
  rw [hsame, hcall] at hwaits
  cases hwaits

/-- Whose call is new waits for nothing yet. -/
theorem waiting_called (hfree : w.calls p = none) (program : String) (q : Party) (request : Nat) :
    Function.update w.calls p (some (.asking program)) q = some (.waiting request) ↔
      w.calls q = some (.waiting request) := by
  by_cases hq : q = p
  · subst hq
    simp [hfree]
  · rw [Function.update_of_ne hq]

theorem called (h : Serving w s c line lines) (hfree : w.calls p = none) (program : String) :
    Serving { w with calls := Function.update w.calls p (some (.asking program)) } s c line
      lines := by
  have hwaits := waiting_called hfree program
  refine { h with calling := ?_, waiting := ?_, flight := ?_ }
  · intro q hq
    by_cases hqp : q = p
    · subst hqp
      simp
    · dsimp only
      rw [Function.update_of_ne hqp]
      exact h.calling q hq
  · intro q request hq
    exact h.waiting q request ((hwaits q request).mp hq)
  · intro hnobody
    exact h.flight fun q request hq => hnobody q request ((hwaits q request).mpr hq)

theorem queued (h : Serving w s c line lines) (hcall : w.calls p = some (.asking program)) :
    Serving { w with session := { s with wire := .ofLine (Gate.joined line p) }.connected c }
      { s with wire := .ofLine (Gate.joined line p) } c (Gate.joined line p) lines := by
  refine { h with
    session := rfl
    wire := rfl
    nodup := Gate.nodup_joined h.nodup p
    calling := ?_
    waiting := ?_ }
  · intro q hq
    rcases Gate.mem_joined.mp hq with hq | rfl
    · exact h.calling q hq
    · simp [hcall]
  · intro q request hq
    obtain ⟨hhead, hflight, hnumber⟩ := h.waiting q request hq
    exact ⟨Gate.head?_joined hhead p, hflight, hnumber⟩

theorem wrote (h : Serving w s c line lines) (hcall : w.calls p = some (.asking program))
    (hfirst : (Gate.joined line p).head? = some p) (log : List CallEvent) :
    Serving
      { session := (s.lend p c.nextId program).connected { c with nextId := c.nextId + 1 }
        calls := Function.update w.calls p (some (.waiting c.nextId))
        log }
      (s.lend p c.nextId program) { c with nextId := c.nextId + 1 } (Gate.joined line p) lines := by
  have hnobody := h.nobody_waits hcall hfirst
  have hflight : (s.lend p c.nextId program).inFlight = [(p, .awaited c.nextId)] := by
    simp [Session.lend, Session.note, h.flight hnobody]
  have hwire : (s.lend p c.nextId program).wire = .ofLine (Gate.joined line p) := by
    simp [Session.lend, Session.note, h.wire, Gate.ask_ofLine h.nodup]
  refine
    { session := rfl, idle := h.idle, hangs := h.hangs, whole := h.whole, received := h.received
      lineages := h.lineages, unclaimed := h.unclaimed, wire := hwire
      nodup := Gate.nodup_joined h.nodup p, calling := ?_, waiting := ?_, flight := ?_ }
  · intro q hq
    by_cases hqp : q = p
    · subst hqp
      simp
    · dsimp only
      rw [Function.update_of_ne hqp]
      rcases Gate.mem_joined.mp hq with hq | hq
      · exact h.calling q hq
      · exact absurd hq hqp
  · intro q request hq
    dsimp only at hq
    by_cases hqp : q = p
    · subst hqp
      rw [Function.update_self] at hq
      cases hq
      exact ⟨hfirst, hflight, rfl⟩
    · rw [Function.update_of_ne hqp] at hq
      exact absurd hq (hnobody q request)
  · intro hnone
    exact absurd (by simp) (hnone p c.nextId)

/-- Somebody steps out of the line, and takes along what was in flight for it. -/
theorem stepped_out (h : Serving w s c line lines) {s' : Session F} {c' : Connection}
    {lines' : List Line} (p : Party) (log : List CallEvent) (hidle : c'.writing = false)
    (hhangs : c'.ended = false) (hnumber : c'.nextId = c.nextId) (hwhole : AreWhole lines')
    (hreceived : c'.received = lineBytes lines') (hlineages : s'.lineages = s.lineages)
    (hunclaimed : s'.unclaimed = s.unclaimed) (hwire : s'.wire = s.wire.withdraw p)
    (hflight : s'.inFlight = s.inFlight.filter fun entry => entry.1 ≠ p) :
    Serving { session := s'.connected c', calls := Function.update w.calls p none, log }
      s' c' (line.erase p) lines' := by
  have hwaits : ∀ q request, Function.update w.calls p none q = some (.waiting request) →
      q ≠ p ∧ w.calls q = some (.waiting request) := by
    intro q request hq
    by_cases hqp : q = p
    · subst hqp
      simp at hq
    · rw [Function.update_of_ne hqp] at hq
      exact ⟨hqp, hq⟩
  refine
    { session := rfl, idle := hidle, hangs := hhangs, whole := hwhole, received := hreceived
      lineages := hlineages.trans h.lineages, unclaimed := hunclaimed.trans h.unclaimed
      wire := by rw [hwire, h.wire, Gate.withdraw_ofLine]
      nodup := h.nodup.erase p, calling := ?_, waiting := ?_, flight := ?_ }
  · intro q hq
    have hmem := (h.nodup.mem_erase_iff).mp hq
    dsimp only
    rw [Function.update_of_ne hmem.1]
    exact h.calling q hmem.2
  · intro q request hq
    obtain ⟨hqp, hq⟩ := hwaits q request hq
    obtain ⟨hhead, hbefore, hlast⟩ := h.waiting q request hq
    refine ⟨Gate.head?_erase hhead hqp, ?_, by rw [hnumber, hlast]⟩
    rw [hflight, hbefore]
    simp [hqp]
  · intro hnobody
    rw [hflight]
    by_cases hp : ∃ request, w.calls p = some (.waiting request)
    · obtain ⟨request, hp⟩ := hp
      obtain ⟨-, hbefore, -⟩ := h.waiting p request hp
      simp [hbefore]
    · have hbefore := h.flight fun q request hq => by
        by_cases hqp : q = p
        · subst hqp
          exact hp ⟨request, hq⟩
        · refine hnobody q request ?_
          dsimp only
          rw [Function.update_of_ne hqp]
          exact hq
      simp [hbefore]

theorem read (h : Serving w s c line lines) (hcall : w.calls p = some (.waiting request))
    (log : List CallEvent) :
    Serving
      { session := (answered s p (attend request lines).1).connected
          { c with received := lineBytes (attend request lines).2 }
        calls := if (attend request lines).1.isSome then Function.update w.calls p none
          else w.calls
        log }
      (answered s p (attend request lines).1)
      { c with received := lineBytes (attend request lines).2 }
      (if (attend request lines).1.isSome then line.erase p else line)
      (attend request lines).2 := by
  have hwhole := h.whole_left request
  obtain ⟨-, hflight, -⟩ := h.waiting p request hcall
  cases hresult : (attend request lines).1 with
  | none => exact { h with session := rfl, whole := hwhole, received := rfl }
  | some result =>
    obtain ⟨ready, hanswered⟩ := answered_eq s p result
    rw [hanswered]
    exact h.stepped_out p log h.idle h.hangs rfl hwhole rfl rfl rfl rfl (by simp [hflight])

theorem left (h : Serving w s c line lines) (p : Party) (log : List CallEvent) :
    Serving { session := (s.forsaken p).connected c, calls := Function.update w.calls p none, log }
      (s.forsaken p) c (line.erase p) lines := by
  obtain ⟨ready, hforsaken⟩ := s.forsaken_eq p
  rw [hforsaken]
  exact h.stepped_out p log h.idle h.hangs rfl h.whole h.received rfl rfl rfl rfl

theorem came (h : Serving w s c line lines) {new : Line} (hnew : lineBreak ∉ new)
    (log : List CallEvent) :
    Serving { w with session := (roused s).connected (c.arrive (new ++ [lineBreak])), log }
      (roused s) (c.arrive (new ++ [lineBreak])) line (lines ++ [new]) := by
  obtain ⟨ready, hroused⟩ := roused_eq s
  rw [hroused]
  refine { h with session := rfl, whole := ?_, received := ?_ }
  · intro l hl
    rcases List.mem_append.mp hl with hl | hl
    · exact h.whole l hl
    · rw [List.mem_singleton.mp hl]
      exact hnew
  · simp [Connection.arrive, h.received, lineBytes]

end Serving

/-- Everything that a move can do, as far as requests, lines and the log are concerned. -/
inductive Change (w : Exchange F) (c : Connection) (lines : List Line) :
    Exchange F → Connection → List Line → Prop where
  | nothing {session : Session F} {calls : Party → Option CallStage}
      (hevents : session.journal.events = w.session.journal.events)
      (hwaiting : ∀ q request, calls q = some (.waiting request) ↔
        w.calls q = some (.waiting request)) :
      Change w c lines { w with session, calls } c lines
  | wrote {session : Session F} {p : Party} {program : String}
      (hevents : session.journal.events =
        w.session.journal.events ++ [.sent (Wire.requestLine c.nextId program)])
      (hnobody : ∀ q request, w.calls q ≠ some (.waiting request)) :
      Change w c lines
        { session
          calls := Function.update w.calls p (some (.waiting c.nextId))
          log := w.log ++ [.wrote p c.nextId program] }
        { c with nextId := c.nextId + 1 } lines
  | read {session : Session F} {p : Party} {request : Nat}
      (hevents : session.journal.events = w.session.journal.events)
      (hcall : w.calls p = some (.waiting request)) (hlast : request + 1 = c.nextId)
      (halone : ∀ q other, w.calls q = some (.waiting other) → q = p) :
      Change w c lines
        { session
          calls := if (attend request lines).1.isSome then Function.update w.calls p none
            else w.calls
          log := w.log ++ [.read p request (attended request lines) (attend request lines).1] }
        { c with received := lineBytes (attend request lines).2 } (attend request lines).2
  | left {session : Session F} {p : Party} {stage : CallStage}
      (hevents : session.journal.events = w.session.journal.events)
      (hcall : w.calls p = some stage) :
      Change w c lines
        { session
          calls := Function.update w.calls p none
          log := w.log ++ [.abandoned p stage] } c lines
  | came {session : Session F} {new : Line}
      (hevents : session.journal.events = w.session.journal.events) :
      Change w c lines { w with session, log := w.log ++ [.arrived new] }
        (c.arrive (new ++ [lineBreak])) (lines ++ [new])

namespace Serving

theorem events (h : Serving w s c line lines) :
    w.session.journal.events = s.journal.events := by
  rw [h.session]
  rfl

theorem step_go (h : Serving w s c line lines) (p : Party) : ∃ s' c' line' lines',
    Serving (w.go p) s' c' line' lines' ∧ Change w c lines (w.go p) c' lines' := by
  cases hcall : w.calls p with
  | none =>
    have hsame : w.go p = w := by simp [go, hcall]
    rw [hsame]
    exact ⟨s, c, line, lines, h, .nothing rfl fun _ _ => Iff.rfl⟩
  | some stage =>
    cases stage with
    | asking program =>
      by_cases hfirst : (Gate.joined line p).head? = some p
      · rw [h.go_wrote hcall hfirst]
        refine ⟨_, _, _, _, h.wrote hcall hfirst _, .wrote ?_ (h.nobody_waits hcall hfirst)⟩
        rw [h.events]
        rfl
      · rw [h.go_queued hcall hfirst]
        exact ⟨_, _, _, _, h.queued hcall, .nothing h.events.symm fun _ _ => Iff.rfl⟩
    | waiting request =>
      have hread := h.read hcall
        (w.log ++ [.read p request (attended request lines) (attend request lines).1])
      obtain ⟨hhead, -, hlast⟩ := h.waiting p request hcall
      have halone : ∀ q other, w.calls q = some (.waiting other) → q = p := by
        intro q other hq
        obtain ⟨hother, -, -⟩ := h.waiting q other hq
        rw [hhead] at hother
        exact (Option.some.inj hother).symm
      rw [h.go_read hcall]
      refine ⟨_, _, _, _, hread, .read ?_ hcall hlast halone⟩
      rw [h.events]
      cases (attend request lines).1 with
      | none => rfl
      | some result =>
        obtain ⟨ready, hanswered⟩ := answered_eq s p result
        rw [hanswered]
        rfl

theorem step (h : Serving w s c line lines) (move : ExchangeMove) : ∃ s' c' line' lines',
    Serving (w.act move) s' c' line' lines' ∧ Change w c lines (w.act move) c' lines' := by
  cases move with
  | call p program =>
    simp only [act]
    split
    · rename_i hfree
      have hfree : w.calls p = none := by simpa using hfree
      exact ⟨s, c, line, lines, h.called hfree program, .nothing rfl (waiting_called hfree program)⟩
    · exact ⟨s, c, line, lines, h, .nothing rfl fun _ _ => Iff.rfl⟩
  | go p => exact h.step_go p
  | abandon p =>
    simp only [act]
    split
    · exact ⟨s, c, line, lines, h, .nothing rfl fun _ _ => Iff.rfl⟩
    · rename_i stage hcall
      obtain ⟨ready, hforsaken⟩ := s.forsaken_eq p
      rw [h.abandon p]
      refine ⟨_, c, _, lines, h.left p _, .left ?_ hcall⟩
      rw [h.events, hforsaken]
      rfl
  | arrive new =>
    simp only [act]
    split
    · exact ⟨s, c, line, lines, h, .nothing rfl fun _ _ => Iff.rfl⟩
    · rename_i hnew
      obtain ⟨ready, hroused⟩ := roused_eq s
      rw [h.receive (new ++ [lineBreak])]
      refine ⟨_, _, line, _, h.came hnew _, .came ?_⟩
      rw [h.events, hroused]
      rfl

end Serving

/-! ## Logs -/

section Logs

variable (log new : List CallEvent)

theorem linesSent_append : linesSent (log ++ new) = linesSent log ++ linesSent new :=
  List.flatMap_append

theorem linesRead_append : linesRead (log ++ new) = linesRead log ++ linesRead new :=
  List.flatMap_append

theorem readers_append : readers (log ++ new) = readers log ++ readers new :=
  List.flatMap_append

theorem results_append : results (log ++ new) = results log ++ results new :=
  List.flatMap_append

theorem requests_append : requests (log ++ new) = requests log ++ requests new :=
  List.flatMap_append

theorem requestLines_append : requestLines (log ++ new) = requestLines log ++ requestLines new :=
  List.flatMap_append

end Logs

/-- What the log of an exchange tells. -/
structure Told (w : Exchange F) (c : Connection) (lines : List Line) : Prop where
  order : linesRead w.log ++ lines = linesSent w.log
  counted : 0 < c.nextId
  numbered : requests w.log = List.range' 1 (c.nextId - 1)
  written : w.session.journal.events = requestLines w.log
  reads : ∀ p request read result, .read p request read result ∈ w.log → Reads request read result
  fates : ∀ p request program, .wrote p request program ∈ w.log →
    w.calls p = some (.waiting request) ∨ .abandoned p (.waiting request) ∈ w.log ∨
      ∃ read result, .read p request read (some result) ∈ w.log

theorem told_start (settings : Settings) :
    Told (Exchange.start settings : Exchange F) {} [] where
  order := rfl
  counted := Nat.one_pos
  numbered := rfl
  written := rfl
  reads := nofun
  fates := nofun

/-- A fate that was known stays known. -/
theorem fates_append {calls : Party → Option CallStage} {log new : List CallEvent} {p : Party}
    {request : Nat}
    (h : w.calls p = some (.waiting request) → calls p = some (.waiting request) ∨
      .abandoned p (.waiting request) ∈ new ∨
      ∃ read result, .read p request read (some result) ∈ new)
    (hold : w.calls p = some (.waiting request) ∨ .abandoned p (.waiting request) ∈ log ∨
      ∃ read result, .read p request read (some result) ∈ log) :
    calls p = some (.waiting request) ∨ .abandoned p (.waiting request) ∈ log ++ new ∨
      ∃ read result, .read p request read (some result) ∈ log ++ new := by
  have hnew : calls p = some (.waiting request) ∨ .abandoned p (.waiting request) ∈ new ∨
      (∃ read result, .read p request read (some result) ∈ new) →
      calls p = some (.waiting request) ∨ .abandoned p (.waiting request) ∈ log ++ new ∨
        ∃ read result, .read p request read (some result) ∈ log ++ new := by
    rintro (hwaits | hleft | ⟨read, result, hread⟩)
    · exact .inl hwaits
    · exact .inr (.inl (List.mem_append_right _ hleft))
    · exact .inr (.inr ⟨read, result, List.mem_append_right _ hread⟩)
  rcases hold with hwaits | hleft | ⟨read, result, hread⟩
  · exact hnew (h hwaits)
  · exact .inr (.inl (List.mem_append_left _ hleft))
  · exact .inr (.inr ⟨read, result, List.mem_append_left _ hread⟩)

theorem Told.change (h : Told w c lines) {w' : Exchange F} {c' : Connection} {lines' : List Line}
    (hchange : Change w c lines w' c' lines') : Told w' c' lines' := by
  cases hchange with
  | nothing hevents hwaiting =>
    refine { h with written := hevents.trans h.written, fates := ?_ }
    intro p request program hwrote
    rcases h.fates p request program hwrote with hwaits | hfate
    · exact .inl ((hwaiting p request).mpr hwaits)
    · exact .inr hfate
  | @wrote session p program hevents hnobody =>
    have hcount : c.nextId + 1 - 1 = c.nextId - 1 + 1 := by
      have := h.counted
      omega
    refine { order := ?_, counted := Nat.succ_pos _, numbered := ?_, written := ?_, reads := ?_,
             fates := ?_ }
    · rw [linesRead_append, linesSent_append]
      simpa [linesRead, linesSent] using h.order
    · have hfirst : 1 + (c.nextId - 1) = c.nextId := by
        have := h.counted
        omega
      rw [requests_append, h.numbered, hcount, List.range'_concat, Nat.one_mul, hfirst]
      rfl
    · rw [requestLines_append, ← h.written]
      exact hevents
    · intro q request read result hmem
      refine h.reads q request read result ?_
      simpa using hmem
    · intro q request other hmem
      rcases List.mem_append.mp hmem with hmem | hmem
      · refine fates_append (fun hwaits => absurd hwaits (hnobody q request))
          (h.fates q request other hmem)
      · obtain ⟨rfl, rfl, -⟩ : q = p ∧ request = c.nextId ∧ other = program := by
          simpa using hmem
        exact .inl (by simp)
  | @read session p request hevents hcall hlast halone =>
    obtain ⟨hsplit, hreads, -⟩ := Wire.attend_reads request lines
    refine { order := ?_, counted := h.counted, numbered := ?_, written := ?_, reads := ?_,
             fates := ?_ }
    · rw [linesRead_append, linesSent_append, ← h.order]
      simp [linesRead, linesSent, ← hsplit]
    · rw [requests_append, h.numbered]
      simp [requests]
    · rw [requestLines_append, ← h.written]
      simpa [requestLines] using hevents
    · intro q other read result hmem
      rcases List.mem_append.mp hmem with hmem | hmem
      · exact h.reads q other read result hmem
      · obtain ⟨rfl, rfl, rfl, rfl⟩ : q = p ∧ other = request ∧ read = attended request lines ∧
            result = (attend request lines).1 := by simpa using hmem
        exact hreads
    · intro q other program hmem
      have hmem : .wrote q other program ∈ w.log := by simpa using hmem
      refine fates_append (fun hwaits => ?_) (h.fates q other program hmem)
      obtain rfl := halone q other hwaits
      rw [hcall] at hwaits
      cases hwaits
      cases hresult : (attend request lines).1 with
      | none => exact .inl hcall
      | some result => exact .inr (.inr ⟨_, result, List.mem_singleton_self _⟩)
  | @left session p stage hevents hcall =>
    refine { order := ?_, counted := h.counted, numbered := ?_, written := ?_, reads := ?_,
             fates := ?_ }
    · rw [linesRead_append, linesSent_append]
      simpa [linesRead, linesSent] using h.order
    · rw [requests_append, h.numbered]
      simp [requests]
    · rw [requestLines_append, ← h.written]
      simpa [requestLines] using hevents
    · intro q other read result hmem
      refine h.reads q other read result ?_
      simpa using hmem
    · intro q other program hmem
      have hmem : .wrote q other program ∈ w.log := by simpa using hmem
      refine fates_append (fun hwaits => ?_) (h.fates q other program hmem)
      by_cases hq : q = p
      · subst hq
        rw [hcall] at hwaits
        cases hwaits
        exact .inr (.inl (List.mem_singleton_self _))
      · left
        dsimp only
        rw [Function.update_of_ne hq]
        exact hwaits
  | @came session new hevents =>
    refine { order := ?_, counted := h.counted, numbered := ?_, written := ?_, reads := ?_,
             fates := ?_ }
    · rw [linesRead_append, linesSent_append, ← h.order]
      simp [linesRead, linesSent]
    · rw [requests_append, h.numbered]
      simp [requests, Connection.arrive]
    · rw [requestLines_append, ← h.written]
      simpa [requestLines] using hevents
    · intro q other read result hmem
      refine h.reads q other read result ?_
      simpa using hmem
    · intro q other program hmem
      have hmem : .wrote q other program ∈ w.log := by simpa using hmem
      exact fates_append .inl (h.fates q other program hmem)

end Exchange

end RemoteHost
