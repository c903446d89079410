import RemoteHost.Proofs.StaleReplies

/-!
# Every request gets its own reply

What holds of any exchange over one connection, whoever gives up a call and whatever lines the host
sends; and what follows where the host answers one request after another.
-/

namespace RemoteHost

open Wire (Line Connection lineBreak attend attended Reads judgeWhole numberOf answerOf IsAnswer)

variable {F : Type}

namespace Exchange

variable {w : Exchange F} {s : Session F} {c : Connection} {line : List Party} {lines : List Line}

/-- The log shows that a request is written by the party that waits for its reply and reads it. -/
structure Owned (w : Exchange F) : Prop where
  waits : ∀ p request, w.calls p = some (.waiting request) →
    ∃ program, .wrote p request program ∈ w.log
  reads : ∀ p request read result, .read p request read result ∈ w.log →
    ∃ program, .wrote p request program ∈ w.log

/-- The host's lines are replies to the first request, the second one and so on. -/
def Orderly (log : List CallEvent) : Prop :=
  ∀ n line, (linesSent log)[n]? = some line → numberOf line = some (n + 1)

/-- No request has read beyond its own reply. -/
structure Punctual (w : Exchange F) (c : Connection) : Prop where
  behind : (linesRead w.log).length < c.nextId
  awaits : ∀ p request, w.calls p = some (.waiting request) → (linesRead w.log).length < request
  own : ∀ p request read result, .read p request read (some result) ∈ w.log →
    ∃ line, (linesSent w.log)[request - 1]? = some line ∧
      judgeWhole request line = .settled result

/-! ## Who reads -/

theorem Owned.change (h : Owned w) {w' : Exchange F} {c' : Connection} {lines' : List Line}
    (hchange : Change w c lines w' c' lines') : Owned w' := by
  have still : ∀ {log : List CallEvent} {p : Party} {request : Nat} (new : List CallEvent),
      (∃ program, .wrote p request program ∈ log) →
        ∃ program, .wrote p request program ∈ log ++ new := by
    rintro log p request new ⟨program, hwrote⟩
    exact ⟨program, List.mem_append_left new hwrote⟩
  cases hchange with
  | nothing hevents hwaiting =>
    refine ⟨fun p request hwaits => h.waits p request ?_, h.reads⟩
    exact (hwaiting p request).mp hwaits
  | @wrote session p program hevents hnobody =>
    constructor
    · intro q request hwaits
      by_cases hq : q = p
      · subst hq
        obtain rfl : c.nextId = request := by simpa using hwaits
        exact ⟨program, by simp⟩
      · dsimp only at hwaits
        rw [Function.update_of_ne hq] at hwaits
        exact absurd hwaits (hnobody q request)
    · intro q request read result hmem
      exact still _ (h.reads q request read result (by simpa using hmem))
  | @read session p request hevents hcall hlast halone =>
    constructor
    · intro q other hwaits
      dsimp only at hwaits
      refine still _ (h.waits q other ?_)
      split at hwaits
      · by_cases hq : q = p
        · subst hq
          simp at hwaits
        · rw [Function.update_of_ne hq] at hwaits
          exact hwaits
      · exact hwaits
    · intro q other read result hmem
      rcases List.mem_append.mp hmem with hmem | hmem
      · exact still _ (h.reads q other read result hmem)
      · obtain ⟨rfl, rfl, -, -⟩ : q = p ∧ other = request ∧ read = attended request lines ∧
            result = (attend request lines).1 := by simpa using hmem
        exact still _ (h.waits q other hcall)
  | @left session p stage hevents hcall =>
    constructor
    · intro q request hwaits
      by_cases hq : q = p
      · subst hq
        simp at hwaits
      · dsimp only at hwaits
        rw [Function.update_of_ne hq] at hwaits
        exact still _ (h.waits q request hwaits)
    · intro q request read result hmem
      exact still _ (h.reads q request read result (by simpa using hmem))
  | @came session new hevents =>
    refine ⟨fun q request hwaits => still _ (h.waits q request hwaits), ?_⟩
    intro q request read result hmem
    exact still _ (h.reads q request read result (by simpa using hmem))

/-- What holds of an exchange after any moves. -/
def Sound (w : Exchange F) : Prop :=
  ∃ s c line lines, Serving w s c line lines ∧ Told w c lines ∧ Owned w

theorem Sound.step (h : Sound w) (move : ExchangeMove) : Sound (w.act move) := by
  obtain ⟨s, c, line, lines, hserving, htold, howned⟩ := h
  obtain ⟨s', c', line', lines', hserving', hchange⟩ := hserving.step move
  exact ⟨s', c', line', lines', hserving', htold.change hchange, howned.change hchange⟩

theorem Sound.run (h : Sound w) (moves : List ExchangeMove) : Sound (w.run moves) := by
  induction moves generalizing w with
  | nil => exact h
  | cons move moves ih => exact ih (h.step move)

theorem sound_start (settings : Settings) : Sound (start settings : Exchange F) :=
  ⟨_, _, _, _, Serving.start settings, told_start settings, { waits := nofun, reads := nofun }⟩

/-! ## A host that answers in order -/

theorem linesSent_grow {log later : List CallEvent} (h : log <+: later) :
    linesSent log <+: linesSent later := by
  obtain ⟨new, rfl⟩ := h
  rw [linesSent_append]
  exact List.prefix_append _ _

theorem Orderly.earlier {log later : List CallEvent} (h : Orderly later) (hgrows : log <+: later) :
    Orderly log := by
  intro n line hline
  obtain ⟨rest, hrest⟩ := linesSent_grow hgrows
  refine h n line ?_
  rw [← hrest, List.getElem?_append_left (List.getElem?_eq_some_iff.mp hline).1]
  exact hline

/-- The lines that are still to be read go on where those end that were read. -/
theorem Told.numbered_left (h : Told w c lines) (horderly : Orderly w.log) (n : Nat) (line : Line)
    (hline : lines[n]? = some line) :
    numberOf line = some ((linesRead w.log).length + n + 1) := by
  refine horderly _ line ?_
  rw [← h.order, List.getElem?_append_right (Nat.le_add_right _ _), Nat.add_sub_cancel_left]
  exact hline

theorem Punctual.change (h : Punctual w c) (htold : Told w c lines) {w' : Exchange F}
    {c' : Connection} {lines' : List Line} (hchange : Change w c lines w' c' lines')
    (horderly : Orderly w.log) : Punctual w' c' := by
  have still : ∀ {request : Nat} {result : Except TransportFault Json} (new : List CallEvent),
      (∃ line, (linesSent w.log)[request - 1]? = some line ∧
        judgeWhole request line = .settled result) →
      ∃ line, (linesSent (w.log ++ new))[request - 1]? = some line ∧
        judgeWhole request line = .settled result := by
    rintro request result new ⟨line, hline, hjudged⟩
    refine ⟨line, ?_, hjudged⟩
    rw [linesSent_append, List.getElem?_append_left (List.getElem?_eq_some_iff.mp hline).1]
    exact hline
  cases hchange with
  | nothing hevents hwaiting =>
    exact { h with
      awaits := fun p request hwaits => h.awaits p request ((hwaiting p request).mp hwaits) }
  | @wrote session p program hevents hnobody =>
    have hread : linesRead (w.log ++ [.wrote p c.nextId program]) = linesRead w.log := by
      simp [linesRead]
    refine { behind := ?_, awaits := ?_, own := ?_ }
    · rw [hread]
      exact Nat.lt_succ_of_lt h.behind
    · intro q request hwaits
      rw [hread]
      by_cases hq : q = p
      · subst hq
        obtain rfl : c.nextId = request := by simpa using hwaits
        exact h.behind
      · dsimp only at hwaits
        rw [Function.update_of_ne hq] at hwaits
        exact absurd hwaits (hnobody q request)
    · intro q request read result hmem
      exact still _ (h.own q request read result (by simpa using hmem))
  | @read session p request hevents hcall hlast halone =>
    have hbefore := h.awaits p request hcall
    have hattend := Wire.attend_numbered hbefore (htold.numbered_left horderly)
    have hcount := Wire.length_attended request lines
    have hread : ∀ result, (linesRead (w.log ++
        [.read p request (attended request lines) result])).length =
          (linesRead w.log).length + (attended request lines).length := by
      intro result
      simp [linesRead]
    cases hresult : (attend request lines).1 with
    | none =>
      simp only [hresult] at hattend
      refine { behind := ?_, awaits := ?_, own := ?_ }
      · dsimp only
        rw [hread]
        omega
      · intro q other hwaits
        obtain rfl := halone q other hwaits
        have hwaits : w.calls q = some (.waiting other) := hwaits
        rw [hcall] at hwaits
        cases hwaits
        dsimp only
        rw [hread]
        omega
      · intro q other read result hmem
        exact still _ (h.own q other read result (by simpa using hmem))
    | some result =>
      simp only [hresult] at hattend
      obtain ⟨hreached, own, hown, hjudged⟩ := hattend
      refine { behind := ?_, awaits := ?_, own := ?_ }
      · dsimp only
        rw [hread]
        omega
      · intro q other hwaits
        by_cases hq : q = p
        · subst hq
          simp at hwaits
        · simp only [Option.isSome_some, if_true] at hwaits
          rw [Function.update_of_ne hq] at hwaits
          exact absurd (halone q other hwaits) hq
      · intro q other read found hmem
        rcases List.mem_append.mp hmem with hmem | hmem
        · exact still _ (h.own q other read found hmem)
        · obtain ⟨rfl, rfl, rfl, rfl⟩ : q = p ∧ other = request ∧
              read = attended request lines ∧ found = result := by simpa using hmem
          refine still _ ⟨own, ?_, hjudged⟩
          rw [← htold.order, List.getElem?_append_right (by omega), Nat.sub_right_comm]
          rw [Nat.sub_right_comm] at hown
          exact hown
  | @left session p stage hevents hcall =>
    have hread : linesRead (w.log ++ [.abandoned p stage]) = linesRead w.log := by
      simp [linesRead]
    refine { behind := ?_, awaits := ?_, own := ?_ }
    · rw [hread]
      exact h.behind
    · intro q request hwaits
      rw [hread]
      by_cases hq : q = p
      · subst hq
        simp at hwaits
      · dsimp only at hwaits
        rw [Function.update_of_ne hq] at hwaits
        exact h.awaits q request hwaits
    · intro q request read result hmem
      exact still _ (h.own q request read result (by simpa using hmem))
  | @came session new hevents =>
    have hread : linesRead (w.log ++ [.arrived new]) = linesRead w.log := by
      simp [linesRead]
    refine { behind := ?_, awaits := ?_, own := ?_ }
    · rw [hread]
      exact h.behind
    · intro q request hwaits
      rw [hread]
      exact h.awaits q request hwaits
    · intro q request read result hmem
      exact still _ (h.own q request read result (by simpa using hmem))

/-- Where the host answers in order, no request ever reads beyond its own reply. -/
theorem Punctual.run (hserving : Serving w s c line lines) (htold : Told w c lines)
    (h : Punctual w c) (moves : List ExchangeMove) (horderly : Orderly (w.run moves).log) :
    ∃ s' c' line' lines', Serving (w.run moves) s' c' line' lines' ∧
      Told (w.run moves) c' lines' ∧ Punctual (w.run moves) c' := by
  induction moves generalizing w s c line lines with
  | nil => exact ⟨s, c, line, lines, hserving, htold, h⟩
  | cons move moves ih =>
    obtain ⟨s', c', line', lines', hserving', hchange⟩ := hserving.step move
    have hearlier : Orderly w.log := horderly.earlier (w.log_prefix_run (move :: moves))
    exact ih hserving' (htold.change hchange) (h.change htold hchange hearlier) horderly

/-- A request whose own reply has come is settled by it when its party looks. -/
theorem Punctual.served (h : Punctual w c) (hserving : Serving w s c line lines)
    (htold : Told w c lines) (horderly : Orderly w.log) {p : Party} {request : Nat}
    (hcall : w.calls p = some (.waiting request)) (hcame : request ≤ (linesSent w.log).length) :
    ∃ own read result, (linesSent w.log)[request - 1]? = some own ∧
      judgeWhole request own = .settled result ∧
      (w.act (.go p)).log = w.log ++ [.read p request read (some result)] ∧
      (w.act (.go p)).calls p = none := by
  have hbefore := h.awaits p request hcall
  have hattend := Wire.attend_numbered hbefore (htold.numbered_left horderly)
  have hgo : w.act (.go p) = w.go p := rfl
  rw [hgo, hserving.go_read hcall]
  cases hresult : (attend request lines).1 with
  | none =>
    simp only [hresult] at hattend
    have hcount := congrArg List.length htold.order
    rw [List.length_append] at hcount
    omega
  | some result =>
    simp only [hresult] at hattend
    obtain ⟨-, own, hown, hjudged⟩ := hattend
    refine ⟨own, attended request lines, result, ?_, hjudged, rfl, by simp⟩
    rw [← htold.order, List.getElem?_append_right (by omega)]
    exact hown

/-! ## Calls do not get stuck -/

end Exchange

end RemoteHost
