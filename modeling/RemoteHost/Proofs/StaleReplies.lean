import RemoteHost.Proofs.ReplyMatching

/-!
# Late replies leave no trace

Two exchanges with the same moves, but that the host sends one line less in the second: as long as
that line is a reply with a smaller number than the request that reads it, all requests come to the
same results.
-/

namespace RemoteHost

open Wire (Line Connection lineBreak lineBytes attend attended judgeWhole numberOf)

variable {F : Type}

namespace Wire

variable {id : Nat} {extra : Line} {front back : List Line}

/-- A line that is passed over by the request that comes to it makes no difference. -/
theorem attend_without (back : List Line)
    (hstale : (attend id front).1 = none → judgeWhole id extra = .stale) :
    (attend id (front ++ back)).1 = (attend id (front ++ extra :: back)).1 ∧
      match (attend id front).1 with
      | none => (attend id (front ++ back)).2 = (attend id (front ++ extra :: back)).2
      | some _ => (attend id (front ++ extra :: back)).2 = (attend id front).2 ++ extra :: back ∧
          (attend id (front ++ back)).2 = (attend id front).2 ++ back := by
  cases hfront : (attend id front).1 with
  | none =>
    have hjudged := hstale hfront
    rw [attend_append_of_none hfront, attend_append_of_none hfront]
    simp [attend, hjudged]
  | some result =>
    rw [attend_append_of_some hfront, attend_append_of_some hfront]
    exact ⟨rfl, rfl, rfl⟩

theorem length_attended (id : Nat) (lines : List Line) :
    (attended id lines).length + (attend id lines).2.length = lines.length := by
  have hsplit := congrArg List.length (attend_reads id lines).1
  rw [List.length_append] at hsplit
  exact hsplit.symm

/-- A request that finds nothing before a line reads that line. -/
theorem length_lt_attended (extra : Line) (back : List Line) (h : (attend id front).1 = none) :
    front.length < (attended id (front ++ extra :: back)).length := by
  have hcount := length_attended id (front ++ extra :: back)
  have hrest := length_attended id (extra :: back)
  have hread : (attend id (extra :: back)).2.length ≤ back.length := by
    cases hjudged : judgeWhole id extra with
    | settled result => simp [attend, hjudged]
    | stale =>
      have hback := length_attended id back
      simp only [attend, hjudged]
      omega
  rw [attend_append_of_none h, List.length_append, List.length_cons] at hcount
  omega

end Wire

namespace Exchange

variable {w w' : Exchange F} {s s' : Session F} {c c' : Connection} {line : List Party}
  {lines lines' : List Line} {extra : Line} {place number : Nat} {p : Party} {program : String}
  {request : Nat}

/-! ## Logs grow -/

theorem log_prefix_act (w : Exchange F) (move : ExchangeMove) : w.log <+: (w.act move).log := by
  cases move with
  | call p program => simp only [act]; split <;> exact List.prefix_refl _
  | go p =>
    simp only [act, go]
    split
    · exact List.prefix_refl _
    · split
      · exact List.prefix_refl _
      · exact List.prefix_append _ _
    · exact List.prefix_append _ _
  | abandon p =>
    simp only [act]
    split
    · exact List.prefix_refl _
    · exact List.prefix_append _ _
  | arrive new =>
    simp only [act]
    split
    · exact List.prefix_refl _
    · exact List.prefix_append _ _

theorem log_prefix_run (w : Exchange F) (moves : List ExchangeMove) :
    w.log <+: (w.run moves).log := by
  induction moves generalizing w with
  | nil => exact List.prefix_refl _
  | cons move moves ih => exact (w.log_prefix_act move).trans (ih (w.act move))

theorem readers_grow {log later : List CallEvent} (h : log <+: later) :
    readers log <+: readers later := by
  obtain ⟨new, rfl⟩ := h
  rw [readers_append]
  exact List.prefix_append _ _

/-! ## Two exchanges -/

/-- Two exchanges with the same calls, the same line for the connection and the same results. -/
structure Paired (w w' : Exchange F) (s s' : Session F) (c c' : Connection) (line : List Party)
    (lines lines' : List Line) : Prop where
  here : Serving w s c line lines
  there : Serving w' s' c' line lines'
  calls : w'.calls = w.calls
  number : c'.nextId = c.nextId
  outcomes : results w'.log = results w.log

/-- The lines that two exchanges have to read: in the second one a line is missing that stands, or
stood, at some place of all the lines. -/
inductive Spared (extra : Line) (place : Nat) (w : Exchange F) : List Line → List Line → Prop where
  | ahead {front back : List Line} (hplace : (readers w.log).length + front.length = place) :
      Spared extra place w (front ++ extra :: back) (front ++ back)
  | past {lines : List Line} : Spared extra place w lines lines

theorem Spared.of_readers (h : Spared extra place w lines lines')
    (hreaders : readers w'.log = readers w.log) : Spared extra place w' lines lines' := by
  cases h with
  | ahead hplace => exact .ahead (by rw [hreaders]; exact hplace)
  | past => exact .past

namespace Paired

theorem called (h : Paired w w' s s' c c' line lines lines') (hfree : w.calls p = none)
    (program : String) :
    Paired { w with calls := Function.update w.calls p (some (.asking program)) }
      { w' with calls := Function.update w'.calls p (some (.asking program)) }
      s s' c c' line lines lines' where
  here := h.here.called hfree program
  there := h.there.called (by rw [h.calls]; exact hfree) program
  calls := by rw [h.calls]
  number := h.number
  outcomes := h.outcomes

theorem go_asking (h : Paired w w' s s' c c' line lines lines')
    (hcall : w.calls p = some (.asking program)) : ∃ s₁ s₁' c₁ c₁' line₁,
      Paired (w.go p) (w'.go p) s₁ s₁' c₁ c₁' line₁ lines lines' ∧
        readers (w.go p).log = readers w.log := by
  have hcall' : w'.calls p = some (.asking program) := by rw [h.calls, hcall]
  by_cases hfirst : (Gate.joined line p).head? = some p
  · rw [h.here.go_wrote hcall hfirst, h.there.go_wrote hcall' hfirst]
    refine ⟨_, _, _, _, _,
      { here := h.here.wrote hcall hfirst _, there := h.there.wrote hcall' hfirst _
        calls := ?_, number := congrArg (· + 1) h.number, outcomes := ?_ }, ?_⟩
    · dsimp only
      rw [h.calls, h.number]
    · rw [results_append, results_append, h.outcomes]
      rfl
    · simp [readers]
  · rw [h.here.go_queued hcall hfirst, h.there.go_queued hcall' hfirst]
    exact ⟨_, _, _, _, _,
      { h with here := h.here.queued hcall, there := h.there.queued hcall' }, rfl⟩

theorem go_waiting (h : Paired w w' s s' c c' line lines lines')
    (hcall : w.calls p = some (.waiting request))
    (hsame : (attend request lines').1 = (attend request lines).1) : ∃ s₁ s₁' c₁ c₁' line₁,
      Paired (w.go p) (w'.go p) s₁ s₁' c₁ c₁' line₁ (attend request lines).2
        (attend request lines').2 := by
  have hcall' : w'.calls p = some (.waiting request) := by rw [h.calls, hcall]
  have hhere := h.here.read hcall
    (w.log ++ [.read p request (attended request lines) (attend request lines).1])
  have hthere := h.there.read hcall'
    (w'.log ++ [.read p request (attended request lines') (attend request lines').1])
  rw [h.here.go_read hcall, h.there.go_read hcall']
  rw [hsame] at hthere ⊢
  refine ⟨_, _, _, _, _,
    { here := hhere, there := hthere, calls := ?_, number := h.number, outcomes := ?_ }⟩
  · dsimp only
    rw [h.calls]
  · rw [results_append, results_append, h.outcomes]
    cases (attend request lines).1 <;> rfl

theorem left (h : Paired w w' s s' c c' line lines lines') {stage : CallStage}
    (hcall : w.calls p = some stage) : ∃ s₁ s₁' line₁,
      Paired (w.act (.abandon p)) (w'.act (.abandon p)) s₁ s₁' c c' line₁ lines lines' ∧
        readers (w.act (.abandon p)).log = readers w.log := by
  have hcall' : w'.calls p = some stage := by rw [h.calls, hcall]
  simp only [act, hcall, hcall', h.here.abandon p, h.there.abandon p]
  refine ⟨_, _, _,
    { here := h.here.left p _, there := h.there.left p _, calls := ?_, number := h.number
      outcomes := ?_ }, ?_⟩
  · dsimp only
    rw [h.calls]
  · simpa [results] using h.outcomes
  · simp [readers]

theorem came (h : Paired w w' s s' c c' line lines lines') {new : Line}
    (hnew : lineBreak ∉ new) : ∃ s₁ s₁' c₁ c₁',
      Paired (w.act (.arrive new)) (w'.act (.arrive new)) s₁ s₁' c₁ c₁' line (lines ++ [new])
        (lines' ++ [new]) ∧ readers (w.act (.arrive new)).log = readers w.log := by
  simp only [act, hnew, if_false, h.here.receive, h.there.receive]
  refine ⟨_, _, _, _,
    { here := h.here.came hnew _, there := h.there.came hnew _, calls := h.calls
      number := h.number, outcomes := ?_ }, ?_⟩
  · simpa [results] using h.outcomes
  · simp [readers]

end Paired

/-- A reading that reaches the line in question passes over it, or leaves it for a later one. -/
theorem Spared.read (h : Spared extra place w lines lines')
    (hserving : Serving w s c line lines) (hnumber : numberOf extra = some number)
    (hcall : w.calls p = some (.waiting request))
    (hreader : ∀ reader, (readers (w.go p).log)[place]? = some reader → number < reader) :
    (attend request lines').1 = (attend request lines).1 ∧
      Spared extra place (w.go p) (attend request lines).2 (attend request lines').2 := by
  cases h with
  | past => exact ⟨rfl, .past⟩
  | @ahead front back hplace =>
    rw [hserving.go_read hcall] at hreader ⊢
    have hreaders : ∀ result, readers (w.log ++ [.read p request
        (attended request (front ++ extra :: back)) result]) =
        readers w.log ++ (attended request (front ++ extra :: back)).map fun _ => request := by
      intro result
      simp [readers]
    dsimp only at hreader
    rw [hreaders] at hreader
    have hstale : (attend request front).1 = none → judgeWhole request extra = .stale := by
      intro hfront
      have hlt := Wire.length_lt_attended extra back hfront
      refine Wire.judgeWhole_eq_stale.mpr ⟨number, hnumber, hreader request ?_⟩
      rw [← hplace, List.getElem?_append_right (Nat.le_add_right _ _), Nat.add_sub_cancel_left]
      simp [hlt]
    obtain ⟨hsame, hleft⟩ := Wire.attend_without back hstale
    refine ⟨hsame, ?_⟩
    cases hfront : (attend request front).1 with
    | none =>
      simp only [hfront] at hleft
      rw [hleft]
      exact .past
    | some result =>
      simp only [hfront] at hleft
      obtain ⟨hhere, hthere⟩ := hleft
      rw [hhere, hthere]
      have hcount := Wire.length_attended request (front ++ extra :: back)
      rw [hhere, List.length_append, List.length_append, List.length_cons] at hcount
      refine .ahead ?_
      dsimp only
      rw [hreaders, List.length_append, List.length_map]
      omega

theorem Paired.step (h : Paired w w' s s' c c' line lines lines')
    (hspared : Spared extra place w lines lines') (hnumber : numberOf extra = some number)
    (move : ExchangeMove)
    (hreader : ∀ reader, (readers (w.act move).log)[place]? = some reader → number < reader) :
    ∃ s₁ s₁' c₁ c₁' line₁ lines₁ lines₁',
      Paired (w.act move) (w'.act move) s₁ s₁' c₁ c₁' line₁ lines₁ lines₁' ∧
        Spared extra place (w.act move) lines₁ lines₁' := by
  cases move with
  | call p program =>
    cases hcall : w.calls p with
    | none =>
      have hcall' : w'.calls p = none := by rw [h.calls, hcall]
      simp only [act, hcall, hcall', Option.isNone_none, if_true]
      exact ⟨_, _, _, _, _, _, _, h.called hcall program, hspared.of_readers rfl⟩
    | some stage =>
      have hcall' : w'.calls p = some stage := by rw [h.calls, hcall]
      simp only [act, hcall, hcall', Option.isNone_some, Bool.false_eq_true, if_false]
      exact ⟨_, _, _, _, _, _, _, h, hspared⟩
  | go p =>
    cases hcall : w.calls p with
    | none =>
      have hcall' : w'.calls p = none := by rw [h.calls, hcall]
      simp only [act, go, hcall, hcall']
      exact ⟨_, _, _, _, _, _, _, h, hspared⟩
    | some stage =>
      cases stage with
      | asking program =>
        obtain ⟨_, _, _, _, _, hpaired, hreaders⟩ := h.go_asking hcall
        exact ⟨_, _, _, _, _, _, _, hpaired, hspared.of_readers hreaders⟩
      | waiting request =>
        obtain ⟨hsame, hrest⟩ := hspared.read h.here hnumber hcall hreader
        obtain ⟨_, _, _, _, _, hpaired⟩ := h.go_waiting hcall hsame
        exact ⟨_, _, _, _, _, _, _, hpaired, hrest⟩
  | abandon p =>
    cases hcall : w.calls p with
    | none =>
      have hcall' : w'.calls p = none := by rw [h.calls, hcall]
      simp only [act, hcall, hcall']
      exact ⟨_, _, _, _, _, _, _, h, hspared⟩
    | some stage =>
      obtain ⟨_, _, _, hpaired, hreaders⟩ := h.left hcall
      exact ⟨_, _, _, _, _, _, _, hpaired, hspared.of_readers hreaders⟩
  | arrive new =>
    by_cases hnew : lineBreak ∈ new
    · simp only [act, hnew, if_true]
      exact ⟨_, _, _, _, _, _, _, h, hspared⟩
    · obtain ⟨_, _, _, _, hpaired, hreaders⟩ := h.came hnew
      refine ⟨_, _, _, _, _, _, _, hpaired, ?_⟩
      cases hspared with
      | past => exact .past
      | @ahead front back hplace =>
        rw [List.append_assoc, List.append_assoc, List.cons_append]
        exact .ahead (by rw [hreaders]; exact hplace)

/-- Two exchanges stay paired over all the moves that follow. -/
theorem Paired.run (h : Paired w w' s s' c c' line lines lines')
    (hspared : Spared extra place w lines lines') (hnumber : numberOf extra = some number)
    (moves : List ExchangeMove)
    (hreader : ∀ reader, (readers (w.run moves).log)[place]? = some reader → number < reader) :
    results (w'.run moves).log = results (w.run moves).log ∧
      (w'.run moves).calls = (w.run moves).calls := by
  induction moves generalizing w w' s s' c c' line lines lines' with
  | nil => exact ⟨h.outcomes, h.calls⟩
  | cons move moves ih =>
    have hnow : ∀ reader, (readers (w.act move).log)[place]? = some reader → number < reader := by
      intro reader hread
      obtain ⟨new, hnew⟩ := readers_grow ((w.act move).log_prefix_run moves)
      refine hreader reader ?_
      change (readers ((w.act move).run moves).log)[place]? = some reader
      rw [← hnew, List.getElem?_append_left (List.getElem?_eq_some_iff.mp hread).1]
      exact hread
    obtain ⟨_, _, _, _, _, _, _, hpaired, hspared⟩ := h.step hspared hnumber move hnow
    exact ih hpaired hspared hreader

end Exchange

end RemoteHost
