import RemoteHost.Proofs.Rota

/-!
# Everything that a move can do

A move of a rota asks for a turn, hands a program over, ends a round trip or gives one up; or it
changes nothing that has to do with turns.
-/

namespace RemoteHost.Rota

variable {F : Type} {w w' : Rota F} {t : Ticket}
  {routine : Routine F (Except Fault Json)}

/-- A party is at a stage of a round trip in one of some lineages. It waits for its turn only where
calls queue. -/
def AtStage (s : Settings) (lineages : Nat) (p : Party)
    (trip : Ticket × Routine F (Except Fault Json)) : Prop :=
  trip.1.party = p ∧ trip.1.lineage < lineages ∧ ∃ stage, trip.2 = Stage.rest s trip.1 stage ∧
    (stage = .entering → s.stepConflict = .queue)

def Staged (w : Rota F) : Prop :=
  ∀ p trip, w.trips p = some trip → AtStage w.session.settings w.session.lineages.length p trip

/-- A call asks for its turn for the first time, or looks for it again. -/
inductive Asks (w : Rota F) (t : Ticket) : Nat → List TurnEvent → Prop where
  | first (hfree : w.trips t.party = none) (hnumber : t.number = w.issued) :
      Asks w t (w.issued + 1) (w.log ++ [.asked t])
  | again (hcall : w.trips t.party = some (t, Stage.rest w.session.settings t .entering)) :
      Asks w t w.issued w.log

/-- Everything that a move can do. -/
inductive Turning (w : Rota F) : Rota F → Prop where
  | aside {session : Session F} (hturns : session.turns = w.session.turns) :
      Turning w { w with session }
  | added {session : Session F} {label : String} {parent : Option LineageId}
      (hturns : session.turns = (w.session.settings,
        w.session.lineages ++ [{ label := label, parent := parent }])) :
      Turning w { w with session }
  | asks {session : Session F} {t : Ticket} {lineage : Lineage} {issued : Nat}
      {log : List TurnEvent} (hlineage : w.session.lineages[t.lineage]? = some lineage)
      (hasks : Asks w t issued log)
      (hfree : ¬(w.session.settings.stepConflict = .reject ∧ lineage.gate.isTakenFrom t.party))
      (hturns : session.turns = (w.session.settings, w.session.lineages.modify t.lineage
        ({ · with gate := (lineage.gate.ask t.party).2 }))) :
      Turning w
        { session, issued
          trips := Function.update w.trips t.party (some (t, Stage.rest w.session.settings t
            (if (lineage.gate.ask t.party).1 then .submitting else .entering)))
          log := if (lineage.gate.ask t.party).1 then log ++ [.entered t] else log }
  | refused {t : Ticket} {lineage : Lineage}
      (hlineage : w.session.lineages[t.lineage]? = some lineage)
      (hfree : w.trips t.party = none) (hnumber : t.number = w.issued)
      (hconflict : w.session.settings.stepConflict = .reject ∧ lineage.gate.isTakenFrom t.party) :
      Turning w
        { w with
          issued := w.issued + 1
          log := w.log ++ [.asked t] ++ [.refused t] ++
            [.returned t (.error (.usage (.stepConflict lineage.label)))] }
  | handed {session : Session F} {t : Ticket}
      (hcall : w.trips t.party = some (t, Stage.rest w.session.settings t .submitting))
      (hturns : session.turns = w.session.turns) :
      Turning w
        { w with
          session
          trips := Function.update w.trips t.party
            (some (t, Stage.rest w.session.settings t .collecting))
          log := w.log ++ [.handed t t.program] }
  | returned {session : Session F} {t : Ticket} {reply : Except TransportFault Json}
      (hcall : w.trips t.party = some (t, Stage.rest w.session.settings t .collecting))
      (hturns : session.turns = (w.session.settings, w.session.lineages.modify t.lineage fun l =>
        { l with roundTrips := l.roundTrips + 1, gate := l.gate.pass })) :
      Turning w
        { w with
          session
          trips := Function.update w.trips t.party none
          log := w.log ++ [.ended t] ++ [.returned t (resultOf reply)] }
  | left {session : Session F} {t : Ticket} {routine : Routine F (Except Fault Json)}
      (hcall : w.trips t.party = some (t, routine))
      (hsettings : session.settings = w.session.settings)
      (hlineages : ∀ l : LineageId, session.lineages[l]? =
        w.session.lineages[l]?.map fun x => { x with gate := x.gate.withdraw t.party }) :
      Turning w
        { w with
          session
          trips := Function.update w.trips t.party none
          log := w.log ++ [.left t] }

/-! ## Moves -/

theorem rest_inj {s : Settings} {a b : Stage}
    (h : (Stage.rest s t a : Routine F (Except Fault Json)) = Stage.rest s t b) : a = b := by
  cases a <;> cases b <;> simp [rest_entering, rest_submitting, rest_collecting] at h ⊢

theorem settings_of_turns {s : Session F} {settings : Settings} {lineages : List Lineage}
    (h : s.turns = (settings, lineages)) : s.settings = settings :=
  congrArg Prod.fst h

theorem lineages_of_turns {s : Session F} {settings : Settings} {lineages : List Lineage}
    (h : s.turns = (settings, lineages)) : s.lineages = lineages :=
  congrArg Prod.snd h

/-- A routine that goes on waiting leaves the rota as it was. -/
theorem update_trips (h : w.trips t.party = some (t, routine)) :
    Function.update w.trips t.party (some (t, routine)) = w.trips := by
  rw [← h]
  exact Function.update_eq_self _ _

theorem turning_begin {p : Party} {l : LineageId} (program : String) (hfree : w.trips p = none)
    (hl : l < w.session.lineages.length) : Turning w (w.begin p l program) := by
  obtain ⟨lineage, hlineage⟩ : ∃ lineage, w.session.lineages[l]? = some lineage :=
    ⟨_, List.getElem?_eq_getElem hl⟩
  let t : Ticket := ⟨w.issued, p, l, program⟩
  have hsame : Function.update w.trips t.party none = w.trips := by
    rw [← hfree]
    exact Function.update_eq_self _ _
  have hpoll := poll_entering (t := t)
    { w with issued := w.issued + 1, log := w.log ++ [.asked t] } w.session.settings hlineage
  have hbegin : w.begin p l program =
      ({ w with issued := w.issued + 1, log := w.log ++ [.asked t] } : Rota F).poll t
        (Stage.rest w.session.settings t .entering) := rfl
  rw [hbegin, hpoll]
  split
  · rename_i hconflict
    rw [hsame]
    exact .refused hlineage hfree rfl hconflict
  · rename_i hconflict
    exact .asks hlineage (.first hfree rfl) hconflict rfl

theorem turning_go (h : Staged w) (p : Party) : Turning w (w.go p) := by
  cases hcall : w.trips p with
  | none =>
    have hsame : w.go p = w := by simp [go, hcall]
    rw [hsame]
    exact .aside rfl
  | some trip =>
    obtain ⟨t, routine⟩ := trip
    have hstage := h p (t, routine) hcall
    simp only [AtStage] at hstage
    obtain ⟨rfl, hlt, stage, rfl, hqueue⟩ := hstage
    have hgo : w.go t.party = w.poll t (Stage.rest w.session.settings t stage) := by
      simp [go, hcall]
    rw [hgo]
    cases stage with
    | entering =>
      obtain ⟨lineage, hlineage⟩ : ∃ lineage, w.session.lineages[t.lineage]? = some lineage :=
        ⟨_, List.getElem?_eq_getElem hlt⟩
      have hfree : ¬(w.session.settings.stepConflict = .reject ∧
          lineage.gate.isTakenFrom t.party = true) := by
        rw [hqueue rfl]
        simp
      rw [poll_entering w w.session.settings hlineage, if_neg hfree]
      exact .asks hlineage (.again hcall) hfree rfl
    | submitting =>
      rw [poll_submitting]
      have hturns := Session.turns_submit w.session t.party t.program
      cases hanswer : w.session.submit t.party t.program with
      | mk answer session =>
        rw [hanswer] at hturns
        cases answer with
        | none =>
          dsimp only
          rw [update_trips hcall]
          exact .aside hturns
        | some done => exact .handed hcall hturns
    | collecting =>
      rw [poll_collecting]
      have hturns := Session.turns_collect w.session t.party
      cases hanswer : w.session.collect t.party with
      | mk answer session =>
        rw [hanswer] at hturns
        cases answer with
        | none =>
          dsimp only
          rw [update_trips hcall]
          exact .aside hturns
        | some reply =>
          refine .returned hcall ?_
          rw [Session.turns_complete, settings_of_turns hturns, lineages_of_turns hturns]

theorem turning (h : Staged w) (move : RotaMove) : Turning w (w.act move) := by
  cases move with
  | begin p l program =>
    simp only [act]
    split
    · rename_i hpossible
      exact turning_begin program (by simpa using hpossible.1) hpossible.2
    · exact .aside rfl
  | go p => exact turning_go h p
  | abandon p =>
    simp only [act]
    split
    · exact .aside rfl
    · rename_i t routine hcall
      obtain ⟨rfl, -, -⟩ := h p (t, routine) hcall
      obtain ⟨hsettings, hlineages⟩ := w.session.turns_abandon t.party
      exact .left hcall hsettings hlineages
  | addLineage label parent => exact .added rfl
  | host host => exact .aside rfl

/-! ## Stages -/

/-- Whoever has not waited in vain gets a turn that nobody else has. -/
theorem ask_of_free {g : Gate} {p : Party} (h : g.isTakenFrom p = false) : (g.ask p).1 = true := by
  unfold Gate.isTakenFrom at h
  unfold Gate.ask
  cases hholder : g.holder with
  | none => rfl
  | some holder =>
    rw [hholder] at h
    have hsame : holder = p := by simpa using h
    simp [hsame]

theorem Staged.of_trips (h : Staged w) (hsettings : w'.session.settings = w.session.settings)
    (hlength : w.session.lineages.length ≤ w'.session.lineages.length)
    (htrips : ∀ p trip, w'.trips p = some trip → w.trips p = some trip ∨
      AtStage w.session.settings w.session.lineages.length p trip) : Staged w' := by
  intro p trip hcall
  have hstands : AtStage w.session.settings w.session.lineages.length p trip := by
    rcases htrips p trip hcall with hold | hnew
    · exact h p trip hold
    · exact hnew
  obtain ⟨hparty, hlt, hstage⟩ := hstands
  rw [hsettings]
  exact ⟨hparty, Nat.lt_of_lt_of_le hlt hlength, hstage⟩

theorem Staged.update (h : Staged w) {session : Session F} {issued : Nat} {log : List TurnEvent}
    (hsettings : session.settings = w.session.settings)
    (hlength : w.session.lineages.length ≤ session.lineages.length)
    (p : Party) (trip : Option (Ticket × Routine F (Except Fault Json)))
    (htrip : ∀ new, trip = some new →
      AtStage w.session.settings w.session.lineages.length p new) :
    Staged (⟨session, Function.update w.trips p trip, issued, log⟩ : Rota F) := by
  refine h.of_trips hsettings hlength ?_
  intro q new hcall
  by_cases hq : q = p
  · subst hq
    dsimp only at hcall
    rw [Function.update_self] at hcall
    exact .inr (htrip new hcall)
  · dsimp only at hcall
    rw [Function.update_of_ne hq] at hcall
    exact .inl hcall

theorem Staged.turning (h : Staged w) (hturning : Turning w w') : Staged w' := by
  cases hturning with
  | aside hturns =>
    have hlineages := lineages_of_turns hturns
    exact h.of_trips (settings_of_turns hturns) (Nat.le_of_eq (congrArg _ hlineages.symm))
      fun _ _ hcall => .inl hcall
  | added hturns =>
    refine h.of_trips (settings_of_turns hturns) ?_ fun _ _ hcall => .inl hcall
    rw [lineages_of_turns hturns, List.length_append]
    exact Nat.le_add_right _ _
  | @asks session t lineage issued log hlineage hasks hfree hturns =>
    have hlength : session.lineages.length = w.session.lineages.length := by
      rw [lineages_of_turns hturns, List.length_modify]
    refine h.update (settings_of_turns hturns) (Nat.le_of_eq hlength.symm) t.party _ ?_
    rintro new hnew
    obtain rfl := Option.some.inj hnew
    refine ⟨rfl, (List.getElem?_eq_some_iff.mp hlineage).1, _, rfl, ?_⟩
    intro hwaits
    -- Where calls do not queue, whoever is not refused has the turn at once.
    cases hpolicy : w.session.settings.stepConflict with
    | queue => rfl
    | reject =>
      have hgranted := ask_of_free (by simpa [hpolicy] using hfree)
      rw [hgranted] at hwaits
      cases hwaits
  | refused => exact h.of_trips rfl (Nat.le_refl _) fun _ _ hcall => .inl hcall
  | @handed session t hcall hturns =>
    have hlineages := lineages_of_turns hturns
    obtain ⟨-, hlt, -⟩ := h t.party _ hcall
    refine h.update (settings_of_turns hturns) (Nat.le_of_eq (congrArg _ hlineages.symm)) t.party _
      ?_
    rintro new hnew
    obtain rfl := Option.some.inj hnew
    exact ⟨rfl, hlt, .collecting, rfl, nofun⟩
  | @returned session t reply hcall hturns =>
    have hlength : session.lineages.length = w.session.lineages.length := by
      rw [lineages_of_turns hturns, List.length_modify]
    exact h.update (settings_of_turns hturns) (Nat.le_of_eq hlength.symm) t.party none nofun
  | @left session t routine hcall hsettings hlineages =>
    refine h.update hsettings (Nat.le_of_not_lt fun hlt => ?_) t.party none nofun
    have hout := hlineages session.lineages.length
    rw [List.getElem?_eq_none (Nat.le_refl _), List.getElem?_eq_getElem hlt] at hout
    cases hout

end RemoteHost.Rota
