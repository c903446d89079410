import Mathlib.Data.List.Nodup
import RemoteHost.Proofs.TurnLog

/-!
# Turns are taken in the order of asking

What follows where calls queue: one round trip of a lineage at a time, in the order of asking, each
counted once, and nobody waits while the turn is free. A lineage is what its own calls make of it.
-/

namespace RemoteHost.Rota

variable {F : Type} {w w' : Rota F} {t : Ticket} {line : LineageId → List Ticket}

/-- What an event of the log does to a lineage. -/
def relive (l : LineageId) (x : Lineage) : TurnEvent → Lineage
  | .asked t => if t.lineage = l then { x with gate := (x.gate.ask t.party).2 } else x
  | .ended t =>
    if t.lineage = l then { x with roundTrips := x.roundTrips + 1, gate := x.gate.pass } else x
  | .left t => if t.lineage = l then { x with gate := x.gate.withdraw t.party } else x
  | _ => x

/-- Every lineage is what the log makes of a new one. -/
structure Relived (w : Rota F) : Prop where
  lineages : ∀ (l : LineageId) lineage, w.session.lineages[l]? = some lineage → ∃ label parent,
    lineage = w.log.foldl (relive l) { label, parent }
  later : ∀ l, w.session.lineages.length ≤ l → ∀ x, w.log.foldl (relive l) x = x

theorem Relived.of_lineages (h : Relived w) (hlineages : w'.session.lineages = w.session.lineages)
    (hlog : ∀ l x, w'.log.foldl (relive l) x = w.log.foldl (relive l) x) : Relived w' where
  lineages l lineage hlineage := by
    rw [hlineages] at hlineage
    obtain ⟨label, parent, hrelived⟩ := h.lineages l lineage hlineage
    exact ⟨label, parent, by rw [hlog]; exact hrelived⟩
  later l hl x := by
    rw [hlineages] at hl
    rw [hlog]
    exact h.later l hl x

/-- An event of one call changes the lineage of the call and no other. -/
theorem Relived.event (h : Relived w) (t : Ticket) (change : Lineage → Lineage)
    (hlt : t.lineage < w.session.lineages.length)
    (hlineages : ∀ l : LineageId, w'.session.lineages[l]? =
      if l = t.lineage then w.session.lineages[l]?.map change else w.session.lineages[l]?)
    (hlog : ∀ l x, w'.log.foldl (relive l) x =
      if l = t.lineage then change (w.log.foldl (relive l) x) else w.log.foldl (relive l) x) :
    Relived w' := by
  constructor
  · intro l lineage hlineage
    rw [hlineages] at hlineage
    by_cases hl : l = t.lineage
    · rw [if_pos hl] at hlineage
      obtain ⟨before, hbefore, rfl⟩ := Option.map_eq_some_iff.mp hlineage
      obtain ⟨label, parent, rfl⟩ := h.lineages l before hbefore
      exact ⟨label, parent, by rw [hlog, if_pos hl]⟩
    · rw [if_neg hl] at hlineage
      obtain ⟨label, parent, hrelived⟩ := h.lineages l lineage hlineage
      exact ⟨label, parent, by rw [hlog, if_neg hl]; exact hrelived⟩
  · intro l hl x
    have hout : w.session.lineages[l]? = none := by
      have hnone := List.getElem?_eq_none hl
      rw [hlineages] at hnone
      split at hnone
      · exact Option.map_eq_none_iff.mp hnone
      · exact hnone
    have hbeyond := List.getElem?_eq_none_iff.mp hout
    have hne : l ≠ t.lineage := fun heq => absurd hlt (Nat.not_lt.mpr (heq ▸ hbeyond))
    rw [hlog, if_neg hne]
    exact h.later l hbeyond x

/-- An update of one lineage, as a change of what is found at a number. -/
theorem getElem?_modify_eq {lineages : List Lineage} {change : Lineage → Lineage}
    (k l : LineageId) : (lineages.modify k change)[l]? =
      if l = k then lineages[l]?.map change else lineages[l]? := by
  rw [List.getElem?_modify]
  by_cases hl : l = k
  · subst hl
    simp
  · have hne : k ≠ l := fun heq => hl heq.symm
    simp [hl, hne]

/-- Asking again where one stands in line already changes nothing. -/
theorem modify_again (h : Lined w line) {lineage : Lineage} {routine : Routine F _}
    (hcall : w.trips t.party = some (t, routine))
    (hlineage : w.session.lineages[t.lineage]? = some lineage) :
    w.session.lineages.modify t.lineage ({ · with gate := (lineage.gate.ask t.party).2 }) =
      w.session.lineages := by
  have hin : t.party ∈ (line t.lineage).map (·.party) :=
    h.mem_parties.mpr ⟨t, routine, hcall, rfl, rfl⟩
  have hsame : (lineage.gate.ask t.party).2 = lineage.gate := by
    rw [h.gates _ lineage hlineage, Gate.ask_ofLine (h.nodup_parties _), Gate.joined, if_pos hin]
  refine List.ext_getElem? fun l => ?_
  rw [getElem?_modify_eq]
  by_cases hl : l = t.lineage
  · rw [if_pos hl, hl, hlineage, Option.map_some, hsame]
  · rw [if_neg hl]

theorem Relived.turning (h : Relived w) (hkept : Kept w line) (hturning : Turning w w')
    (hqueue : w.session.settings.stepConflict = .queue) : Relived w' := by
  cases hturning with
  | aside hturns => exact h.of_lineages (lineages_of_turns hturns) fun _ _ => rfl
  | @added session label parent hturns =>
    have hlineages := lineages_of_turns hturns
    constructor
    · intro l lineage hlineage
      rw [hlineages] at hlineage
      rcases Nat.lt_or_ge l w.session.lineages.length with hl | hl
      · rw [List.getElem?_append_left hl] at hlineage
        exact h.lineages l lineage hlineage
      · rw [List.getElem?_append_right hl] at hlineage
        refine ⟨label, parent, ?_⟩
        rw [h.later l hl]
        exact List.mem_singleton.mp (List.mem_of_getElem? hlineage)
    · intro l hl
      rw [hlineages, List.length_append] at hl
      exact h.later l (Nat.le_of_add_right_le hl)
  | @asks session t lineage issued log hlineage hasks hfree hturns =>
    have hlineages := lineages_of_turns hturns
    have hlt := (List.getElem?_eq_some_iff.mp hlineage).1
    have hentered : ∀ (granted : Bool) l x,
        (if granted then log ++ [.entered t] else log).foldl (relive l) x =
          log.foldl (relive l) x := by
      intro granted l x
      cases granted with
      | false => rfl
      | true => simp [relive]
    cases hasks with
    | first hfree hnumber =>
      refine h.event t (fun x => { x with gate := (x.gate.ask t.party).2 }) hlt ?_ ?_
      · intro l
        dsimp only
        rw [hlineages, getElem?_modify_eq]
        by_cases hl : l = t.lineage
        · rw [if_pos hl, if_pos hl, hl, hlineage]
          rfl
        · rw [if_neg hl, if_neg hl]
      · intro l x
        rw [hentered, List.foldl_append]
        by_cases hl : l = t.lineage
        · simp [relive, hl]
        · have hne : t.lineage ≠ l := fun heq => hl heq.symm
          simp [relive, hl, hne]
    | again hcall =>
      rw [modify_again hkept.lined hcall hlineage] at hlineages
      exact h.of_lineages hlineages (hentered _)
  | @refused t lineage hlineage hfree hnumber hconflict =>
    rw [hqueue] at hconflict
    cases hconflict.1
  | @handed session t hcall hturns =>
    exact h.of_lineages (lineages_of_turns hturns) fun l x => by simp [relive]
  | @returned session t reply hcall hturns =>
    obtain ⟨-, hlt, -⟩ := hkept.staged t.party _ hcall
    refine h.event t (fun x => { x with roundTrips := x.roundTrips + 1, gate := x.gate.pass }) hlt
      ?_ ?_
    · intro l
      dsimp only
      rw [lineages_of_turns hturns, getElem?_modify_eq]
    · intro l x
      rw [List.foldl_append, List.foldl_append]
      by_cases hl : l = t.lineage
      · simp [relive, hl]
      · have hne : t.lineage ≠ l := fun heq => hl heq.symm
        simp [relive, hl, hne]
  | @left session t routine hcall hsettings hlineages =>
    obtain ⟨-, hlt, -⟩ := hkept.staged t.party _ hcall
    refine h.event t (fun x => { x with gate := x.gate.withdraw t.party }) hlt ?_ ?_
    · intro l
      dsimp only
      rw [hlineages l]
      by_cases hl : l = t.lineage
      · rw [if_pos hl]
      · rw [if_neg hl]
        cases hold : w.session.lineages[l]? with
        | none => rfl
        | some lineage =>
          have hparty : t.party ∉ (line l).map (·.party) := by
            intro hmem
            obtain ⟨u, other, hother, hul, -⟩ := hkept.lined.mem_parties.mp hmem
            rw [hcall] at hother
            obtain rfl : t = u := congrArg Prod.fst (Option.some.inj hother)
            exact hl hul.symm
          have hsame : lineage.gate.withdraw t.party = lineage.gate := by
            rw [hkept.lined.gates l lineage hold, Gate.withdraw_ofLine,
              List.erase_of_not_mem hparty]
          rw [Option.map_some, hsame]
    · intro l x
      rw [List.foldl_append]
      by_cases hl : l = t.lineage
      · simp [relive, hl]
      · have hne : t.lineage ≠ l := fun heq => hl heq.symm
        simp [relive, hl, hne]

theorem Turning.settings (h : Turning w w') : w'.session.settings = w.session.settings := by
  cases h with
  | aside hturns | added hturns | asks _ _ _ hturns | handed _ hturns | returned _ hturns =>
    exact settings_of_turns hturns
  | refused => rfl
  | left _ hsettings => exact hsettings

theorem run_relived {settings : Settings} (hqueue : settings.stepConflict = .queue)
    (hkept : Kept w line) (h : Relived w) (hsettings : w.session.settings = settings)
    (moves : List RotaMove) :
    Relived (w.run moves) ∧ (w.run moves).session.settings = settings := by
  induction moves generalizing w line with
  | nil => exact ⟨h, hsettings⟩
  | cons move moves ih =>
    have hturning := Rota.turning hkept.staged move
    obtain ⟨line', hkept'⟩ := hkept.turning hturning
    have hrelived := h.turning hkept hturning (by rw [hsettings]; exact hqueue)
    exact ih hkept' hrelived (hturning.settings.trans hsettings)

/-! ## What is counted, and how often -/

theorem roundTrips_relive (l : LineageId) (log : List TurnEvent) (x : Lineage) :
    (log.foldl (relive l) x).roundTrips =
      x.roundTrips + ((ended log).filter fun t => t.lineage = l).length := by
  induction log generalizing x with
  | nil => rfl
  | cons event log ih =>
    rw [List.foldl_cons, ih]
    cases event with
    | ended t =>
      by_cases hl : t.lineage = l
      · simp only [relive, ended, hl, if_true, List.filterMap_cons, decide_true,
          List.filter_cons_of_pos, List.length_cons]
        omega
      · simp [relive, ended, hl]
    | asked t | left t =>
      by_cases hl : t.lineage = l <;> simp [relive, ended, hl]
    | entered t | refused t | handed t program | returned t result => rfl

theorem Relived.roundTrips (h : Relived w) (l : LineageId) :
    w.session.roundTrips l = ((ended w.log).filter fun t => t.lineage = l).length := by
  unfold Session.roundTrips
  cases hlineage : w.session.lineages[l]? with
  | none =>
    have hlater := h.later l (List.getElem?_eq_none_iff.mp hlineage) { label := "" }
    have hcount := roundTrips_relive l w.log { label := "" }
    rw [hlater] at hcount
    simpa using hcount
  | some lineage =>
    obtain ⟨label, parent, hrelived⟩ := h.lineages l lineage hlineage
    have hcount := roundTrips_relive l w.log { label, parent }
    rw [← hrelived] at hcount
    simpa using hcount

theorem Logged.nodup_asked (h : Logged w line) : (asked w.log).Nodup := by
  have hnumbers : ((asked w.log).map (·.number)).Nodup := h.issued ▸ List.nodup_range
  exact (List.pairwise_map.mp hnumbers).imp fun hne heq => hne (congrArg _ heq)

theorem Logged.handed_prefix_standing (h : Logged w line) (l : LineageId) :
    ((Rota.handed w.log).filter fun t => t.lineage = l) <+: standing l w.log :=
  ⟨_, (h.order l).symm⟩

theorem Logged.count_handed (h : Logged w line) (hmem : t ∈ Rota.handed w.log) :
    (Rota.handed w.log).count t = 1 := by
  have hown : (Rota.handed w.log).count t =
      ((Rota.handed w.log).filter fun u => u.lineage = t.lineage).count t :=
    (List.count_filter (by simp)).symm
  have hnodup : ((Rota.handed w.log).filter fun u => u.lineage = t.lineage).Nodup :=
    (h.nodup_asked.filter _).sublist (h.handed_prefix_standing t.lineage).sublist
  rw [hown]
  exact List.count_eq_one_of_mem hnodup (List.mem_filter.mpr ⟨hmem, by simp⟩)

theorem run_refused {settings : Settings} (hqueue : settings.stepConflict = .queue)
    (hkept : Kept w line) (hsettings : w.session.settings = settings)
    (h : ∀ t, .refused t ∉ w.log) (moves : List RotaMove) :
    ∀ t, .refused t ∉ (w.run moves).log := by
  induction moves generalizing w line with
  | nil => exact h
  | cons move moves ih =>
    have hturning := Rota.turning hkept.staged move
    obtain ⟨line', hkept'⟩ := hkept.turning hturning
    refine ih hkept' (hturning.settings.trans hsettings) fun t => ?_
    generalize w.act move = w' at hturning
    cases hturning with
    | aside | added => exact h t
    | asks hlineage hasks hfree hturns =>
      have hlog : ∀ {log : List TurnEvent} {issued u}, Asks w u issued log → .refused t ∉ log := by
        intro log issued u hasks
        cases hasks with
        | first hfree hnumber => simpa using h t
        | again hcall => exact h t
      split
      · simpa using hlog hasks
      · exact hlog hasks
    | refused hlineage hfree hnumber hconflict =>
      rw [hsettings, hqueue] at hconflict
      cases hconflict.1
    | handed | returned | left => simpa using h t

/-! ## Nobody waits for nothing -/

/-- Who waits in a lineage waits for somebody who makes a round trip in it. -/
theorem Kept.somebody_has_turn (h : Kept w line) {l : LineageId} {lineage : Lineage}
    (hlineage : w.session.lineages[l]? = some lineage) (hwaiting : lineage.gate.waiting ≠ []) :
    ∃ t routine, lineage.gate.holder = some t.party ∧ w.trips t.party = some (t, routine) ∧
      t.lineage = l := by
  have hgate := h.lined.gates l lineage hlineage
  rw [hgate] at hwaiting ⊢
  cases hline : line l with
  | nil =>
    rw [hline] at hwaiting
    exact absurd rfl hwaiting
  | cons head rest =>
    obtain ⟨hl, routine, hcall⟩ := (h.lined.mem l head).mp (hline ▸ List.mem_cons_self)
    exact ⟨head, routine, rfl, hcall, hl⟩

/-- Whoever was given the turn takes it at the next look. -/
theorem takes_turn {lineage : Lineage}
    (hcall : w.trips t.party = some (t, Stage.rest w.session.settings t .entering))
    (hlineage : w.session.lineages[t.lineage]? = some lineage)
    (hholder : lineage.gate.holder = some t.party)
    (hqueue : w.session.settings.stepConflict = .queue) :
    (w.act (.go t.party)).log = w.log ++ [.entered t] := by
  have hgo : w.act (.go t.party) = w.poll t (Stage.rest w.session.settings t .entering) := by
    simp [act, go, hcall]
  have hgranted : (lineage.gate.ask t.party).1 = true := by simp [Gate.ask, hholder]
  rw [hgo, poll_entering w w.session.settings hlineage, if_neg (by simp [hqueue])]
  simp [hgranted]

/-- A turn that is free is given at once. -/
theorem begins_at_once {p : Party} {l : LineageId} (program : String) {lineage : Lineage}
    (hfree : w.trips p = none) (hlineage : w.session.lineages[l]? = some lineage)
    (hholder : lineage.gate.holder = none) (hqueue : w.session.settings.stepConflict = .queue) :
    (w.act (.begin p l program)).log = w.log ++ [.asked ⟨w.issued, p, l, program⟩] ++
      [.entered ⟨w.issued, p, l, program⟩] := by
  have hlt := (List.getElem?_eq_some_iff.mp hlineage).1
  have hbegin : w.act (.begin p l program) =
      ({ w with
        issued := w.issued + 1
        log := w.log ++ [.asked ⟨w.issued, p, l, program⟩] } : Rota F).poll
          ⟨w.issued, p, l, program⟩
          (Stage.rest w.session.settings ⟨w.issued, p, l, program⟩ .entering) := by
    simp [act, hfree, hlt, begin, Stage.rest]
  have hgranted : (lineage.gate.ask p).1 = true := by simp [Gate.ask, hholder]
  rw [hbegin, poll_entering _ w.session.settings hlineage, if_neg (by simp [hqueue])]
  simp [hgranted]

/-! ## The whole -/

/-- Where calls queue, whoever makes round trips in whatever lineages and gives up whenever: one
round trip of a lineage at a time has the turn, programs are taken in the order in which their calls
asked, each exactly once if the call returns, nobody waits while the turn is free, every program
that came to an end is counted, and a lineage is what the events of its own calls make of it. -/
theorem turns_in_order (settings : Settings) (hqueue : settings.stepConflict = .queue) (host : Host)
    (moves : List RotaMove) :
    let w := (start settings host : Rota F).run moves
    (∀ p t routine, w.trips p = some (t, routine) →
      t.party = p ∧ ∃ stage, routine = Stage.rest settings t stage) ∧
    (∀ t u a b, w.trips t.party = some (t, Stage.rest settings t a) →
      w.trips u.party = some (u, Stage.rest settings u b) → a ≠ .entering → b ≠ .entering →
        t.lineage = u.lineage → t = u) ∧
    (asked w.log).map (·.number) = List.range w.issued ∧
    (∀ l, ((handed w.log).filter fun t => t.lineage = l) <+: standing l w.log) ∧
    (∀ t program, .handed t program ∈ w.log → program = t.program) ∧
    (∀ t result, .returned t result ∈ w.log → (handed w.log).count t = 1) ∧
    (∀ (l : LineageId) lineage, w.session.lineages[l]? = some lineage →
      lineage.gate.waiting ≠ [] → ∃ t routine, lineage.gate.holder = some t.party ∧
        w.trips t.party = some (t, routine) ∧ t.lineage = l) ∧
    (∀ t lineage, w.trips t.party = some (t, Stage.rest settings t .entering) →
      w.session.lineages[t.lineage]? = some lineage → lineage.gate.holder = some t.party →
        (w.act (.go t.party)).log = w.log ++ [.entered t]) ∧
    (∀ p (l : LineageId) program lineage, w.trips p = none →
      w.session.lineages[l]? = some lineage → lineage.gate.holder = none →
        (w.act (.begin p l program)).log = w.log ++ [.asked ⟨w.issued, p, l, program⟩] ++
          [.entered ⟨w.issued, p, l, program⟩]) ∧
    (∀ l, w.session.roundTrips l = ((ended w.log).filter fun t => t.lineage = l).length) ∧
    (∀ (l : LineageId) lineage, w.session.lineages[l]? = some lineage → ∃ label parent,
      lineage = w.log.foldl (relive l) { label, parent }) := by
  intro w
  have hnew : Relived (start settings host : Rota F) :=
    { lineages := nofun, later := fun _ _ _ => rfl }
  obtain ⟨line, hkept⟩ :=
    (kept_start settings host : Kept (start settings host : Rota F) _).run moves
  obtain ⟨hrelived, hsettings⟩ := run_relived hqueue (kept_start settings host) hnew rfl moves
  have hrefused := run_refused hqueue (kept_start (F := F) settings host) rfl nofun moves
  have hpolicy : w.session.settings.stepConflict = .queue := by
    rw [hsettings]
    exact hqueue
  refine ⟨?_, ?_, hkept.logged.issued, hkept.logged.handed_prefix_standing, hkept.logged.programs,
    ?_, fun l lineage => hkept.somebody_has_turn, ?_, ?_, hrelived.roundTrips, hrelived.lineages⟩
  · intro p t routine hcall
    obtain ⟨hparty, -, stage, hroutine, -⟩ := hkept.staged p (t, routine) hcall
    rw [hsettings] at hroutine
    exact ⟨hparty, stage, hroutine⟩
  · intro t u a b ht hu ha hb hlineage
    rw [← hsettings] at ht hu
    have hfirst := hkept.lined.first t a ht ha
    have hother := hkept.lined.first u b hu hb
    rw [hlineage, hother] at hfirst
    exact (Option.some.inj hfirst).symm
  · intro t result hreturned
    refine hkept.logged.count_handed ?_
    rcases hkept.logged.returned t result hreturned with hhanded | hconflict
    · exact hhanded
    · exact absurd hconflict (hrefused t)
  · intro t lineage hcall hlineage hholder
    rw [← hsettings] at hcall
    exact takes_turn hcall hlineage hholder hpolicy
  · intro p l program lineage hfree hlineage hholder
    exact begins_at_once program hfree hlineage hholder hpolicy

/-- Three calls in one lineage, the second of which is given up while the first has the turn. -/
def waiterLeaves : List RotaMove :=
  [.addLineage "main" none, .begin .foreground 0 "a", .begin (.task 0) 0 "b",
    .begin (.task 1) 0 "c", .abandon (.task 0), .go .foreground, .go .foreground, .go (.task 1),
    .go (.task 1)]

theorem third_follows_first :
    (handed ((start {} (.replaying {}) : Rota Nat).run waiterLeaves).log).map (·.program) =
        ["a", "c"] ∧
      ((handed ((start {} (.replaying {}) : Rota Nat).run waiterLeaves).log).filter
        fun t => t.lineage = 0) <+:
          standing 0 ((start {} (.replaying {}) : Rota Nat).run waiterLeaves).log ∧
      ((start {} (.replaying {}) : Rota Nat).run waiterLeaves).session.roundTrips 0 = 1 := by
  obtain ⟨-, -, -, horder, -, -, -, -, -, hcount, -⟩ :=
    turns_in_order (F := Nat) {} rfl (.replaying {}) waiterLeaves
  refine ⟨by decide +kernel, horder 0, ?_⟩
  rw [hcount 0]
  decide +kernel

end RemoteHost.Rota
