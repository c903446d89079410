import RemoteHost.Proofs.LineageKeepers
import RemoteHost.Proofs.TurnConflicts
import RemoteHost.Proofs.TurnEchoes
import RemoteHost.Proofs.TurnOrder

/-!
# Only real conflicts are refused

What follows where calls do not queue: a call is refused if and only if the turn of its lineage is
taken, a call that is refused leaves no trace, and every turn is given back, so that the next call
gets it. Calls that come one after another are never refused, and no more are those in lineages that
nobody else uses.
-/

namespace RemoteHost.Rota

variable {F : Type} {w w' : Rota F} {t : Ticket} {line : LineageId → List Ticket}

/-! ## Asking for a turn -/

section Begin

variable {p : Party} {l : LineageId} {program : String}

theorem begin_eq (hfree : w.trips p = none) (hl : l < w.session.lineages.length) :
    w.act (.begin p l program) =
      ({ w with
        issued := w.issued + 1
        log := w.log ++ [.asked ⟨w.issued, p, l, program⟩] } : Rota F).poll
          ⟨w.issued, p, l, program⟩
          (Stage.rest w.session.settings ⟨w.issued, p, l, program⟩ .entering) := by
  simp [act, hfree, hl, begin, Stage.rest]

/-- A turn that nobody has is given at once. -/
theorem entered_of_nobody (program : String) (hkept : Kept w line) (h : Judged w)
    (hfree : w.trips p = none) (hl : l < w.session.lineages.length)
    (hnobody : ∀ u, u.lineage = l → ¬ Holds w.log u) :
    (w.act (.begin p l program)).log =
      w.log ++ [.asked ⟨w.issued, p, l, program⟩, .entered ⟨w.issued, p, l, program⟩] := by
  obtain ⟨lineage, hlineage⟩ : ∃ lineage, w.session.lineages[l]? = some lineage :=
    ⟨_, List.getElem?_eq_getElem hl⟩
  have hgate : lineage.gate.isTakenFrom p = false := by
    rw [← Bool.not_eq_true]
    intro htaken
    obtain ⟨u, hu, hholds⟩ :=
      (h.isTakenFrom_iff (t := ⟨w.issued, p, l, program⟩) hkept hlineage hfree).mp htaken
    exact hnobody u hu hholds
  have hgranted := ask_of_free hgate
  rw [begin_eq hfree hl, poll_entering _ w.session.settings hlineage, if_neg (by simp [hgate])]
  simp [hgranted]

/-- Where the turn is taken, a call is refused and nothing else happens. -/
theorem refused_of_holder (program : String) (hkept : Kept w line) (h : Judged w)
    (hreject : w.session.settings.stepConflict = .reject) (hfree : w.trips p = none)
    (hl : l < w.session.lineages.length) (hholder : ∃ u, u.lineage = l ∧ Holds w.log u) :
    w.act (.begin p l program) = { w with
      issued := w.issued + 1
      log := w.log ++ [.asked ⟨w.issued, p, l, program⟩, .refused ⟨w.issued, p, l, program⟩,
        .returned ⟨w.issued, p, l, program⟩
          (.error (.usage (.stepConflict (w.session.lineageLabel l))))] } := by
  obtain ⟨lineage, hlineage⟩ : ∃ lineage, w.session.lineages[l]? = some lineage :=
    ⟨_, List.getElem?_eq_getElem hl⟩
  have hgate : lineage.gate.isTakenFrom p = true :=
    (h.isTakenFrom_iff (t := ⟨w.issued, p, l, program⟩) hkept hlineage hfree).mpr hholder
  have hidle : Function.update w.trips p none = w.trips := by
    rw [← hfree]
    exact Function.update_eq_self _ _
  have hlabel : w.session.lineageLabel l = lineage.label := by
    simp [Session.lineageLabel, hlineage]
  rw [begin_eq hfree hl, poll_entering _ w.session.settings hlineage, if_pos ⟨hreject, hgate⟩,
    hlabel]
  simp [hidle]

/-- A call that came to a conflict as it asked might as well not have been made. -/
theorem traceless_of_conflict (hkept : Kept w line) (h : Judged w)
    (hreject : w.session.settings.stepConflict = .reject)
    (hconflict : Conflicts (w.act (.begin p l program)).log ⟨w.issued, p, l, program⟩)
    (later : List RotaMove) :
    (w.act (.begin p l program)).session = w.session ∧
      (w.act (.begin p l program)).trips = w.trips ∧
      Echo w.issued w.log [.asked ⟨w.issued, p, l, program⟩, .refused ⟨w.issued, p, l, program⟩,
          .returned ⟨w.issued, p, l, program⟩
            (.error (.usage (.stepConflict (w.session.lineageLabel l))))]
        (w.run later) ((w.act (.begin p l program)).run later) := by
  have hout : (⟨w.issued, p, l, program⟩ : Ticket) ∉ asked w.log := hkept.logged.not_asked rfl
  have hnew : ¬ Conflicts w.log ⟨w.issued, p, l, program⟩ :=
    fun ⟨label, hmem⟩ => h.not_mem hout rfl hmem
  have hpossible : (w.trips p).isNone ∧ l < w.session.lineages.length := by
    by_contra himpossible
    have hsame : w.act (.begin p l program) = w := if_neg himpossible
    rw [hsame] at hconflict
    exact hnew hconflict
  have hfree : w.trips p = none := by simpa using hpossible.1
  have hholder : ∃ u, u.lineage = l ∧ Holds w.log u := by
    by_contra hnobody
    have hentered := entered_of_nobody program hkept h hfree hpossible.2
      fun u hu hholds => hnobody ⟨u, hu, hholds⟩
    rw [hentered] at hconflict
    obtain ⟨label, hmem⟩ := hconflict
    exact hnew ⟨label, by simpa using hmem⟩
  have hbegin := refused_of_holder program hkept h hreject hfree hpossible.2 hholder
  rw [hbegin]
  refine ⟨rfl, rfl, Echo.run ?_ later⟩
  refine { session := rfl, trips := ?_, issued := rfl, le_issued := Nat.le_refl _,
           log := ⟨[], by simp, by simp⟩ }
  intro q
  cases hcall : w.trips q with
  | none => rfl
  | some trip =>
    obtain ⟨u, routine⟩ := trip
    obtain ⟨rfl, -⟩ := hkept.staged q _ hcall
    have hnumber := hkept.logged.number_lt (hkept.logged.current u routine hcall).1
    simp [shifted_of_lt hnumber]

end Begin

/-! ## Giving a turn back -/

/-- What a move adds to the log gives turns back, or gives one to somebody. -/
theorem log_of_turning (h : Turning w w') : ∃ new, w'.log = w.log ++ new ∧
    ((∀ t, .entered t ∉ new) ∨ ∀ t, .ended t ∉ new ∧ .left t ∉ new) := by
  cases h with
  | aside | added => exact ⟨[], (List.append_nil _).symm, .inl nofun⟩
  | @asks session t lineage issued log hlineage hasks hconflict hturns =>
    have hlog : ∃ new, log = w.log ++ new ∧ ∀ t, .ended t ∉ new ∧ .left t ∉ new := by
      cases hasks with
      | first hfree hnumber => exact ⟨[.asked t], rfl, by simp⟩
      | again hcall => exact ⟨[], (List.append_nil _).symm, by simp⟩
    obtain ⟨new, rfl, hnew⟩ := hlog
    cases (lineage.gate.ask t.party).1 with
    | false => exact ⟨new, rfl, .inr hnew⟩
    | true => exact ⟨new ++ [.entered t], by simp, .inr (by simpa using hnew)⟩
  | @refused t lineage hlineage hfree hnumber hconflict =>
    exact ⟨[.asked t, .refused t, .returned t (.error (.usage (.stepConflict lineage.label)))],
      by simp, .inl (by simp)⟩
  | handed => exact ⟨_, rfl, .inl (by simp)⟩
  | @returned session t reply hcall hturns =>
    exact ⟨[.ended t, .returned t (resultOf reply)], by simp, .inl (by simp)⟩
  | left => exact ⟨_, rfl, .inl (by simp)⟩

/-- Where a turn is given back, it is not given to anybody in the same move. -/
theorem holds_of_given_back (hturning : Turning w w') {u v : Ticket} (hu : Holds w.log u)
    (hgone : ¬ Holds w'.log u) (hv : Holds w'.log v) : Holds w.log v := by
  obtain ⟨new, hlog, hnew⟩ := log_of_turning hturning
  rw [hlog] at hgone hv
  simp only [Holds, List.mem_append, not_or] at hu hgone hv ⊢
  rcases hnew with hentered | hends
  · exact ⟨hv.1.resolve_right (hentered v), hv.2.1.1, hv.2.2.1⟩
  · exact absurd ⟨.inl hu.1, ⟨hu.2.1, (hends u).1⟩, hu.2.2, (hends u).2⟩ hgone

/-- No two calls of a lineage have the turn. -/
theorem holder_unique (hkept : Kept w line) (h : Judged w)
    (hreject : w.session.settings.stepConflict = .reject) {u : Ticket} (ht : Holds w.log t)
    (hu : Holds w.log u) (hlineage : t.lineage = u.lineage) : t = u := by
  have hfirst : ∀ v, Holds w.log v → (line v.lineage).head? = some v := by
    intro v hv
    obtain ⟨routine, hcall⟩ := (h.holds v).mp hv
    obtain ⟨-, -, stage, hstage, hqueue⟩ := hkept.staged v.party _ hcall
    dsimp only at hstage
    rw [hstage] at hcall
    refine hkept.lined.first v stage hcall fun hwaits => ?_
    rw [hqueue hwaits] at hreject
    cases hreject
  have hhead := hfirst t ht
  rw [hlineage, hfirst u hu] at hhead
  exact (Option.some.inj hhead).symm

theorem run_judged {settings : Settings} (hreject : settings.stepConflict = .reject)
    (hkept : Kept w line) (h : Judged w) (hsettings : w.session.settings = settings)
    (moves : List RotaMove) :
    Judged (w.run moves) ∧ (w.run moves).session.settings = settings := by
  induction moves generalizing w line with
  | nil => exact ⟨h, hsettings⟩
  | cons move moves ih =>
    have hturning := Rota.turning hkept.staged move
    obtain ⟨line', hkept'⟩ := hkept.turning hturning
    have hjudged := h.turning hkept (by rw [hsettings]; exact hreject) hturning
    exact ih hkept' hjudged (hturning.settings.trans hsettings)

/-- A turn that is given back is had by nobody right after. -/
theorem not_holds_of_given_back (hkept : Kept w line) (h : Judged w)
    (hreject : w.session.settings.stepConflict = .reject) {move : RotaMove} {u v : Ticket}
    (hu : Holds w.log u) (hgone : ¬ Holds (w.act move).log u) (hlineage : v.lineage = u.lineage) :
    ¬ Holds (w.act move).log v := by
  intro hv
  have hbefore := holds_of_given_back (Rota.turning hkept.staged move) hu hgone hv
  obtain rfl := holder_unique hkept h hreject hbefore hu hlineage
  exact hgone hv

/-- A call does not come to a conflict if all calls of its lineage before it have ended. -/
theorem not_conflicts_of_sequential (h : Judged w)
    (hsequential : ∀ before after, w.log = before ++ .asked t :: after → ∀ u ∈ asked before,
      u.lineage = t.lineage → (∃ result, .returned u result ∈ before) ∨ .left u ∈ before) :
    ¬ Conflicts w.log t := by
  intro hconflict
  have hasked : t ∈ asked w.log := by
    obtain ⟨label, hmem⟩ := hconflict
    exact h.about _ hmem
  obtain ⟨before, after, hsplit⟩ := List.append_of_mem (mem_asked.mp hasked)
  obtain ⟨hfate, hholders⟩ := h.fates before t after hsplit
  obtain ⟨u, hlineage, hholds⟩ := hfate.mp hconflict
  obtain ⟨hbefore, hpending⟩ := hholders u hholds
  rcases hsequential before after hsplit u hbefore hlineage with ⟨result, hreturned⟩ | hleft
  · exact hpending result hreturned
  · exact hholds.2.2 hleft

/-! ## The whole -/

/-- Where calls do not queue, whoever makes round trips in whatever lineages and gives up whenever:
a call comes to a conflict if and only if another call of its lineage has the turn as it asks; then
nothing of it is handed over, the session is as it was and goes on as it would have without the
call, and all others have the results they would have had. A turn is had by one call at a time and
is given back however that call ends, and then the next call gets it. So calls that come one after
another do not come to conflicts; and neither does an operation, among any others, that is given no
lineage but those that are kept for its party, such as the one that the function of a slot is called
with, or no lineage at all. -/
theorem conflict_iff_taken (settings : Settings) (hreject : settings.stepConflict = .reject)
    (host : Host) (moves : List RotaMove) :
    let w := (start settings host : Rota F).run moves
    (∀ before t after, w.log = before ++ .asked t :: after →
      (Conflicts w.log t ↔ ∃ u, u.lineage = t.lineage ∧ Holds before u)) ∧
    (∀ t, Conflicts w.log t → t ∉ handed w.log) ∧
    (∀ p l program later,
      Conflicts (w.act (.begin p l program)).log ⟨w.issued, p, l, program⟩ →
        (w.act (.begin p l program)).session = w.session ∧
        (w.act (.begin p l program)).trips = w.trips ∧
        ((w.act (.begin p l program)).run later).session = (w.run later).session ∧
        ∀ u result, u.number < w.issued →
          (.returned u result ∈ ((w.act (.begin p l program)).run later).log ↔
            .returned u result ∈ (w.run later).log)) ∧
    (∀ t u, Holds w.log t → Holds w.log u → t.lineage = u.lineage → t = u) ∧
    (∀ t, (∃ result, .returned t result ∈ w.log) ∨ .left t ∈ w.log → ¬ Holds w.log t) ∧
    (∀ move u, Holds w.log u → ¬ Holds (w.act move).log u →
      ∀ v, v.lineage = u.lineage → ¬ Holds (w.act move).log v) ∧
    (∀ p l program, w.trips p = none → l < w.session.lineages.length →
      (∀ u, u.lineage = l → ¬ Holds w.log u) → (w.act (.begin p l program)).log =
        w.log ++ [.asked ⟨w.issued, p, l, program⟩, .entered ⟨w.issued, p, l, program⟩]) ∧
    (∀ l, (∀ before t after, w.log = before ++ .asked t :: after → t.lineage = l →
        ∀ u ∈ asked before, u.lineage = l →
          (∃ result, .returned u result ∈ before) ∨ .left u ∈ before) →
      ∀ t, t.lineage = l → ¬ Conflicts w.log t) ∧
    ∀ (behave : Behaviour F) (moves : List (CompanyMove F)),
      let w := (Company.start settings host).run behave moves
      (∀ (id : OperationId) op call, w.session.operations[id]? = some op →
        op.stage = .calling call → w.keeper call.delivery.lineage = some (.callback id)) ∧
      ∀ g ∈ w.gains, (∀ l ∈ g.operation.lineages, w.keeper l = some g.party) →
        ¬ g.operation.Feigns → ∀ label, g.result ≠ .error (.usage (.stepConflict label)) := by
  intro w
  obtain ⟨line, hkept⟩ : ∃ line, Kept w line := (kept_start settings host).run moves
  obtain ⟨hjudged, hsettings⟩ : Judged w ∧ w.session.settings = settings :=
    run_judged hreject (kept_start settings host) (judged_start settings host) rfl moves
  have hpolicy : w.session.settings.stepConflict = .reject := by
    rw [hsettings]
    exact hreject
  clear_value w
  refine ⟨fun before t after hsplit => (hjudged.fates before t after hsplit).1, ?_, ?_,
    fun t u => holder_unique hkept hjudged hpolicy, ?_, ?_,
    fun p l program hfree hl => entered_of_nobody _ hkept hjudged hfree hl, ?_, ?_⟩
  · intro t hconflict hmem
    obtain ⟨program, hhanded⟩ := mem_handed.mp hmem
    exact hjudged.spared t program hconflict hhanded
  · intro p l program later hconflict
    obtain ⟨hsession, htrips, hecho⟩ :=
      traceless_of_conflict hkept hjudged hpolicy hconflict later
    refine ⟨hsession, htrips, hecho.session, fun u result hu => hecho.returned_iff hu ?_⟩
    have hne : u ≠ ⟨w.issued, p, l, program⟩ := fun heq => Nat.lt_irrefl _ (heq ▸ hu)
    simp [hne]
  · rintro t (⟨result, hmem⟩ | hleft) hholds
    · exact hjudged.unended t hholds result hmem
    · exact hholds.2.2 hleft
  · exact fun move u hu hgone v hlineage =>
      not_holds_of_given_back hkept hjudged hpolicy hu hgone hlineage
  · intro l hsequential t ht
    refine not_conflicts_of_sequential hjudged fun before after hsplit u hu hlineage => ?_
    exact hsequential before t after hsplit ht u hu (hlineage.trans ht)
  · intro behave moves w
    have hpeace := (Company.peace_start settings host : (Company.start settings host).Peace).run
      behave moves
    exact ⟨fun id op call hop hstage => (hpeace.calls id op call hop hstage).2,
      fun g hg => (hpeace.gains g hg).unrefused⟩

/-- The second of three calls in one lineage comes while the first one, which is given up then, has
the turn. -/
def holderLeaves : List RotaMove :=
  [.addLineage "main" none, .begin .foreground 0 "a", .begin (.task 0) 0 "b", .abandon .foreground,
    .begin (.task 0) 0 "c"]

theorem log_holderLeaves :
    ((start { stepConflict := .reject } (.replaying {}) : Rota Nat).run holderLeaves).log =
      [.asked ⟨0, .foreground, 0, "a"⟩, .entered ⟨0, .foreground, 0, "a"⟩] ++
        .asked ⟨1, .task 0, 0, "b"⟩ :: [.refused ⟨1, .task 0, 0, "b"⟩,
          .returned ⟨1, .task 0, 0, "b"⟩ (.error (.usage (.stepConflict "main"))),
          .left ⟨0, .foreground, 0, "a"⟩] ++
            .asked ⟨2, .task 0, 0, "c"⟩ :: [.entered ⟨2, .task 0, 0, "c"⟩] := rfl

theorem second_comes_to_conflict :
    ({ stepConflict := .reject } : Settings).stepConflict = .reject ∧
      let log :=
        ((start { stepConflict := .reject } (.replaying {}) : Rota Nat).run holderLeaves).log
      Conflicts log ⟨1, .task 0, 0, "b"⟩ ∧ ⟨1, .task 0, 0, "b"⟩ ∉ handed log ∧
        ¬ Conflicts log ⟨2, .task 0, 0, "c"⟩ := by
  obtain ⟨hiff, hspared, -⟩ := conflict_iff_taken (F := Nat) { stepConflict := .reject } rfl
    (.replaying {}) holderLeaves
  have hsecond := hiff _ _ _ (log_holderLeaves.trans (List.append_assoc ..))
  have hthird := hiff _ _ _ log_holderLeaves
  have hconflict := hsecond.mpr ⟨⟨0, .foreground, 0, "a"⟩, rfl, by simp [Holds]⟩
  refine ⟨rfl, hconflict, hspared _ hconflict, fun hrefused => ?_⟩
  obtain ⟨u, -, hentered, -, hstays⟩ := hthird.mp hrefused
  obtain rfl : u = ⟨0, .foreground, 0, "a"⟩ := by simpa using hentered
  exact hstays (by simp)

end RemoteHost.Rota
