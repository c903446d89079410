import RemoteHost.Proofs.TurnLog

/-!
# Conflicts of turns

Where calls do not queue, a call that asks while another one of its lineage has the turn is refused,
and no other call is. A call has the turn from the moment it is given until its round trip ends or
is given up.
-/

namespace RemoteHost

/-- The call that an event is about. -/
def TurnEvent.ticket : TurnEvent → Ticket
  | .asked t | .entered t | .refused t | .handed t _ | .ended t | .returned t _ | .left t => t

namespace Rota

variable {F : Type} {w w' : Rota F} {t : Ticket} {line : LineageId → List Ticket}

/-- The call has been given the turn of its lineage and has it still. -/
def Holds (log : List TurnEvent) (t : Ticket) : Prop :=
  .entered t ∈ log ∧ .ended t ∉ log ∧ .left t ∉ log

/-- The call fails because the turn of its lineage is taken. -/
def Conflicts (log : List TurnEvent) (t : Ticket) : Prop :=
  ∃ label, .returned t (.error (.usage (.stepConflict label))) ∈ log

/-! ## Logs -/

theorem mem_asked {log : List TurnEvent} : t ∈ asked log ↔ .asked t ∈ log := by
  unfold asked
  rw [List.mem_filterMap]
  constructor
  · rintro ⟨event, hmem, heq⟩
    cases event <;> cases heq
    exact hmem
  · exact fun hmem => ⟨_, hmem, rfl⟩

theorem mem_handed {log : List TurnEvent} :
    t ∈ handed log ↔ ∃ program, .handed t program ∈ log := by
  unfold handed
  rw [List.mem_filterMap]
  constructor
  · rintro ⟨event, hmem, heq⟩
    cases event <;> cases heq
    exact ⟨_, hmem⟩
  · exact fun ⟨program, hmem⟩ => ⟨_, hmem, rfl⟩

/-- Where a log is longer, a call that it mentions asked before or asks now. -/
theorem split_append {log new before after : List TurnEvent}
    (h : log ++ new = before ++ .asked t :: after) :
    (∃ later, log = before ++ .asked t :: later) ∨
      ∃ first, before = log ++ first ∧ new = first ++ .asked t :: after := by
  rcases List.append_eq_append_iff.mp h with ⟨first, hbefore, hnew⟩ | ⟨old, hlog, hrest⟩
  · exact .inr ⟨first, hbefore, hnew⟩
  · cases old with
    | nil =>
      rw [List.append_nil] at hlog
      exact .inr ⟨[], by rw [List.append_nil, hlog], by simpa using hrest.symm⟩
    | cons event later =>
      obtain ⟨rfl, -⟩ := List.cons.inj hrest
      exact .inl ⟨later, hlog⟩

theorem Logged.number_lt (h : Logged w line) (hmem : t ∈ asked w.log) : t.number < w.issued := by
  have hnumbers : t.number ∈ (asked w.log).map (·.number) := List.mem_map.mpr ⟨t, hmem, rfl⟩
  rwa [h.issued, List.mem_range] at hnumbers

/-- Where one call asks, it is the first thing that happens. -/
theorem split_cons {u : Ticket} {rest first after : List TurnEvent}
    (h : .asked t :: rest = first ++ .asked u :: after) (hrest : ∀ u, .asked u ∉ rest) :
    first = [] ∧ u = t := by
  cases first with
  | nil => exact ⟨rfl, (TurnEvent.asked.inj (List.cons.inj h).1).symm⟩
  | cons event first => exact absurd ((List.cons.inj h).2 ▸ by simp) (hrest u)

/-- A result that is read off a reply is no conflict. -/
theorem resultOf_ne_usage (reply : Except TransportFault Json) (fault : UsageFault) :
    resultOf reply ≠ .error (.usage fault) := by
  cases reply <;> exact nofun

/-! ## Who has the turn, and who was refused -/

/-- The log of a rota in which calls do not queue. -/
structure Judged (w : Rota F) : Prop where
  holds : ∀ t, Holds w.log t ↔ ∃ routine, w.trips t.party = some (t, routine)
  about : ∀ event ∈ w.log, event.ticket ∈ asked w.log
  unended : ∀ t, Holds w.log t → ∀ result, .returned t result ∉ w.log
  spared : ∀ t program, Conflicts w.log t → .handed t program ∉ w.log
  /-- Whoever has the turn when a call asks has asked before, and has not returned. -/
  fates : ∀ before t after, w.log = before ++ .asked t :: after →
    (Conflicts w.log t ↔ ∃ u, u.lineage = t.lineage ∧ Holds before u) ∧
      ∀ u, Holds before u → u ∈ asked before ∧ ∀ result, .returned u result ∉ before

/-- A turn is taken if somebody makes a round trip in the lineage. -/
theorem Kept.isTakenFrom_iff (h : Kept w line) {lineage : Lineage}
    (hlineage : w.session.lineages[t.lineage]? = some lineage) (hfree : w.trips t.party = none) :
    lineage.gate.isTakenFrom t.party = true ↔
      ∃ u routine, u.lineage = t.lineage ∧ w.trips u.party = some (u, routine) := by
  rw [h.lined.gates _ lineage hlineage, Gate.isTakenFrom, Gate.holder_ofLine, List.head?_map]
  constructor
  · intro htaken
    cases hline : line t.lineage with
    | nil =>
      rw [hline] at htaken
      cases htaken
    | cons head rest =>
      obtain ⟨hl, routine, hcall⟩ := (h.lined.mem t.lineage head).mp (hline ▸ List.mem_cons_self)
      exact ⟨head, routine, hl, hcall⟩
  · rintro ⟨u, routine, hl, hcall⟩
    have hmem : u ∈ line t.lineage := (h.lined.mem _ u).mpr ⟨hl, routine, hcall⟩
    cases hline : line t.lineage with
    | nil =>
      rw [hline] at hmem
      cases hmem
    | cons head rest =>
      obtain ⟨-, other, hhead⟩ := (h.lined.mem t.lineage head).mp (hline ▸ List.mem_cons_self)
      have hne : head.party ≠ t.party := by
        intro heq
        rw [heq, hfree] at hhead
        cases hhead
      simpa using hne

namespace Judged

variable {new : List TurnEvent}

/-- What is noted is about calls that have asked. -/
theorem about_append (h : Judged w)
    (hnew : ∀ event ∈ new, event.ticket ∈ asked w.log ∨ .asked event.ticket ∈ new) :
    ∀ event ∈ w.log ++ new, event.ticket ∈ asked (w.log ++ new) := by
  intro event hmem
  rw [asked_append, List.mem_append]
  rcases List.mem_append.mp hmem with hold | hmem
  · exact .inl (h.about event hold)
  · exact (hnew event hmem).imp id mem_asked.mpr

/-- The fate of a call is settled when it asks. -/
theorem fates_append (h : Judged w) (hlogged : Logged w line)
    (hconflicts : ∀ t label, .returned t (.error (.usage (.stepConflict label))) ∈ new →
      t.number = w.issued)
    (hnew : ∀ first t after, new = first ++ .asked t :: after → first = [] ∧
      (Conflicts (w.log ++ new) t ↔ ∃ u, u.lineage = t.lineage ∧ Holds w.log u)) :
    ∀ before t after, w.log ++ new = before ++ .asked t :: after →
      (Conflicts (w.log ++ new) t ↔ ∃ u, u.lineage = t.lineage ∧ Holds before u) ∧
        ∀ u, Holds before u → u ∈ asked before ∧ ∀ result, .returned u result ∉ before := by
  intro before t after hsplit
  rcases split_append hsplit with ⟨later, hold⟩ | ⟨first, rfl, hlater⟩
  · obtain ⟨hfate, hholders⟩ := h.fates before t later hold
    refine ⟨?_, hholders⟩
    rw [← hfate]
    refine ⟨?_, fun ⟨label, hmem⟩ => ⟨label, List.mem_append_left _ hmem⟩⟩
    rintro ⟨label, hmem⟩
    rcases List.mem_append.mp hmem with hmem | hmem
    · exact ⟨label, hmem⟩
    · have hasked : t ∈ asked w.log := mem_asked.mpr (hold ▸ by simp)
      exact absurd hasked (hlogged.not_asked (hconflicts t label hmem))
  · obtain ⟨rfl, hfate⟩ := hnew first t after hlater
    rw [List.append_nil]
    exact ⟨hfate, fun u hu => ⟨h.about _ hu.1, h.unended u hu⟩⟩

/-- Nothing is known yet of a call that has not asked. -/
theorem not_mem (h : Judged w) (hout : t ∉ asked w.log) {event : TurnEvent}
    (hticket : event.ticket = t) : event ∉ w.log :=
  fun hmem => hout (hticket ▸ h.about event hmem)

/-- A lineage in which somebody has the turn. -/
theorem isTakenFrom_iff (h : Judged w) (hkept : Kept w line) {lineage : Lineage}
    (hlineage : w.session.lineages[t.lineage]? = some lineage) (hfree : w.trips t.party = none) :
    lineage.gate.isTakenFrom t.party = true ↔ ∃ u, u.lineage = t.lineage ∧ Holds w.log u := by
  simp only [hkept.isTakenFrom_iff hlineage hfree, h.holds, exists_and_left]

/-- Nothing has to be looked at again but the new events, where no turn changes hands. -/
theorem aside (h : Judged w) (htrips : ∀ t, (∃ routine, w'.trips t.party = some (t, routine)) ↔
      ∃ routine, w.trips t.party = some (t, routine)) (hlog : w'.log = w.log) : Judged w' where
  holds t := by rw [hlog, htrips]; exact h.holds t
  about := by rw [hlog]; exact h.about
  unended := by rw [hlog]; exact h.unended
  spared := by rw [hlog]; exact h.spared
  fates := by rw [hlog]; exact h.fates

theorem entered (h : Judged w) (hkept : Kept w line) {session : Session F} {lineage : Lineage}
    (hlineage : w.session.lineages[t.lineage]? = some lineage) (hfree : w.trips t.party = none)
    (hnumber : t.number = w.issued) (hgate : lineage.gate.isTakenFrom t.party = false)
    (routine : Routine F (Except Fault Json)) :
    Judged ⟨session, Function.update w.trips t.party (some (t, routine)), w.issued + 1,
      w.log ++ [.asked t, .entered t]⟩ := by
  have hout := hkept.logged.not_asked hnumber
  have hnotEnded : .ended t ∉ w.log := h.not_mem hout rfl
  have hnotLeft : .left t ∉ w.log := h.not_mem hout rfl
  refine { holds := ?_, about := h.about_append (by simp [TurnEvent.ticket]), unended := ?_,
           spared := fun u program hconflict => ?_, fates := ?_ }
  · intro u
    by_cases hu : u = t
    · subst hu
      simp [Holds, hnotEnded, hnotLeft]
    · have hsame : Holds (w.log ++ [.asked t, .entered t]) u ↔ Holds w.log u := by
        simp [Holds, hu]
      dsimp only
      rw [hsame, h.holds]
      by_cases hparty : u.party = t.party
      · have hne : t ≠ u := fun heq => hu heq.symm
        simp [hparty, hfree, hne]
      · rw [Function.update_of_ne hparty]
  · intro u hholds result
    by_cases hu : u = t
    · subst hu
      have hnotReturned : .returned u result ∉ w.log := h.not_mem hout rfl
      simpa using hnotReturned
    · have hbefore : Holds w.log u := by simpa [Holds, hu] using hholds
      simpa using h.unended u hbefore result
  · have hbefore : Conflicts w.log u := by simpa [Conflicts] using hconflict
    simpa using h.spared u program hbefore
  · refine h.fates_append hkept.logged (by simp) ?_
    intro first u after hsplit
    obtain ⟨rfl, rfl⟩ := split_cons hsplit (by simp)
    refine ⟨rfl, ?_⟩
    rw [← h.isTakenFrom_iff hkept hlineage hfree, hgate]
    have hconflict : ∀ label,
        .returned u (.error (.usage (.stepConflict label))) ∉ w.log :=
      fun label => h.not_mem hout rfl
    simp [Conflicts, hconflict]

theorem refused (h : Judged w) (hkept : Kept w line) {lineage : Lineage}
    (hlineage : w.session.lineages[t.lineage]? = some lineage) (hfree : w.trips t.party = none)
    (hnumber : t.number = w.issued) (hgate : lineage.gate.isTakenFrom t.party = true) :
    Judged { w with
      issued := w.issued + 1
      log := w.log ++ [.asked t, .refused t,
        .returned t (.error (.usage (.stepConflict lineage.label)))] } := by
  have hout := hkept.logged.not_asked hnumber
  have hsame : ∀ u, Holds (w.log ++ [.asked t, .refused t,
      .returned t (.error (.usage (.stepConflict lineage.label)))]) u ↔ Holds w.log u := by
    simp [Holds]
  refine { holds := fun u => (hsame u).trans (h.holds u)
           about := h.about_append (by simp [TurnEvent.ticket]), unended := ?_, spared := ?_
           fates := ?_ }
  · intro u hholds result
    have hbefore := (hsame u).mp hholds
    have hne : u ≠ t := fun heq => hout (heq ▸ h.about _ hbefore.1)
    simpa [hne] using h.unended u hbefore result
  · intro u program hconflict
    by_cases hu : u = t
    · subst hu
      have hnotHanded : .handed u program ∉ w.log := h.not_mem hout rfl
      simpa using hnotHanded
    · have hbefore : Conflicts w.log u := by simpa [Conflicts, hu] using hconflict
      simpa using h.spared u program hbefore
  · refine h.fates_append hkept.logged (by simp [hnumber]) ?_
    intro first u after hsplit
    obtain ⟨rfl, rfl⟩ := split_cons hsplit (by simp)
    refine ⟨rfl, ?_⟩
    rw [← h.isTakenFrom_iff hkept hlineage hfree, hgate]
    exact iff_of_true ⟨lineage.label, by simp⟩ rfl

/-- A turn is given back, by whoever has it. -/
theorem given_back (h : Judged w) (hlogged : Logged w line) {session : Session F}
    {routine : Routine F (Except Fault Json)}
    (hcall : w.trips t.party = some (t, routine)) (hnew : ∀ event ∈ new, event.ticket = t)
    (hends : .ended t ∈ new ∨ .left t ∈ new) (hasked : ∀ u, .asked u ∉ new)
    (hentered : ∀ u, .entered u ∉ new) (hhanded : ∀ u program, .handed u program ∉ new)
    (hconflicts : ∀ u fault, .returned u (.error (.usage fault)) ∉ new) :
    Judged { w with
      session, trips := Function.update w.trips t.party none, log := w.log ++ new } := by
  have hgone : ¬ Holds (w.log ++ new) t := by
    rintro ⟨-, hended, hleft⟩
    exact hends.elim (fun hmem => hended (List.mem_append_right _ hmem))
      fun hmem => hleft (List.mem_append_right _ hmem)
  have hother : ∀ event ∈ new, ∀ u, u ≠ t → event.ticket ≠ u :=
    fun event hmem u hu heq => hu (heq.symm.trans (hnew event hmem))
  have hsame : ∀ u, u ≠ t → (Holds (w.log ++ new) u ↔ Holds w.log u) := by
    intro u hu
    have hended : .ended u ∉ new := fun hmem => hother _ hmem u hu rfl
    have hleft : .left u ∉ new := fun hmem => hother _ hmem u hu rfl
    simp [Holds, hentered u, hended, hleft]
  refine { holds := ?_, about := h.about_append ?_, unended := ?_, spared := ?_, fates := ?_ }
  · intro u
    dsimp only
    by_cases hu : u = t
    · subst hu
      rw [Function.update_self]
      exact iff_of_false hgone nofun
    · rw [hsame u hu, h.holds]
      by_cases hparty : u.party = t.party
      · have hne : t ≠ u := fun heq => hu heq.symm
        simp [hparty, hcall, hne]
      · rw [Function.update_of_ne hparty]
  · intro event hmem
    have hholds : Holds w.log t := (h.holds t).mpr ⟨routine, hcall⟩
    exact .inl (hnew event hmem ▸ h.about _ hholds.1)
  · intro u hholds result hmem
    have hu : u ≠ t := fun heq => hgone (heq ▸ hholds)
    rcases List.mem_append.mp hmem with hmem | hmem
    · exact h.unended u ((hsame u hu).mp hholds) result hmem
    · exact hother _ hmem u hu rfl
  · rintro u program ⟨label, hconflict⟩ hmem
    have hbefore := (List.mem_append.mp hconflict).resolve_right (hconflicts u _)
    exact h.spared u program ⟨label, hbefore⟩
      ((List.mem_append.mp hmem).resolve_right (hhanded u program))
  · refine h.fates_append hlogged (fun u label hmem => absurd hmem (hconflicts u _)) ?_
    intro first u after hsplit
    exact absurd (hsplit ▸ by simp) (hasked u)

theorem turning (h : Judged w) (hkept : Kept w line)
    (hreject : w.session.settings.stepConflict = .reject) (hturning : Turning w w') :
    Judged w' := by
  cases hturning with
  | aside | added => exact h.aside (fun _ => Iff.rfl) rfl
  | @asks session t lineage issued log hlineage hasks hconflict hturns =>
    have hgate : lineage.gate.isTakenFrom t.party = false := by simpa [hreject] using hconflict
    have hgranted := ask_of_free hgate
    cases hasks with
    | first hfree hnumber =>
      simp only [hgranted, if_true, List.append_assoc, List.singleton_append]
      exact h.entered hkept hlineage hfree hnumber hgate _
    | again hcall =>
      -- Where calls do not queue, nobody looks for a turn again.
      obtain ⟨-, -, stage, hstage, hqueue⟩ := hkept.staged t.party _ hcall
      rw [hqueue (rest_inj hstage).symm] at hreject
      cases hreject
  | @refused t lineage hlineage hfree hnumber hconflict =>
    simp only [List.append_assoc, List.singleton_append]
    exact h.refused hkept hlineage hfree hnumber hconflict.2
  | @handed session t hcall hturns =>
    have hholds : Holds w.log t := (h.holds t).mpr ⟨_, hcall⟩
    have hsame : ∀ u, Holds (w.log ++ [.handed t t.program]) u ↔ Holds w.log u := by simp [Holds]
    refine { holds := ?_, about := h.about_append ?_, unended := ?_, spared := ?_, fates := ?_ }
    · intro u
      dsimp only
      rw [hsame, h.holds]
      by_cases hparty : u.party = t.party
      · rw [hparty, Function.update_self, hcall]
        simp
      · rw [Function.update_of_ne hparty]
    · intro event hmem
      rw [List.mem_singleton.mp hmem]
      exact .inl (h.about (.entered t) hholds.1)
    · intro u hu result
      simpa using h.unended u ((hsame u).mp hu) result
    · rintro u program ⟨label, hconflict⟩
      have hbefore : .returned u (.error (.usage (.stepConflict label))) ∈ w.log := by
        simpa using hconflict
      have hne : u ≠ t := fun heq => h.unended t hholds _ (heq ▸ hbefore)
      simpa [hne] using h.spared u program ⟨label, hbefore⟩
    · refine h.fates_append hkept.logged (by simp) fun first u after hsplit => ?_
      have hmem : TurnEvent.asked u ∈ [TurnEvent.handed t t.program] := hsplit ▸ by simp
      simp at hmem
  | @returned session t reply hcall hturns =>
    simp only [List.append_assoc, List.singleton_append]
    have hresult := resultOf_ne_usage reply
    refine h.given_back hkept.logged hcall (by simp [TurnEvent.ticket]) (by simp) (by simp)
      (by simp) (by simp) fun u fault hmem => ?_
    obtain ⟨-, heq⟩ : u = t ∧ .error (.usage fault) = resultOf reply := by simpa using hmem
    exact hresult fault heq.symm
  | @left session t routine hcall hsettings hlineages =>
    exact h.given_back hkept.logged hcall (by simp [TurnEvent.ticket]) (by simp) (by simp)
      (by simp) (by simp) (by simp)

end Judged

theorem judged_start (settings : Settings) (host : Host) :
    Judged (start settings host : Rota F) where
  holds _ := iff_of_false (fun h => nomatch h.1) fun ⟨_, hcall⟩ => nomatch hcall
  about := nofun
  unended _ h := nomatch h.1
  spared _ _ h := nomatch h.choose_spec
  fates before t after h := by simp [start] at h

end Rota

end RemoteHost
