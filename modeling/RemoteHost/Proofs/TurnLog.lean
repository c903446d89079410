import RemoteHost.Proofs.TurnPlaces

/-!
# What the log of a rota tells

Of the calls in a lineage, without those that were given up too early, the first ones have had their
programs taken, in the order of asking; the others stand in line in that order.
-/

namespace RemoteHost.Rota

variable {F : Type} {w w' : Rota F} {t : Ticket} {line : LineageId → List Ticket}
  {routine : Routine F (Except Fault Json)}

/-! ## Logs -/

def asked (log : List TurnEvent) : List Ticket :=
  log.filterMap fun
    | .asked t => some t
    | _ => none

/-- The calls whose programs were taken for the host, in the order in which that happened. -/
def handed (log : List TurnEvent) : List Ticket :=
  log.filterMap fun
    | .handed t _ => some t
    | _ => none

def ended (log : List TurnEvent) : List Ticket :=
  log.filterMap fun
    | .ended t => some t
    | _ => none

/-- The calls that were given up or refused. -/
def dropped (log : List TurnEvent) : List Ticket :=
  log.filterMap fun
    | .left t | .refused t => some t
    | _ => none

/-- The calls in a lineage in the order of asking, without those that came to nothing before their
programs were taken. -/
def standing (l : LineageId) (log : List TurnEvent) : List Ticket :=
  (asked log).filter fun t => t.lineage = l ∧ (t ∈ handed log ∨ t ∉ dropped log)

section Projections

variable (log new : List TurnEvent)

theorem asked_append : asked (log ++ new) = asked log ++ asked new := List.filterMap_append

theorem handed_append : handed (log ++ new) = handed log ++ handed new := List.filterMap_append

end Projections

/-- What the log tells about the calls that were made. -/
structure Logged (w : Rota F) (line : LineageId → List Ticket) : Prop where
  issued : (asked w.log).map (·.number) = List.range w.issued
  order : ∀ l, standing l w.log = ((handed w.log).filter fun t => t.lineage = l) ++
    (line l).filter fun t => t ∉ handed w.log
  current : ∀ t routine, w.trips t.party = some (t, routine) →
    t ∈ asked w.log ∧ t ∉ dropped w.log
  past : ∀ t, t ∈ handed w.log ∨ t ∈ dropped w.log → t ∈ asked w.log
  reached : ∀ t stage, w.trips t.party = some (t, Stage.rest w.session.settings t stage) →
    (t ∈ handed w.log ↔ stage = .collecting)
  programs : ∀ t program, .handed t program ∈ w.log → program = t.program
  returned : ∀ t result, .returned t result ∈ w.log → t ∈ handed w.log ∨ .refused t ∈ w.log

/-- Taking out what a filter drops anyway changes nothing. -/
theorem filter_erase_of_neg {tickets : List Ticket} {p : Ticket → Bool} (h : p t = false) :
    (tickets.erase t).filter p = tickets.filter p := by
  induction tickets with
  | nil => rfl
  | cons u tickets ih =>
    by_cases hut : u = t
    · subst hut
      simp [h]
    · simp [hut, ih, List.filter_cons]

namespace Logged

theorem not_asked (h : Logged w line) (hnumber : t.number = w.issued) : t ∉ asked w.log := by
  intro hmem
  have hnumbers : t.number ∈ (asked w.log).map (·.number) := List.mem_map.mpr ⟨t, hmem, rfl⟩
  rw [h.issued, List.mem_range, hnumber] at hnumbers
  exact Nat.lt_irrefl _ hnumbers

/-- Only the calls that changed have to be looked at again. -/
theorem kept (h : Logged w line) (hsettings : w'.session.settings = w.session.settings)
    (hissued : w'.issued = w.issued) (htrips : w'.trips = w.trips)
    (hasked : asked w'.log = asked w.log) (hhanded : handed w'.log = handed w.log)
    (hdropped : dropped w'.log = dropped w.log)
    (hprograms : ∀ t program, .handed t program ∈ w'.log → .handed t program ∈ w.log)
    (hreturned : ∀ t result, .returned t result ∈ w'.log → .returned t result ∈ w.log)
    (hrefused : ∀ t, .refused t ∈ w.log → .refused t ∈ w'.log) : Logged w' line where
  issued := by rw [hasked, hissued]; exact h.issued
  order l := by
    have horder := h.order l
    simp only [standing, hasked, hhanded, hdropped] at horder ⊢
    exact horder
  current t routine hcall := by
    rw [htrips] at hcall
    rw [hasked, hdropped]
    exact h.current t routine hcall
  past t hpast := by
    rw [hhanded, hdropped] at hpast
    rw [hasked]
    exact h.past t hpast
  reached t stage hcall := by
    rw [hsettings, htrips] at hcall
    rw [hhanded]
    exact h.reached t stage hcall
  programs t program hmem := h.programs t program (hprograms t program hmem)
  returned t result hmem := by
    rw [hhanded]
    exact (h.returned t result (hreturned t result hmem)).imp id (hrefused t)

/-- A turn that is given is noted, and nothing else. -/
theorem entered (h : Logged w line) (t : Ticket) :
    Logged { w with log := w.log ++ [.entered t] } line :=
  h.kept rfl rfl rfl (by simp [asked]) (by simp [handed]) (by simp [dropped])
    (by simp) (by simp) (fun _ hmem => List.mem_append_left _ hmem)

theorem first (h : Logged w line) (session : Session F)
    (hsettings : session.settings = w.session.settings) (hnumber : t.number = w.issued)
    {stage : Stage} (hstage : stage ≠ .collecting) :
    Logged
      { session
        trips := Function.update w.trips t.party (some (t, Stage.rest w.session.settings t stage))
        issued := w.issued + 1
        log := w.log ++ [.asked t] }
      (Function.update line t.lineage (line t.lineage ++ [t])) := by
  have hasked : asked (w.log ++ [.asked t]) = asked w.log ++ [t] := asked_append _ _
  have hhanded : handed (w.log ++ [.asked t]) = handed w.log := by simp [handed]
  have hdropped : dropped (w.log ++ [.asked t]) = dropped w.log := by simp [dropped]
  have hnew := h.not_asked hnumber
  have hnotHanded : t ∉ handed w.log := fun hmem => hnew (h.past t (.inl hmem))
  have hnotDropped : t ∉ dropped w.log := fun hmem => hnew (h.past t (.inr hmem))
  refine { issued := ?_, order := ?_, current := ?_, past := ?_, reached := ?_, programs := ?_,
           returned := ?_ }
  · dsimp only
    rw [hasked, List.map_append, h.issued, List.range_succ, ← hnumber]
    rfl
  · intro l
    have horder := h.order l
    simp only [standing, hasked, hhanded, hdropped, List.filter_append] at horder ⊢
    by_cases hl : l = t.lineage
    · subst hl
      rw [horder, Function.update_self]
      simp [hnotHanded, hnotDropped]
    · have hne : t.lineage ≠ l := fun heq => hl heq.symm
      rw [horder, Function.update_of_ne hl]
      simp [hne]
  · intro u routine hcall
    dsimp only at hcall ⊢
    rw [hasked, hdropped]
    by_cases hu : u.party = t.party
    · rw [hu, Function.update_self] at hcall
      obtain rfl : t = u := congrArg Prod.fst (Option.some.inj hcall)
      exact ⟨by simp, hnotDropped⟩
    · rw [Function.update_of_ne hu] at hcall
      obtain ⟨hmem, hstays⟩ := h.current u routine hcall
      exact ⟨List.mem_append_left _ hmem, hstays⟩
  · intro u hpast
    dsimp only at hpast ⊢
    rw [hhanded, hdropped] at hpast
    rw [hasked]
    exact List.mem_append_left _ (h.past u hpast)
  · intro u other hcall
    dsimp only at hcall ⊢
    rw [hsettings] at hcall
    rw [hhanded]
    by_cases hu : u.party = t.party
    · rw [hu, Function.update_self] at hcall
      obtain rfl : t = u := congrArg Prod.fst (Option.some.inj hcall)
      have hrest := rest_inj (congrArg Prod.snd (Option.some.inj hcall))
      rw [← hrest]
      exact iff_of_false hnotHanded hstage
    · rw [Function.update_of_ne hu] at hcall
      exact h.reached u other hcall
  · intro u program hmem
    exact h.programs u program (by simpa using hmem)
  · intro u result hmem
    dsimp only
    rw [hhanded]
    have hmem := h.returned u result (by simpa using hmem)
    exact hmem.imp id (List.mem_append_left _)

/-- A call whose program is still to be taken is looked at again. -/
theorem again (h : Logged w line) (session : Session F)
    (hsettings : session.settings = w.session.settings)
    (hcall : w.trips t.party = some (t, Stage.rest w.session.settings t .entering)) {stage : Stage}
    (hstage : stage ≠ .collecting) :
    Logged
      { w with
        session
        trips := Function.update w.trips t.party
          (some (t, Stage.rest w.session.settings t stage)) } line := by
  refine { h with current := ?_, reached := ?_ }
  · intro u routine hother
    dsimp only at hother
    by_cases hu : u.party = t.party
    · rw [hu, Function.update_self] at hother
      obtain rfl : t = u := congrArg Prod.fst (Option.some.inj hother)
      exact h.current t _ hcall
    · rw [Function.update_of_ne hu] at hother
      exact h.current u routine hother
  · intro u other hother
    dsimp only at hother ⊢
    rw [hsettings] at hother
    by_cases hu : u.party = t.party
    · rw [hu, Function.update_self] at hother
      obtain rfl : t = u := congrArg Prod.fst (Option.some.inj hother)
      have hrest := rest_inj (congrArg Prod.snd (Option.some.inj hother))
      have hbefore := h.reached t .entering hcall
      rw [← hrest, hbefore]
      exact iff_of_false nofun hstage
    · rw [Function.update_of_ne hu] at hother
      exact h.reached u other hother

theorem refused (h : Logged w line) (hnumber : t.number = w.issued) (result : Except Fault Json) :
    Logged
      { w with
        issued := w.issued + 1
        log := w.log ++ [.asked t] ++ [.refused t] ++ [.returned t result] } line := by
  have hasked : asked (w.log ++ [.asked t] ++ [.refused t] ++ [.returned t result]) =
      asked w.log ++ [t] := by simp [asked]
  have hhanded : handed (w.log ++ [.asked t] ++ [.refused t] ++ [.returned t result]) =
      handed w.log := by simp [handed]
  have hdropped : dropped (w.log ++ [.asked t] ++ [.refused t] ++ [.returned t result]) =
      dropped w.log ++ [t] := by simp [dropped]
  have hnew := h.not_asked hnumber
  have hnotHanded : t ∉ handed w.log := fun hmem => hnew (h.past t (.inl hmem))
  refine { issued := ?_, order := ?_, current := ?_, past := ?_, reached := ?_, programs := ?_,
           returned := ?_ }
  · dsimp only
    rw [hasked, List.map_append, h.issued, List.range_succ, ← hnumber]
    rfl
  · intro l
    have horder := h.order l
    have hothers : ∀ u ∈ asked w.log, u ≠ t := fun u hu heq => hnew (heq ▸ hu)
    simp only [standing, hasked, hhanded, hdropped, List.filter_append] at horder ⊢
    rw [← horder, List.filter_cons_of_neg (by simp [hnotHanded]), List.filter_nil, List.append_nil]
    refine List.filter_congr fun u hu => ?_
    simp [hothers u hu]
  · intro u routine hcall
    dsimp only at hcall ⊢
    rw [hasked, hdropped]
    obtain ⟨hmem, hstays⟩ := h.current u routine hcall
    have hne : u ≠ t := fun heq => hnew (heq ▸ hmem)
    exact ⟨List.mem_append_left _ hmem, by simp [hstays, hne]⟩
  · intro u hpast
    dsimp only at hpast ⊢
    rw [hhanded, hdropped, List.mem_append, List.mem_singleton] at hpast
    rw [hasked]
    rcases hpast with hpast | hpast | rfl
    · exact List.mem_append_left _ (h.past u (.inl hpast))
    · exact List.mem_append_left _ (h.past u (.inr hpast))
    · exact List.mem_append_right _ (List.mem_singleton_self _)
  · intro u stage hcall
    dsimp only at hcall ⊢
    rw [hhanded]
    exact h.reached u stage hcall
  · intro u program hmem
    exact h.programs u program (by simpa using hmem)
  · intro u other hmem
    dsimp only at hmem ⊢
    rw [hhanded]
    rcases List.mem_append.mp hmem with hmem | hmem
    · exact (h.returned u other (by simpa using hmem)).imp id fun hmem => by simp [hmem]
    · obtain ⟨rfl, rfl⟩ : u = t ∧ other = result := by simpa using hmem
      exact .inr (by simp)

/-- The program of the first in the line is taken. -/
theorem handed (h : Logged w line) (session : Session F)
    (hsettings : session.settings = w.session.settings)
    (hcall : w.trips t.party = some (t, Stage.rest w.session.settings t .submitting))
    (hfirst : (line t.lineage).head? = some t) (hown : ∀ l, ∀ u ∈ line l, u.lineage = l)
    (hnodup : ∀ l, (line l).Nodup) :
    Logged
      { w with
        session
        trips := Function.update w.trips t.party
          (some (t, Stage.rest w.session.settings t .collecting))
        log := w.log ++ [.handed t t.program] } line := by
  have hasked : asked (w.log ++ [.handed t t.program]) = asked w.log := by simp [asked]
  have hhanded : Rota.handed (w.log ++ [.handed t t.program]) = Rota.handed w.log ++ [t] :=
    handed_append _ _
  have hdropped : dropped (w.log ++ [.handed t t.program]) = dropped w.log := by simp [dropped]
  obtain ⟨hmem, hstays⟩ := h.current t _ hcall
  have hnotHanded : t ∉ Rota.handed w.log := by
    rw [h.reached t .submitting hcall]
    nofun
  refine { issued := ?_, order := ?_, current := ?_, past := ?_, reached := ?_, programs := ?_,
           returned := ?_ }
  · dsimp only
    rw [hasked]
    exact h.issued
  · intro l
    have horder := h.order l
    have hsame : standing l (w.log ++ [.handed t t.program]) = standing l w.log := by
      simp only [standing, hasked, hhanded, hdropped]
      refine List.filter_congr fun u _ => ?_
      by_cases hu : u = t
      · subst hu
        simp [hstays]
      · simp [hu]
    dsimp only
    rw [hsame, horder, hhanded, List.filter_append, List.append_assoc]
    congr 1
    by_cases hl : l = t.lineage
    · subst hl
      have hdistinct := hnodup t.lineage
      cases hline : line t.lineage with
      | nil =>
        rw [hline] at hfirst
        cases hfirst
      | cons head rest =>
        rw [hline] at hfirst hdistinct
        obtain rfl : head = t := Option.some.inj hfirst
        have hrest : ∀ u ∈ rest, u ≠ head := fun u hu heq =>
          (List.nodup_cons.mp hdistinct).1 (heq ▸ hu)
        have hbefore : (head :: rest).filter (fun u => u ∉ Rota.handed w.log) =
            head :: rest.filter fun u => u ∉ Rota.handed w.log :=
          List.filter_cons_of_pos (by simpa using hnotHanded)
        have hafter : (head :: rest).filter (fun u => u ∉ Rota.handed w.log ++ [head]) =
            rest.filter fun u => u ∉ Rota.handed w.log ++ [head] :=
          List.filter_cons_of_neg (by simp)
        have hown : [head].filter (fun u => u.lineage = head.lineage) = [head] := by simp
        rw [hbefore, hafter, hown, List.singleton_append]
        refine congrArg (head :: ·) (List.filter_congr fun u hu => ?_)
        simp [hrest u hu]
    · have hne : t.lineage ≠ l := fun heq => hl heq.symm
      rw [List.filter_cons_of_neg (by simpa using hne), List.filter_nil, List.nil_append]
      refine List.filter_congr fun u hu => ?_
      have hother : u ≠ t := by
        rintro rfl
        exact hne (hown l u hu)
      simp [hother]
  · intro u routine hother
    dsimp only at hother ⊢
    rw [hasked, hdropped]
    by_cases hu : u.party = t.party
    · rw [hu, Function.update_self] at hother
      obtain rfl : t = u := congrArg Prod.fst (Option.some.inj hother)
      exact ⟨hmem, hstays⟩
    · rw [Function.update_of_ne hu] at hother
      exact h.current u routine hother
  · intro u hpast
    dsimp only at hpast ⊢
    rw [hhanded, hdropped, List.mem_append, List.mem_singleton] at hpast
    rw [hasked]
    rcases hpast with (hpast | rfl) | hpast
    · exact h.past u (.inl hpast)
    · exact hmem
    · exact h.past u (.inr hpast)
  · intro u other hother
    dsimp only at hother ⊢
    rw [hsettings] at hother
    rw [hhanded]
    by_cases hu : u.party = t.party
    · rw [hu, Function.update_self] at hother
      obtain rfl : t = u := congrArg Prod.fst (Option.some.inj hother)
      have hrest : Stage.rest w.session.settings t .collecting =
          (Stage.rest w.session.settings t other : Routine F (Except Fault Json)) :=
        congrArg Prod.snd (Option.some.inj hother)
      rw [← rest_inj hrest]
      simp
    · have hne : u ≠ t := fun heq => hu (congrArg _ heq)
      rw [Function.update_of_ne hu] at hother
      rw [← h.reached u other hother]
      simp [hne]
  · intro u program hmem
    rcases List.mem_append.mp hmem with hmem | hmem
    · exact h.programs u program hmem
    · obtain ⟨rfl, rfl⟩ : u = t ∧ program = t.program := by simpa using hmem
      rfl
  · intro u result hmem
    dsimp only
    rw [hhanded]
    rcases h.returned u result (by simpa using hmem) with hbefore | hbefore
    · exact .inl (List.mem_append_left _ hbefore)
    · exact .inr (List.mem_append_left _ hbefore)

/-- A party that is no longer at it leaves the other calls as they were. -/
theorem trips_of_update {trips : Party → Option (Ticket × Routine F (Except Fault Json))}
    {u : Ticket} {p : Party}
    (hcall : Function.update trips p none u.party = some (u, routine)) :
    u.party ≠ p ∧ trips u.party = some (u, routine) := by
  by_cases hu : u.party = p
  · rw [hu, Function.update_self] at hcall
    cases hcall
  · rw [Function.update_of_ne hu] at hcall
    exact ⟨hu, hcall⟩

/-- A call whose program was taken comes to its end. -/
theorem finished (h : Logged w line) (session : Session F)
    (hsettings : session.settings = w.session.settings)
    (hcall : w.trips t.party = some (t, Stage.rest w.session.settings t .collecting))
    (result : Except Fault Json) :
    Logged
      { w with
        session
        trips := Function.update w.trips t.party none
        log := w.log ++ [.ended t] ++ [.returned t result] } fun l => (line l).erase t := by
  have hasked : asked (w.log ++ [.ended t] ++ [.returned t result]) = asked w.log := by
    simp [asked]
  have hhanded : Rota.handed (w.log ++ [.ended t] ++ [.returned t result]) =
      Rota.handed w.log := by simp [Rota.handed]
  have hdropped : dropped (w.log ++ [.ended t] ++ [.returned t result]) = dropped w.log := by
    simp [dropped]
  have htaken : t ∈ Rota.handed w.log := (h.reached t .collecting hcall).mpr rfl
  refine { issued := ?_, order := ?_, current := ?_, past := ?_, reached := ?_, programs := ?_,
           returned := ?_ }
  · dsimp only
    rw [hasked]
    exact h.issued
  · intro l
    have horder := h.order l
    simp only [standing, hasked, hhanded, hdropped] at horder ⊢
    rw [horder, filter_erase_of_neg (by simpa using htaken)]
  · intro u routine hother
    obtain ⟨-, hother⟩ := trips_of_update hother
    dsimp only
    rw [hasked, hdropped]
    exact h.current u routine hother
  · intro u hpast
    dsimp only at hpast ⊢
    rw [hhanded, hdropped] at hpast
    rw [hasked]
    exact h.past u hpast
  · intro u stage hother
    dsimp only at hother ⊢
    rw [hsettings] at hother
    rw [hhanded]
    exact h.reached u stage (trips_of_update hother).2
  · intro u program hmem
    exact h.programs u program (by simpa using hmem)
  · intro u other hmem
    dsimp only at hmem ⊢
    rw [hhanded]
    rcases List.mem_append.mp hmem with hmem | hmem
    · exact (h.returned u other (by simpa using hmem)).imp id fun hmem => by simp [hmem]
    · obtain ⟨rfl, -⟩ : u = t ∧ other = result := by simpa using hmem
      exact .inl htaken

/-- A call is given up. If its program was not taken, it does not count any more. -/
theorem left (h : Logged w line) (session : Session F)
    (hsettings : session.settings = w.session.settings)
    (hcall : w.trips t.party = some (t, routine)) (hnodup : ∀ l, (line l).Nodup) :
    Logged
      { w with
        session
        trips := Function.update w.trips t.party none
        log := w.log ++ [.left t] } fun l => (line l).erase t := by
  have hasked : asked (w.log ++ [.left t]) = asked w.log := by simp [asked]
  have hhanded : Rota.handed (w.log ++ [.left t]) = Rota.handed w.log := by simp [Rota.handed]
  have hdropped : dropped (w.log ++ [.left t]) = dropped w.log ++ [t] := by simp [dropped]
  obtain ⟨hmem, hstays⟩ := h.current t routine hcall
  refine { issued := ?_, order := ?_, current := ?_, past := ?_, reached := ?_, programs := ?_,
           returned := ?_ }
  · dsimp only
    rw [hasked]
    exact h.issued
  · intro l
    have horder := h.order l
    simp only [standing, hasked, hhanded, hdropped] at horder ⊢
    by_cases htaken : t ∈ Rota.handed w.log
    · rw [filter_erase_of_neg (by simpa using htaken), ← horder]
      refine List.filter_congr fun u _ => ?_
      by_cases hu : u = t
      · subst hu
        simp [htaken]
      · simp [hu]
    · have hwithout := congrArg (List.filter fun u => u ≠ t) horder
      rw [List.filter_append, List.filter_filter, List.filter_filter,
        List.filter_filter] at hwithout
      rw [(hnodup l).erase_eq_filter, List.filter_filter]
      have hleft : ∀ u ∈ asked w.log, decide (u.lineage = l ∧
          (u ∈ Rota.handed w.log ∨ u ∉ dropped w.log ++ [t])) = (decide (u ≠ t) &&
            decide (u.lineage = l ∧ (u ∈ Rota.handed w.log ∨ u ∉ dropped w.log))) := by
        intro u _
        by_cases hu : u = t
        · subst hu
          simp [htaken]
        · simp [hu]
      have hbefore : ∀ u ∈ Rota.handed w.log, decide (u.lineage = l) =
          (decide (u ≠ t) && decide (u.lineage = l)) := by
        intro u hu
        have hne : u ≠ t := fun heq => htaken (heq ▸ hu)
        simp [hne]
      rw [List.filter_congr hleft, List.filter_congr hbefore, hwithout]
      congr 1
      refine List.filter_congr fun u _ => ?_
      by_cases hu : u = t <;> simp [hu]
  · intro u other hother
    obtain ⟨hparty, hother⟩ := trips_of_update hother
    have hne : u ≠ t := fun heq => hparty (congrArg _ heq)
    dsimp only
    rw [hasked, hdropped]
    obtain ⟨hmem, hstays⟩ := h.current u other hother
    exact ⟨hmem, by simp [hstays, hne]⟩
  · intro u hpast
    dsimp only at hpast ⊢
    rw [hhanded, hdropped, List.mem_append, List.mem_singleton] at hpast
    rw [hasked]
    rcases hpast with hpast | hpast | rfl
    · exact h.past u (.inl hpast)
    · exact h.past u (.inr hpast)
    · exact hmem
  · intro u stage hother
    dsimp only at hother ⊢
    rw [hsettings] at hother
    rw [hhanded]
    exact h.reached u stage (trips_of_update hother).2
  · intro u program hmem
    exact h.programs u program (by simpa using hmem)
  · intro u result hmem
    dsimp only
    rw [hhanded]
    have hmem := h.returned u result (by simpa using hmem)
    exact hmem.imp id (List.mem_append_left _)

end Logged

/-! ## Every move -/

/-- The lines and the log of a rota. -/
structure Kept (w : Rota F) (line : LineageId → List Ticket) : Prop where
  staged : Staged w
  lined : Lined w line
  logged : Logged w line

theorem Kept.asks (h : Kept w line) {session : Session F} {lineage : Lineage} {issued : Nat}
    {log : List TurnEvent} (hlineage : w.session.lineages[t.lineage]? = some lineage)
    (hasks : Asks w t issued log)
    (hturns : session.turns = (w.session.settings, w.session.lineages.modify t.lineage
      ({ · with gate := (lineage.gate.ask t.party).2 }))) (stage : Stage)
    (hstage : stage ≠ .collecting)
    (hfirst : stage ≠ .entering → (lineage.gate.ask t.party).1 = true) : ∃ line',
    Lined (⟨session, Function.update w.trips t.party
        (some (t, Stage.rest w.session.settings t stage)), issued, log⟩ : Rota F) line' ∧
      Logged (⟨session, Function.update w.trips t.party
        (some (t, Stage.rest w.session.settings t stage)), issued, log⟩ : Rota F) line' := by
  have hsettings := settings_of_turns hturns
  have hgates := gates_asked h.lined hlineage hturns
  have hgranted := granted_eq (t := t) h.lined hlineage
  cases hasks with
  | first hfree hnumber =>
    have hout : t.party ∉ (line t.lineage).map (·.party) := by
      intro hmem
      obtain ⟨u, routine, hcall, -, -⟩ := h.lined.mem_parties.mp hmem
      rw [hfree] at hcall
      cases hcall
    refine ⟨_, h.lined.joined hsettings hfree ?_ rfl ?_,
      h.logged.first session hsettings hnumber hstage⟩
    · intro l other hother
      rw [hgates l other hother]
      by_cases hl : l = t.lineage
      · subst hl
        simp [Gate.joined, hout]
      · simp [hl]
    · intro hwaits
      rw [hfirst hwaits] at hgranted
      have hhead := (of_decide_eq_true hgranted.symm)
      cases hline : line t.lineage with
      | nil => rfl
      | cons head rest =>
        rw [hline] at hout hhead
        have hfirst : ((head :: rest).map (·.party)).head? = some head.party := rfl
        have hkeeps := Gate.head?_joined hfirst t.party
        rw [hhead] at hkeeps
        exact absurd (Option.some.inj hkeeps ▸ List.mem_cons_self) hout
  | again hcall =>
    have hmem : t ∈ line t.lineage := (h.lined.mem _ t).mpr ⟨rfl, _, hcall⟩
    have hin : t.party ∈ (line t.lineage).map (·.party) := List.mem_map.mpr ⟨t, hmem, rfl⟩
    have hjoined : Gate.joined ((line t.lineage).map (·.party)) t.party =
        (line t.lineage).map (·.party) := if_pos hin
    refine ⟨line, h.lined.advanced hsettings ?_ hcall rfl ?_,
      h.logged.again session hsettings hcall hstage⟩
    · intro l other hother
      rw [hgates l other hother]
      by_cases hl : l = t.lineage
      · subst hl
        rw [if_pos rfl, hjoined]
      · rw [if_neg hl]
    · intro hwaits
      rw [hfirst hwaits, hjoined] at hgranted
      have hhead := of_decide_eq_true hgranted.symm
      cases hline : line t.lineage with
      | nil =>
        rw [hline] at hmem
        cases hmem
      | cons head rest =>
        rw [hline] at hhead
        have hparty : head.party = t.party := Option.some.inj hhead
        have hsame := h.lined.eq_of_party (hline ▸ List.mem_cons_self) hmem hparty
        rw [hsame]
        rfl

/-- Whatever the next move is, lines and log stay in step. -/
theorem Kept.turning (h : Kept w line) (hturning : Turning w w') : ∃ line', Kept w' line' := by
  have hstaged := h.staged.turning hturning
  suffices hrest : ∃ line', Lined w' line' ∧ Logged w' line' by
    obtain ⟨line', hlined, hlogged⟩ := hrest
    exact ⟨line', hstaged, hlined, hlogged⟩
  have hlined := h.lined
  have hlogged := h.logged
  cases hturning with
  | aside hturns =>
    exact ⟨line, hlined.kept (settings_of_turns hturns) (gates_of_turns hlined hturns) rfl,
      hlogged.kept (settings_of_turns hturns) rfl rfl rfl rfl rfl (fun _ _ => id) (fun _ _ => id)
        fun _ => id⟩
  | added hturns =>
    exact ⟨line, hlined.kept (settings_of_turns hturns) (gates_added hlined h.staged hturns) rfl,
      hlogged.kept (settings_of_turns hturns) rfl rfl rfl rfl rfl (fun _ _ => id) (fun _ _ => id)
        fun _ => id⟩
  | @asks session t lineage issued log hlineage hasks hfree hturns =>
    cases hgranted : (lineage.gate.ask t.party).1 with
    | false => exact h.asks hlineage hasks hturns .entering nofun fun hne => absurd rfl hne
    | true =>
      obtain ⟨line', hlined', hlogged'⟩ := h.asks hlineage hasks hturns .submitting nofun
        fun _ => hgranted
      exact ⟨line', hlined'.kept rfl hlined'.gates rfl, hlogged'.entered t⟩
  | @refused t lineage hlineage hfree hnumber hconflict =>
    exact ⟨line, hlined.kept rfl hlined.gates rfl, hlogged.refused hnumber _⟩
  | @handed session t hcall hturns =>
    have hsettings := settings_of_turns hturns
    have hfirst := hlined.first t .submitting hcall nofun
    exact ⟨line, hlined.advanced hsettings (gates_of_turns hlined hturns) hcall rfl fun _ => hfirst,
      hlogged.handed session hsettings hcall hfirst (fun l u hu => ((hlined.mem l u).mp hu).1)
        hlined.nodup⟩
  | @returned session t reply hcall hturns =>
    have hsettings := settings_of_turns hturns
    refine ⟨_, hlined.stepped_out hsettings hcall ?_ rfl,
      hlogged.finished session hsettings hcall (resultOf reply)⟩
    intro l lineage' hlineage'
    rw [lineages_of_turns hturns, List.getElem?_modify] at hlineage'
    cases hold : w.session.lineages[l]? with
    | none =>
      rw [hold] at hlineage'
      cases hlineage'
    | some lineage =>
      rw [hold] at hlineage'
      refine ⟨lineage, rfl, ?_⟩
      by_cases hl : t.lineage = l
      · subst hl
        obtain rfl : { lineage with
            roundTrips := lineage.roundTrips + 1, gate := lineage.gate.pass } = lineage' := by
          simpa using hlineage'
        -- The turn ends with the one who has it.
        have hholder : lineage.gate.holder = some t.party := by
          rw [hlined.gates _ lineage hold, Gate.holder_ofLine, List.head?_map,
            hlined.first t .collecting hcall nofun]
          rfl
        simp [Gate.withdraw, hholder]
      · obtain rfl : lineage = lineage' := by simpa [hl] using hlineage'
        have hparty : t.party ∉ (line l).map (·.party) := by
          intro hmem
          obtain ⟨u, other, hother, hul, -⟩ := hlined.mem_parties.mp hmem
          rw [hcall] at hother
          obtain rfl : t = u := congrArg Prod.fst (Option.some.inj hother)
          exact hl hul
        rw [hlined.gates l lineage hold, Gate.withdraw_ofLine, List.erase_of_not_mem hparty]
  | @left session t routine hcall hsettings hlineages =>
    refine ⟨_, hlined.stepped_out hsettings hcall ?_ rfl,
      hlogged.left session hsettings hcall hlined.nodup⟩
    intro l lineage' hlineage'
    rw [hlineages l] at hlineage'
    obtain ⟨lineage, hold, rfl⟩ := Option.map_eq_some_iff.mp hlineage'
    exact ⟨lineage, hold, rfl⟩

theorem kept_start (settings : Settings) (host : Host) :
    Kept (start settings host : Rota F) fun _ => [] where
  staged := nofun
  lined :=
    { gates := nofun
      mem := fun _ _ => iff_of_false nofun fun ⟨_, _, hcall⟩ => nomatch hcall
      nodup := fun _ => List.nodup_nil
      first := nofun }
  logged :=
    { issued := rfl
      order := fun _ => rfl
      current := nofun
      past := fun _ hpast => hpast.elim nofun nofun
      reached := nofun
      programs := nofun
      returned := nofun }

theorem Kept.run (h : Kept w line) (moves : List RotaMove) : ∃ line', Kept (w.run moves) line' := by
  induction moves generalizing w line with
  | nil => exact ⟨line, h⟩
  | cons move moves ih =>
    obtain ⟨line', hkept⟩ := h.turning (Rota.turning h.staged move)
    exact ih hkept

end RemoteHost.Rota
