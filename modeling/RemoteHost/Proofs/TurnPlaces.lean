import RemoteHost.Proofs.TurnLines
import RemoteHost.Proofs.Turning

/-!
# Places in line

The gate of a lineage is the line of those that make round trips in it, in the order of asking. Only
the first in the line gets beyond asking for the turn; whoever is done or gives up steps out of it.
-/

namespace RemoteHost.Rota

variable {F : Type} {w w' : Rota F} {t : Ticket} {line : LineageId → List Ticket}
  {routine : Routine F (Except Fault Json)}

/-- The gate of every lineage is the line of those that make round trips in it; only the first of
them gets beyond asking for the turn. -/
structure Lined (w : Rota F) (line : LineageId → List Ticket) : Prop where
  gates : ∀ (l : LineageId) lineage, w.session.lineages[l]? = some lineage →
    lineage.gate = .ofLine ((line l).map (·.party))
  mem : ∀ l t, t ∈ line l ↔ t.lineage = l ∧ ∃ routine, w.trips t.party = some (t, routine)
  nodup : ∀ l, (line l).Nodup
  first : ∀ t stage, w.trips t.party = some (t, Stage.rest w.session.settings t stage) →
    stage ≠ .entering → (line t.lineage).head? = some t

namespace Lined

/-- Tickets in line are told apart by their parties. -/
theorem eq_of_party (h : Lined w line) {l k : LineageId} {t u : Ticket} (ht : t ∈ line l)
    (hu : u ∈ line k) (hparty : t.party = u.party) : t = u := by
  obtain ⟨-, routine, ht⟩ := (h.mem l t).mp ht
  obtain ⟨-, other, hu⟩ := (h.mem k u).mp hu
  rw [hparty, hu] at ht
  exact (congrArg Prod.fst (Option.some.inj ht)).symm

theorem nodup_parties (h : Lined w line) (l : LineageId) :
    ((line l).map (·.party)).Nodup := by
  refine List.pairwise_map.mpr ((h.nodup l).imp_of_mem ?_)
  intro t u ht hu hne hparty
  exact hne (h.eq_of_party ht hu hparty)

theorem mem_parties (h : Lined w line) {l : LineageId} :
    t.party ∈ (line l).map (·.party) ↔
      ∃ u routine, w.trips t.party = some (u, routine) ∧ u.lineage = l ∧ u.party = t.party := by
  rw [List.mem_map]
  constructor
  · rintro ⟨u, hu, hparty⟩
    obtain ⟨hl, routine, hcall⟩ := (h.mem l u).mp hu
    exact ⟨u, routine, hparty ▸ hcall, hl, hparty⟩
  · rintro ⟨u, routine, hcall, hl, hparty⟩
    exact ⟨u, (h.mem l u).mpr ⟨hl, routine, hparty ▸ hcall⟩, hparty⟩

/-- The parties of a line from which a ticket was taken out. -/
theorem map_erase {tickets : List Ticket} (hnodup : (tickets.map (·.party)).Nodup)
    (ht : t ∈ tickets) :
    (tickets.erase t).map (·.party) = (tickets.map (·.party)).erase t.party := by
  induction tickets with
  | nil => cases ht
  | cons u tickets ih =>
    obtain ⟨hu, hrest⟩ := List.nodup_cons.mp hnodup
    by_cases hut : u = t
    · subst hut
      simp
    · have hmem : t ∈ tickets := by
        rcases List.mem_cons.mp ht with heq | hmem
        · exact absurd heq.symm hut
        · exact hmem
      have hparty : u.party ≠ t.party := by
        intro heq
        exact hu (List.mem_map.mpr ⟨t, hmem, heq.symm⟩)
      simp [hut, hparty, ih hrest hmem]

theorem kept (h : Lined w line) (hsettings : w'.session.settings = w.session.settings)
    (hgates : ∀ (l : LineageId) lineage, w'.session.lineages[l]? = some lineage →
      lineage.gate = .ofLine ((line l).map (·.party)))
    (htrips : w'.trips = w.trips) : Lined w' line where
  gates := hgates
  mem l t := by rw [htrips]; exact h.mem l t
  nodup := h.nodup
  first t stage hcall := by
    rw [hsettings, htrips] at hcall
    exact h.first t stage hcall

/-- A ticket whose party is at another stage keeps its place. -/
theorem advanced (h : Lined w line) (hsettings : w'.session.settings = w.session.settings)
    (hgates : ∀ (l : LineageId) lineage, w'.session.lineages[l]? = some lineage →
      lineage.gate = .ofLine ((line l).map (·.party)))
    (hcall : w.trips t.party = some (t, routine)) {stage : Stage}
    (htrips : w'.trips = Function.update w.trips t.party
      (some (t, Stage.rest w.session.settings t stage)))
    (hfirst : stage ≠ .entering → (line t.lineage).head? = some t) : Lined w' line where
  gates := hgates
  mem l u := by
    rw [h.mem l u, htrips]
    by_cases hu : u.party = t.party
    · rw [hu, Function.update_self, hcall]
      simp
    · rw [Function.update_of_ne hu]
  nodup := h.nodup
  first u other hother hwaits := by
    rw [hsettings, htrips] at hother
    by_cases hu : u.party = t.party
    · rw [hu, Function.update_self] at hother
      obtain rfl : t = u := congrArg Prod.fst (Option.some.inj hother)
      have hrest := congrArg Prod.snd (Option.some.inj hother)
      exact hfirst (rest_inj hrest ▸ hwaits)
    · rw [Function.update_of_ne hu] at hother
      exact h.first u other hother hwaits

/-- A new ticket is put at the end of the line. -/
theorem joined (h : Lined w line) (hsettings : w'.session.settings = w.session.settings)
    (hfree : w.trips t.party = none)
    (hgates : ∀ (l : LineageId) lineage, w'.session.lineages[l]? = some lineage →
      lineage.gate = .ofLine
        ((Function.update line t.lineage (line t.lineage ++ [t]) l).map (·.party)))
    {stage : Stage} (htrips : w'.trips = Function.update w.trips t.party
      (some (t, Stage.rest w.session.settings t stage)))
    (hfirst : stage ≠ .entering → line t.lineage = []) :
    Lined w' (Function.update line t.lineage (line t.lineage ++ [t])) := by
  have hout : ∀ l, t ∉ line l := by
    intro l hmem
    obtain ⟨-, routine, hcall⟩ := (h.mem l t).mp hmem
    rw [hfree] at hcall
    cases hcall
  refine { gates := hgates, mem := ?_, nodup := ?_, first := ?_ }
  · intro l u
    have hold := h.mem l u
    rw [htrips]
    by_cases hl : l = t.lineage
    · subst hl
      rw [Function.update_self, List.mem_append, List.mem_singleton, hold]
      by_cases hu : u.party = t.party
      · rw [hu, Function.update_self, hfree]
        constructor
        · rintro (⟨-, other, hother⟩ | rfl)
          · cases hother
          · exact ⟨rfl, _, rfl⟩
        · rintro ⟨-, other, hother⟩
          exact .inr (congrArg Prod.fst (Option.some.inj hother)).symm
      · rw [Function.update_of_ne hu]
        constructor
        · rintro (hu | rfl)
          · exact hu
          · exact absurd rfl hu
        · exact .inl
    · rw [Function.update_of_ne hl, hold]
      by_cases hu : u.party = t.party
      · rw [hu, Function.update_self, hfree]
        constructor
        · rintro ⟨-, other, hother⟩
          cases hother
        · rintro ⟨rfl, other, hother⟩
          obtain rfl : t = u := congrArg Prod.fst (Option.some.inj hother)
          exact absurd rfl hl
      · rw [Function.update_of_ne hu]
  · intro l
    by_cases hl : l = t.lineage
    · subst hl
      rw [Function.update_self, List.nodup_append]
      refine ⟨h.nodup _, by simp, ?_⟩
      intro a ha b hb heq
      rw [List.mem_singleton] at hb
      rw [heq, hb] at ha
      exact hout _ ha
    · rw [Function.update_of_ne hl]
      exact h.nodup l
  · intro u other hother hwaits
    rw [hsettings, htrips] at hother
    by_cases hu : u.party = t.party
    · rw [hu, Function.update_self] at hother
      obtain rfl : t = u := congrArg Prod.fst (Option.some.inj hother)
      have hrest := congrArg Prod.snd (Option.some.inj hother)
      rw [Function.update_self, hfirst (rest_inj hrest ▸ hwaits)]
      rfl
    · rw [Function.update_of_ne hu] at hother
      have hhead := h.first u other hother hwaits
      by_cases hl : u.lineage = t.lineage
      · rw [hl] at hhead ⊢
        rw [Function.update_self, List.head?_append, hhead]
        rfl
      · rw [Function.update_of_ne hl]
        exact hhead

/-- A ticket steps out of its line, with its turn or without. -/
theorem stepped_out (h : Lined w line) (hsettings : w'.session.settings = w.session.settings)
    (hcall : w.trips t.party = some (t, routine))
    (hgates : ∀ (l : LineageId) lineage', w'.session.lineages[l]? = some lineage' →
      ∃ lineage, w.session.lineages[l]? = some lineage ∧
        lineage'.gate = lineage.gate.withdraw t.party)
    (htrips : w'.trips = Function.update w.trips t.party none) :
    Lined w' fun l => (line l).erase t := by
  refine { gates := ?_, mem := ?_, nodup := fun l => (h.nodup l).erase t, first := ?_ }
  · intro l lineage' hlineage'
    obtain ⟨lineage, hlineage, hgate⟩ := hgates l lineage' hlineage'
    rw [hgate, h.gates l lineage hlineage, Gate.withdraw_ofLine]
    by_cases ht : t ∈ line l
    · rw [map_erase (h.nodup_parties l) ht]
    · have hparty : t.party ∉ (line l).map (·.party) := by
        intro hmem
        obtain ⟨u, other, hother, hl, -⟩ := h.mem_parties.mp hmem
        rw [hcall] at hother
        obtain rfl : t = u := congrArg Prod.fst (Option.some.inj hother)
        exact ht ((h.mem l t).mpr ⟨hl, routine, hcall⟩)
      rw [List.erase_of_not_mem ht, List.erase_of_not_mem hparty]
  · intro l u
    rw [(h.nodup l).mem_erase_iff, h.mem l u, htrips]
    by_cases hu : u.party = t.party
    · rw [hu, Function.update_self, hcall]
      constructor
      · rintro ⟨hne, -, other, hother⟩
        exact absurd (congrArg Prod.fst (Option.some.inj hother)).symm hne
      · rintro ⟨-, other, hother⟩
        cases hother
    · have hne : u ≠ t := fun heq => hu (congrArg _ heq)
      rw [Function.update_of_ne hu]
      simp [hne]
  · intro u other hother hwaits
    rw [hsettings, htrips] at hother
    by_cases hu : u.party = t.party
    · rw [hu, Function.update_self] at hother
      cases hother
    · rw [Function.update_of_ne hu] at hother
      have hhead := h.first u other hother hwaits
      have hne : u ≠ t := fun heq => hu (congrArg _ heq)
      cases hline : line u.lineage with
      | nil =>
        rw [hline] at hhead
        cases hhead
      | cons head rest =>
        rw [hline] at hhead
        obtain rfl : head = u := Option.some.inj hhead
        simp [hne]

end Lined

/-! ## Gates after a move -/

theorem gates_of_turns (h : Lined w line) {session : Session F}
    (hturns : session.turns = w.session.turns) (l : LineageId) (lineage : Lineage)
    (hlineage : session.lineages[l]? = some lineage) :
    lineage.gate = .ofLine ((line l).map (·.party)) := by
  have hsame : session.lineages = w.session.lineages := lineages_of_turns hturns
  rw [hsame] at hlineage
  exact h.gates l lineage hlineage

/-- Nobody can be in the line of a lineage that does not exist yet. -/
theorem Lined.line_eq_nil (h : Lined w line) (hstaged : Staged w) {l : LineageId}
    (hl : w.session.lineages.length ≤ l) : line l = [] := by
  refine List.eq_nil_iff_forall_not_mem.mpr fun t ht => ?_
  obtain ⟨rfl, routine, hcall⟩ := (h.mem l t).mp ht
  obtain ⟨-, hlt, -⟩ := hstaged t.party _ hcall
  exact absurd hlt (Nat.not_lt.mpr hl)

theorem gates_added (h : Lined w line) (hstaged : Staged w) {session : Session F} {label : String}
    {parent : Option LineageId} (hturns : session.turns = (w.session.settings,
      w.session.lineages ++ [{ label := label, parent := parent }])) (l : LineageId)
    (lineage : Lineage) (hlineage : session.lineages[l]? = some lineage) :
    lineage.gate = .ofLine ((line l).map (·.party)) := by
  rw [lineages_of_turns hturns] at hlineage
  rcases Nat.lt_or_ge l w.session.lineages.length with hl | hl
  · rw [List.getElem?_append_left hl] at hlineage
    exact h.gates l lineage hlineage
  · rw [List.getElem?_append_right hl] at hlineage
    obtain rfl : lineage = { label, parent } := by
      have hmem := List.mem_of_getElem? hlineage
      exact List.mem_singleton.mp hmem
    rw [h.line_eq_nil hstaged hl]
    rfl

/-- Asking for a turn changes one gate only. -/
theorem gates_asked (h : Lined w line) {session : Session F} {lineage : Lineage}
    (hlineage : w.session.lineages[t.lineage]? = some lineage)
    (hturns : session.turns = (w.session.settings, w.session.lineages.modify t.lineage
      ({ · with gate := (lineage.gate.ask t.party).2 })))
    (l : LineageId) (other : Lineage) (hother : session.lineages[l]? = some other) :
    other.gate = .ofLine (if l = t.lineage then Gate.joined ((line l).map (·.party)) t.party
      else (line l).map (·.party)) := by
  rw [lineages_of_turns hturns, List.getElem?_modify] at hother
  by_cases hl : l = t.lineage
  · subst hl
    rw [hlineage] at hother
    obtain rfl : { lineage with gate := (lineage.gate.ask t.party).2 } = other := by
      simpa using hother
    rw [if_pos rfl]
    dsimp only
    rw [h.gates _ lineage hlineage, Gate.ask_ofLine (h.nodup_parties _)]
  · have hne : t.lineage ≠ l := fun heq => hl heq.symm
    rw [if_neg hl]
    exact h.gates l other (by simpa [hne] using hother)

theorem granted_eq (h : Lined w line) {lineage : Lineage}
    (hlineage : w.session.lineages[t.lineage]? = some lineage) : (lineage.gate.ask t.party).1 =
      decide ((Gate.joined ((line t.lineage).map (·.party)) t.party).head? = some t.party) := by
  rw [h.gates _ lineage hlineage, Gate.ask_ofLine (h.nodup_parties _)]

end RemoteHost.Rota
