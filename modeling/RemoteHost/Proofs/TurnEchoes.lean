import Mathlib.Tactic.SplitIfs
import RemoteHost.Proofs.Rota

/-!
# Rotas with one call more

Two rotas that do the same, but for one call that was made in one of them and came to nothing. All
later calls have other numbers there, and do what they do in the other one.
-/

namespace RemoteHost

/-- The same event of another call. -/
def TurnEvent.renamed (f : Ticket → Ticket) : TurnEvent → TurnEvent
  | .asked t => .asked (f t)
  | .entered t => .entered (f t)
  | .refused t => .refused (f t)
  | .handed t program => .handed (f t) program
  | .ended t => .ended (f t)
  | .returned t result => .returned (f t) result
  | .left t => .left (f t)

/-- The ticket of the same call where one more call was made before the calls from a number on. -/
def Ticket.shifted (n : Nat) (t : Ticket) : Ticket :=
  if t.number < n then t else { t with number := t.number + 1 }

namespace Rota

variable {F : Type} {w w' : Rota F} {t : Ticket} {n : Nat} {base extra : List TurnEvent}

/-- One rota does what another one does, in which one call less was made. -/
structure Echo (n : Nat) (base extra : List TurnEvent) (w w' : Rota F) : Prop where
  session : w'.session = w.session
  trips : ∀ p, w'.trips p = (w.trips p).map fun trip => (trip.1.shifted n, trip.2)
  issued : w'.issued = w.issued + 1
  le_issued : n ≤ w.issued
  log : ∃ since, w.log = base ++ since ∧
    w'.log = base ++ extra ++ since.map (·.renamed (·.shifted n))

theorem shifted_of_lt (h : t.number < n) : t.shifted n = t := if_pos h

@[simp] theorem party_shifted (t : Ticket) : (t.shifted n).party = t.party := by
  unfold Ticket.shifted
  split <;> rfl

theorem shifted_new {p : Party} {l : LineageId} {program : String} {issued : Nat}
    (h : n ≤ issued) :
    (⟨issued, p, l, program⟩ : Ticket).shifted n = ⟨issued + 1, p, l, program⟩ :=
  if_neg (Nat.not_lt.mpr h)

/-- Different calls stay different. -/
theorem shifted_inj {t u : Ticket} (h : t.shifted n = u.shifted n) : t = u := by
  obtain ⟨number, p, l, program⟩ := t
  obtain ⟨number', p', l', program'⟩ := u
  unfold Ticket.shifted at h
  dsimp only at h
  split_ifs at h with ht hu hu
  all_goals
    obtain ⟨hnumber, rfl, rfl, rfl⟩ := Ticket.mk.inj h
    obtain rfl : number = number' := by omega
    rfl

theorem noted_shifted (t : Ticket) (request : Request F) (reply : request.Reply) :
    noted (t.shifted n) request reply =
      (noted t request reply).map (·.renamed (·.shifted n)) := by
  cases request with
  | enter l policy => cases reply <;> rfl
  | _ => rfl

theorem Echo.logs (h : Echo n base extra w w') (new : List TurnEvent) : ∃ since,
    w.log ++ new = base ++ since ∧ w'.log ++ new.map (·.renamed (·.shifted n)) =
      base ++ extra ++ since.map (·.renamed (·.shifted n)) := by
  obtain ⟨since, hlog, hlog'⟩ := h.log
  exact ⟨since ++ new, by rw [hlog, List.append_assoc],
    by rw [hlog', List.map_append, List.append_assoc]⟩

/-- The same for another state of the session, and with more that happened. -/
theorem Echo.extended (h : Echo n base extra w w') (session : Session F) (new : List TurnEvent) :
    Echo n base extra { w with session, log := w.log ++ new }
      { w' with session, log := w'.log ++ new.map (·.renamed (·.shifted n)) } where
  session := rfl
  trips := h.trips
  issued := h.issued
  le_issued := h.le_issued
  log := h.logs new

theorem Echo.update (h : Echo n base extra w w') (p : Party)
    (trip : Option (Ticket × Routine F (Except Fault Json))) :
    Echo n base extra { w with trips := Function.update w.trips p trip }
      { w' with
        trips := Function.update w'.trips p
          (trip.map fun trip => (trip.1.shifted n, trip.2)) } where
  session := h.session
  trips q := by
    by_cases hq : q = p
    · subst hq
      simp
    · simp [hq, h.trips q]
  issued := h.issued
  le_issued := h.le_issued
  log := h.log

theorem Echo.rest (h : Echo n base extra w w') (t : Ticket)
    (routine : Routine F (Except Fault Json)) :
    Echo n base extra (w.rest t routine) (w'.rest (t.shifted n) routine) := by
  cases routine with
  | done result =>
    have hsame := (h.extended w.session [.returned t result]).update t.party none
    simpa [Rota.rest, TurnEvent.renamed, h.session] using hsame
  | ask request next =>
    have hsame := h.update t.party (some (t, .ask request next))
    simpa [Rota.rest] using hsame

theorem Echo.poll (h : Echo n base extra w w') (t : Ticket)
    (routine : Routine F (Except Fault Json)) :
    Echo n base extra (w.poll t routine) (w'.poll (t.shifted n) routine) := by
  cases routine with
  | done result => exact h.rest t (.done result)
  | ask request next =>
    simp only [Rota.poll, party_shifted, h.session]
    cases w.session.answer t.party request with
    | mk answer session =>
      cases answer with
      | none =>
        have hsame := (h.extended session []).rest t (.ask request next)
        simpa using hsame
      | some reply =>
        dsimp only
        rw [noted_shifted]
        exact (h.extended _ _).rest t _

theorem Echo.begin (h : Echo n base extra w w') (p : Party) (l : LineageId) (program : String) :
    Echo n base extra (w.begin p l program) (w'.begin p l program) := by
  have hticket : (⟨w.issued, p, l, program⟩ : Ticket).shifted n = ⟨w'.issued, p, l, program⟩ := by
    rw [shifted_new h.le_issued, h.issued]
  have hasks : Echo n base extra
      { w with issued := w.issued + 1, log := w.log ++ [.asked ⟨w.issued, p, l, program⟩] }
      { w' with
        issued := w'.issued + 1
        log := w'.log ++ [.asked ⟨w'.issued, p, l, program⟩] } := by
    refine { h with issued := by simp [h.issued], le_issued := Nat.le_succ_of_le h.le_issued,
                    log := ?_ }
    have hlogs := h.logs [.asked ⟨w.issued, p, l, program⟩]
    rwa [List.map_singleton, TurnEvent.renamed, hticket] at hlogs
  have hpoll := hasks.poll ⟨w.issued, p, l, program⟩ (roundTrip w'.session.settings program l).run
  rw [hticket] at hpoll
  have hsettings : w.begin p l program =
      ({ w with
        issued := w.issued + 1
        log := w.log ++ [.asked ⟨w.issued, p, l, program⟩] } : Rota F).poll
          ⟨w.issued, p, l, program⟩ (roundTrip w'.session.settings program l).run := by
    rw [h.session]
    rfl
  rw [hsettings]
  exact hpoll

theorem Echo.act (h : Echo n base extra w w') (move : RotaMove) :
    Echo n base extra (w.act move) (w'.act move) := by
  cases move with
  | begin p l program =>
    have hpossible : ((w'.trips p).isNone ∧ l < w'.session.lineages.length) ↔
        ((w.trips p).isNone ∧ l < w.session.lineages.length) := by
      rw [h.trips, h.session, Option.isNone_map]
    simp only [Rota.act, hpossible]
    split
    · exact h.begin p l program
    · exact h
  | go p =>
    have htrip := h.trips p
    simp only [Rota.act, go]
    cases hcall : w.trips p with
    | none =>
      rw [hcall] at htrip
      simpa only [htrip, Option.map_none] using h
    | some trip =>
      rw [hcall] at htrip
      simp only [htrip, Option.map_some]
      exact h.poll trip.1 trip.2
  | abandon p =>
    have htrip := h.trips p
    simp only [Rota.act]
    cases hcall : w.trips p with
    | none =>
      rw [hcall] at htrip
      simpa only [htrip, Option.map_none] using h
    | some trip =>
      rw [hcall] at htrip
      simp only [htrip, Option.map_some, h.session]
      exact (h.extended (w.session.abandon p) [.left trip.1]).update p none
  | addLineage label parent =>
    have hsame := h.extended (w.session.addLineage label parent).2 []
    simpa [Rota.act, h.session] using hsame
  | host host =>
    have hsame := h.extended { w.session with host } []
    simpa [Rota.act, h.session] using hsame

theorem Echo.run (h : Echo n base extra w w') (moves : List RotaMove) :
    Echo n base extra (w.run moves) (w'.run moves) := by
  induction moves generalizing w w' with
  | nil => exact h
  | cons move moves ih => exact ih (h.act move)

/-- Calls that were made before the call too many have the same results. -/
theorem Echo.returned_iff (h : Echo n base extra w w') {u : Ticket} {result : Except Fault Json}
    (hu : u.number < n) (hextra : .returned u result ∉ extra) :
    .returned u result ∈ w'.log ↔ .returned u result ∈ w.log := by
  obtain ⟨since, hlog, hlog'⟩ := h.log
  have hrenamed : .returned u result ∈ since.map (·.renamed (·.shifted n)) ↔
      .returned u result ∈ since := by
    rw [List.mem_map]
    constructor
    · rintro ⟨event, hmem, heq⟩
      cases event with
      | returned t other =>
        obtain ⟨hticket, rfl⟩ := TurnEvent.returned.inj heq
        rw [← shifted_of_lt hu] at hticket
        exact shifted_inj hticket ▸ hmem
      | _ => cases heq
    · intro hmem
      exact ⟨_, hmem, by rw [TurnEvent.renamed, shifted_of_lt hu]⟩
  rw [hlog, hlog', List.append_assoc, List.mem_append, List.mem_append, List.mem_append, hrenamed]
  simp [hextra]

end Rota

end RemoteHost
