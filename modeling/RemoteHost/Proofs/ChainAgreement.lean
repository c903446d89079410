import RemoteHost.Proofs.FusedChains
import RemoteHost.Proofs.WindowRow

/-!
# Fused and stepwise resolution agree

Whatever is resolved on the way along a chain, the last query tells what its operation comes to at
the object to which the chain leads, and one program is sent for it and for each object that was
resolved.
-/

namespace RemoteHost

variable {F σ Obj : Type}

namespace Link

theorem resolutions_fused (links : List Link) : resolutions false (links.map fused) = 0 := by
  induction links with
  | nil => rfl
  | cons link links ih =>
    simp only [List.map_cons, resolutions, fused, resolves] at ih ⊢
    simpa using ih

/-- Without steps and materializations nothing but the first object of a chain can be resolved. -/
theorem resolutions_map_fused (resolved : Bool) (links : List Link) :
    resolutions resolved (links.map fused) = 0 := by
  cases links with
  | nil => rfl
  | cons link links =>
    have hrest := resolutions_fused links
    simp only [List.map_cons, resolutions, fused, resolves] at hrest ⊢
    simpa using hrest

end Link

namespace Editor

variable {e : Editor σ Obj} {p : Party} {s : Session F} {w w' : σ} {st : Settings}
  {root : Proxy} {o : Obj} {end_ : Obj × σ} {links : List Link}

/-- A job of a party that is alone comes to an end with a result of some meaning, after some number
of programs. -/
def Ends (e : Editor σ Obj) (p : Party) (job : Job F Answer) (s : Session F) (w : σ)
    (meant : Except Fault (Meant Obj)) (sent : Nat) : Prop :=
  ∃ result s' w', ∃ programs : List String,
    e.attend p job.run s w = (some result, s', w') ∧ result.map (e.meaning w') = meant ∧
    s'.journal.events = s.journal.events ++ programs.map .executed ∧ programs.length = sent

theorem ends_askAlong (h : e.Lawful st) (hstands : Stands e st s root w w' o (1 + links.length))
    (hsuffixes : ∀ link ∈ links, e.isOperation link.suffix)
    (hfollow : e.follow (links.map (·.suffix)) o w' = some end_) (last : Query)
    (hlast : last.reading ≠ .object) (hsuffix : e.isOperation last.suffix)
    (atRoot step : Option LineageId)
    (hstep : step = none → Link.endsResolved (root.isResolved || atRoot.isSome) links = true) :
    e.Ends p (askAlong st root atRoot links last step) s w
      (e.told last.reading (e.perform last.suffix end_.1 end_.2).1)
      (1 + ((!root.isResolved && atRoot.isSome).toNat +
        Link.resolutions (root.isResolved || atRoot.isSome) links)) := by
  obtain ⟨start, s₁, v₁, programs₁, keys₁, hroot, hserved₁, hcount₁, hresolved₁, hstands₁⟩ :=
    attend_resolveIn (p := p) h hstands atRoot
  obtain ⟨object, s₂, v₂, programs₂, keys₂, halong, hserved₂, hcount₂, hresolved₂, hstands₂⟩ :=
    attend_followLinks (p := p) h hstands₁ hsuffixes hfollow
  rw [hresolved₁] at hcount₂ hresolved₂
  have hready : step = none → object.isResolved = true := by
    rw [hresolved₂]
    exact hstep
  obtain ⟨result, s₃, v₃, program, keys₃, hask, hserved₃, hmeant⟩ :=
    attend_ask (p := p) h hstands₂ last hlast hsuffix hready
  have hserved := (hserved₁.trans hserved₂).trans hserved₃
  refine ⟨result, s₃, v₃, _, ?_, hmeant, hserved.events, ?_⟩
  · exact (attend_job_ok hroot _).trans ((attend_job_ok halong _).trans hask)
  · rw [List.length_append, List.length_append, hcount₁, hcount₂, List.length_singleton,
      Nat.add_comm]

/-- The last query of a chain tells the same, whichever objects on the way are left pending and
whichever are resolved, by materializing them or by a call with a step on a resolved one. Fused,
the chain takes one program; each object that is resolved takes one more. -/
theorem fused_and_stepwise_agree (h : e.Lawful st) (hrest : s.AtRest)
    (hroot : e.isExpression (root.source st))
    (hvalue : e.eval (root.source st) w = (.ok (some o), w'))
    (hsuffixes : ∀ link ∈ links, e.isOperation link.suffix)
    (hfollow : e.follow (links.map (·.suffix)) o w' = some end_) (last : Query)
    (hlast : last.reading ≠ .object) (hsuffix : e.isOperation last.suffix)
    (hkept : ∀ key, root = .resolved key → s.arena.isReleased key = false)
    (hlimit : ∀ most, st.maxChainLength = some most → root.links + links.length + 1 ≤ most)
    (lineage : LineageId) (atRoot step : Option LineageId)
    (hstep : step = none → Link.endsResolved (root.isResolved || atRoot.isSome) links = true) :
    e.Ends p (askAlong st root none (links.map .fused) last (some lineage)) s w
      (e.told last.reading (e.perform last.suffix end_.1 end_.2).1) 1 ∧
    e.Ends p (askAlong st root atRoot links last step) s w
      (e.told last.reading (e.perform last.suffix end_.1 end_.2).1)
      (1 + ((!root.isResolved && atRoot.isSome).toNat +
        Link.resolutions (root.isResolved || atRoot.isSome) links)) := by
  have hroom : ∀ most, st.maxChainLength = some most → root.links + (1 + links.length) ≤ most := by
    intro most hmost
    have hlength := hlimit most hmost
    omega
  have hstands : Stands e st s root w w' o (1 + links.length) :=
    { atRest := hrest, expression := hroot, denotes := ⟨w', hvalue, h.alike_refl w'⟩,
      usable := hkept, room := hroom }
  refine ⟨?_, ends_askAlong h hstands hsuffixes hfollow last hlast hsuffix atRoot step hstep⟩
  have hfused : (links.map Link.fused).map (·.suffix) = links.map (·.suffix) := by
    rw [List.map_map]
    rfl
  have hoperations : ∀ link ∈ links.map Link.fused, e.isOperation link.suffix := by
    intro link hlink
    obtain ⟨original, horiginal, rfl⟩ := List.mem_map.mp hlink
    exact hsuffixes original horiginal
  have hlength : Stands e st s root w w' o (1 + (links.map Link.fused).length) := by
    rwa [List.length_map]
  have hends := ends_askAlong (p := p) h hlength hoperations (hfused ▸ hfollow) last hlast hsuffix
    none (some lineage) nofun
  simpa [Link.resolutions_map_fused] using hends

/-- From the window in front over two more to the fourth. The third is materialized, and the fourth
resolved by the call itself. -/
def walk : List Link :=
  [⟨".next()", none, none⟩, ⟨".next()", none, some 0⟩, ⟨".next()", some 0, none⟩]

/-- A session with one lineage in which nothing happens. -/
def idle : Session Unit :=
  { settings := {}, host := .replaying {}, lineages := [{ label := "step", parent := none }] }

theorem idle_atRest : idle.AtRest := by
  intro l x hx
  rw [List.mem_singleton.mp (List.mem_of_getElem? hx)]

/-- The window after the fourth is the one at place four, found by one program or by three. -/
theorem fifth_window_agrees :
    Row.editor.follow (walk.map (·.suffix)) 0 {} = some (3, ⟨[], 3⟩) ∧
    Row.editor.Ends .foreground (askAlong {} (activeWindow {}) none (walk.map .fused)
      ⟨".next()", .integer⟩ (some 0)) idle {} (.ok (.answer (.integer 4))) 1 ∧
    Row.editor.Ends .foreground (askAlong {} (activeWindow {}) none walk ⟨".next()", .integer⟩
      (some 0)) idle {} (.ok (.answer (.integer 4))) 3 := by
  have hsuffixes : ∀ link ∈ walk, link.suffix = ".next()" := by
    simp [walk]
  have hfollow : Row.editor.follow (walk.map (·.suffix)) 0 {} = some (3, ⟨[], 3⟩) := rfl
  refine ⟨hfollow, ?_⟩
  exact fused_and_stepwise_agree Row.editor_lawful idle_atRest trivial (Row.eval_activeWindow {})
    hsuffixes hfollow ⟨".next()", .integer⟩ (by decide) rfl nofun nofun 0 none (some 0) nofun

end Editor

end RemoteHost
