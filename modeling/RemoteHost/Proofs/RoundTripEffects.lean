import RemoteHost.Proofs.EvaluationTalks
import RemoteHost.Proofs.MisusedOperations

/-!
# What an evaluation leaves behind

While an evaluation waits, others go on. As long as they leave the keys and the counts of round trips
alone, what it leaves in the session follows from the reply: the keys that come with its outcome are
live, nothing else is touched, and a round trip is counted exactly if a reply was waited for to its
end, whatever is made of it afterwards.
-/

namespace RemoteHost

variable {F α : Type}

/-- The host was waited for to the end. -/
def Talk.HasAnswer (talk : Talk F) : Prop := ∃ answer, ⟨.collect, answer⟩ ∈ talk

/-- Whether a request changes neither keys nor counts, nor opens or closes anything. -/
def Request.isSparing : Request F → Bool
  | .enter _ _ | .submit _ | .collect | .isReleased _ | .newLineage _ => true
  | _ => false

namespace Session

variable {p : Party} {st middle st' : Session F} {talk first second : Talk F}
  {request : Request F} {reply : request.Reply} {lineage l : LineageId}

/-! ## What others do meanwhile -/

/-- The keys are as they were, and so is the number of round trips of every lineage. -/
structure Spares (st st' : Session F) : Prop where
  arena : st'.arena = st.arena
  roundTrips : ∀ l, st'.roundTrips l = st.roundTrips l
  lineages : st.lineages.length ≤ st'.lineages.length

namespace Spares

theorem refl (st : Session F) : Spares st st := ⟨rfl, fun _ => rfl, Nat.le_refl _⟩

theorem trans (h : Spares st middle) (h' : Spares middle st') : Spares st st' where
  arena := h'.arena.trans h.arena
  roundTrips l := (h'.roundTrips l).trans (h.roundTrips l)
  lineages := h.lineages.trans h'.lineages

theorem of_turns (harena : st'.arena = st.arena) (hturns : st'.turns = st.turns) :
    Spares st st' where
  arena := harena
  roundTrips := roundTrips_of_turns hturns
  lineages := Nat.le_of_eq (congrArg (fun t => t.2.length) hturns).symm

end Spares

/-- A session grants the requests of a talk one after another. Before each and after the last,
others may do what leaves the keys and the counts alone. -/
inductive GrantsAmid (p : Party) : Session F → Talk F → Session F → Prop
  | nothing (st : Session F) : GrantsAmid p st [] st
  | meanwhile {st middle st' : Session F} {talk : Talk F} (h : Spares st middle)
    (hrest : GrantsAmid p middle talk st') : GrantsAmid p st talk st'
  | more {st middle st' : Session F} {request : Request F} {reply : request.Reply} {talk : Talk F}
    (h : st.answer p request = (some reply, middle)) (hrest : GrantsAmid p middle talk st') :
    GrantsAmid p st (⟨request, reply⟩ :: talk) st'

namespace GrantsAmid

theorem spares (h : GrantsAmid p st [] st') : Spares st st' := by
  generalize hnil : ([] : Talk F) = talk at h
  induction h with
  | nothing st => exact .refl st
  | meanwhile h hrest ih => exact h.trans (ih hnil)
  | more => cases hnil

theorem uncons (h : GrantsAmid p st (⟨request, reply⟩ :: talk) st') : ∃ before middle,
    Spares st before ∧ before.answer p request = (some reply, middle) ∧
      GrantsAmid p middle talk st' := by
  generalize hcons : (⟨request, reply⟩ :: talk : Talk F) = whole at h
  induction h with
  | nothing => cases hcons
  | meanwhile h hrest ih =>
    obtain ⟨before, middle, hbefore, hanswer, hlater⟩ := ih hcons
    exact ⟨before, middle, h.trans hbefore, hanswer, hlater⟩
  | more hanswer hrest =>
    cases hcons
    exact ⟨_, _, .refl _, hanswer, hrest⟩

theorem split (h : GrantsAmid p st (first ++ second) st') :
    ∃ middle, GrantsAmid p st first middle ∧ GrantsAmid p middle second st' := by
  induction first generalizing st with
  | nil => exact ⟨st, .nothing st, h⟩
  | cons exchange first ih =>
    obtain ⟨before, next, hbefore, hanswer, hrest⟩ := h.uncons
    obtain ⟨middle, hfirst, hsecond⟩ := ih hrest
    exact ⟨middle, .meanwhile hbefore (.more hanswer hfirst), hsecond⟩

end GrantsAmid

/-! ## Requests -/

theorem roundTrips_modifyLineage (st : Session F) (lineage l : LineageId) {f : Lineage → Lineage}
    (hf : ∀ x, (f x).roundTrips = x.roundTrips) :
    (st.modifyLineage lineage f).roundTrips l = st.roundTrips l := by
  simp only [roundTrips, modifyLineage, List.getElem?_modify]
  cases st.lineages[l]? with
  | none => rfl
  | some x => by_cases h : lineage = l <;> simp [h, hf]

theorem spares_enter (st : Session F) (p : Party) (lineage : LineageId) (policy : ConflictPolicy) :
    Spares st (st.enter p lineage policy).2 := by
  cases hfound : st.lineages[lineage]? with
  | none =>
    simp only [enter, hfound]
    exact .refl st
  | some found =>
    rw [enter_eq st p lineage policy hfound]
    split
    · exact .refl st
    · exact ⟨rfl, fun l => roundTrips_modifyLineage st lineage l fun _ => rfl,
        Nat.le_of_eq (List.length_modify ..).symm⟩

theorem spares_answer (st : Session F) (p : Party) (h : request.isSparing = true) :
    Spares st (st.answer p request).2 := by
  cases request with
  | enter lineage policy => exact spares_enter st p lineage policy
  | submit program => exact .of_turns (sameKeys_answer st p _ rfl).arena (turns_submit st p program)
  | collect => exact .of_turns (sameKeys_answer st p _ rfl).arena (turns_collect st p)
  | isReleased key => exact .refl st
  | newLineage label =>
    exact ⟨rfl, roundTrips_addLineage st label none, by simp [answer, addLineage]⟩
  | _ => cases h

/-- Nothing but turns, connections and replies is waited for. -/
theorem spares_of_waiting (h : st.answer p request = (none, st')) : Spares st st' := by
  have hsparing : request.isSparing = true := by
    cases request with
    | enter | submit | collect => rfl
    | _ => cases h
  have hspares := spares_answer st p hsparing
  rwa [h] at hspares

theorem lineages_complete (st : Session F) (lineage : LineageId) : (st.complete lineage).lineages =
    st.lineages.modify lineage fun l =>
      { l with roundTrips := l.roundTrips + 1, gate := l.gate.pass } :=
  congrArg Prod.snd (turns_complete st lineage)

theorem roundTrips_complete_of_ne (st : Session F) (h : l ≠ lineage) :
    (st.complete lineage).roundTrips l = st.roundTrips l := by
  rw [roundTrips, lineages_complete, List.getElem?_modify_ne _ _ h.symm]
  rfl

theorem roundTrips_complete (st : Session F) (h : lineage < st.lineages.length) :
    (st.complete lineage).roundTrips lineage = st.roundTrips lineage + 1 := by
  rw [roundTrips, lineages_complete, List.getElem?_modify_eq, roundTrips,
    List.getElem?_eq_getElem h]
  rfl

/-- Whoever gives up leaves no round trip behind. -/
theorem spares_abandon (st : Session F) (p : Party) : Spares st (st.abandon p) := by
  have hlineages := (turns_abandon st p).2
  refine ⟨(sameKeys_abandon st p).arena, fun l => ?_, Nat.le_of_not_lt fun hlt => ?_⟩
  · simp only [roundTrips, hlineages]
    cases st.lineages[l]? <;> rfl
  · have hout := hlineages (st.abandon p).lineages.length
    rw [List.getElem?_eq_none (Nat.le_refl _), List.getElem?_eq_getElem hlt] at hout
    cases hout

/-! ## Talks -/

theorem GrantsAmid.sparing (h : GrantsAmid p st talk st')
    (hsparing : ∀ exchange ∈ talk, exchange.1.isSparing = true) : Spares st st' := by
  induction h with
  | nothing st => exact .refl st
  | meanwhile h hrest ih => exact h.trans (ih hsparing)
  | @more st _ _ _ _ _ hanswer hrest ih =>
    obtain ⟨hfirst, hlater⟩ := List.forall_mem_cons.mp hsparing
    have hspares := spares_answer st p hfirst
    rw [hanswer] at hspares
    exact hspares.trans (ih hlater)

theorem GrantsAmid.recordings {keys : List String}
    (h : GrantsAmid p st (Talk.recordings keys) st') : st'.arena = st.arena.restore keys ∧
      ∀ l, st'.roundTrips l = st.roundTrips l := by
  induction keys generalizing st with
  | nil => exact ⟨h.spares.arena, h.spares.roundTrips⟩
  | cons key keys ih =>
    obtain ⟨before, middle, hbefore, hanswer, hrest⟩ := h.uncons
    cases hanswer
    obtain ⟨harena, hcounts⟩ := ih hrest
    refine ⟨?_, fun l => (hcounts l).trans (hbefore.roundTrips l)⟩
    rw [harena, ← hbefore.arena]
    rfl

/-- What an evaluation leaves in a session. Whatever its reply brings is live and none of it is
remembered as released; one that fails touches no key; and a reply counts as a round trip. -/
structure Evaluated (shape : ResultShape) (lineage : LineageId) (talk : Talk F)
    (result : Except Fault Outcome) (st st' : Session F) : Prop where
  live : ∀ outcome, result = .ok outcome → ∀ key, st'.arena.contains key = true ↔
    shape.Brings outcome key ∨ st.arena.contains key = true
  released : ∀ outcome, result = .ok outcome → ∀ key, st'.arena.isReleased key = true ↔
    ¬ shape.Brings outcome key ∧ st.arena.isReleased key = true
  failed : ∀ fault, result = .error fault → st'.arena = st.arena
  counted : talk.HasAnswer → st'.roundTrips lineage = st.roundTrips lineage + 1
  uncounted : ¬ talk.HasAnswer → st'.roundTrips lineage = st.roundTrips lineage
  others : ∀ l, l ≠ lineage → st'.roundTrips l = st.roundTrips l

variable {s : Settings} {expression : String} {shape : ResultShape}
  {result : Except Fault Outcome}

theorem not_hasAnswer_refused {policy : ConflictPolicy} {fault : UsageFault} :
    ¬ Talk.HasAnswer [(⟨.enter lineage policy, .error fault⟩ : (r : Request F) × r.Reply)] := by
  rintro ⟨answer, hmem⟩
  cases List.mem_singleton.mp hmem

/-- Whoever is turned away met a conflict. -/
theorem conflict_of_refused {policy : ConflictPolicy} {fault : UsageFault}
    (h : st.answer p (.enter lineage policy) = (some (.error fault), st')) :
    policy = .reject ∧ fault = .stepConflict (st.lineageLabel lineage) := by
  cases hfound : st.lineages[lineage]? with
  | none =>
    simp only [answer, enter, hfound] at h
    cases h
  | some found =>
    rw [answer, enter_eq st p lineage policy hfound] at h
    split at h
    · rename_i hconflict
      cases h
      simp [lineageLabel, hfound, hconflict.1]
    · split at h <;> cases h

theorem evaluated_refused {policy : ConflictPolicy} {fault : UsageFault}
    (h : GrantsAmid p st [⟨.enter lineage policy, .error fault⟩] st') :
    Evaluated shape lineage [⟨.enter lineage policy, .error fault⟩] (.error (.usage fault)) st st' := by
  have hspares : Spares st st' := h.sparing fun exchange hmem => by
    obtain rfl := List.mem_singleton.mp hmem
    rfl
  exact {
    live := nofun
    released := nofun
    failed := fun _ _ => hspares.arena
    counted := fun hanswer => absurd hanswer not_hasAnswer_refused
    uncounted := fun _ => hspares.roundTrips lineage
    others := fun l _ => hspares.roundTrips l }

/-- An answer counts as a round trip whatever it is, and all keys that it gives are taken. -/
theorem GrantsAmid.answered {answer : Except TransportFault Json}
    (h : GrantsAmid p st (Talk.answered s expression shape lineage answer) st') :
    st'.arena = st.arena.restore (shape.keysOf answer) ∧
      ∃ before, Spares st before ∧ ∀ l, st'.roundTrips l = (before.complete lineage).roundTrips l := by
  let waiting : Talk F := [⟨.enter lineage s.stepConflict, .ok ()⟩,
    ⟨.submit (Program.enveloped s expression shape), ()⟩, ⟨.collect, answer⟩]
  change st.GrantsAmid p (waiting ++ _) st' at h
  obtain ⟨collected, hwaiting, hlater⟩ := GrantsAmid.split h
  have hwaited : Spares st collected := hwaiting.sparing (by simp [waiting, Request.isSparing])
  obtain ⟨before, completed, hbefore, hcomplete, hrecordings⟩ := hlater.uncons
  cases hcomplete
  have hspares : Spares st before := hwaited.trans hbefore
  have hcompleted : (before.complete lineage).arena = before.arena :=
    (sameKeys_answer before p (.complete lineage) rfl).arena
  obtain ⟨harena, hcounts⟩ := hrecordings.recordings
  refine ⟨?_, before, hspares, hcounts⟩
  rw [harena, hcompleted, hspares.arena]

theorem GrantsAmid.evaluated (h : GrantsAmid p st talk st')
    (htalk : EvaluationTalk s expression shape lineage talk result)
    (hlineage : lineage < st.lineages.length) : Evaluated shape lineage talk result st st' := by
  cases htalk with
  | refused fault => exact evaluated_refused h
  | answered answer =>
    obtain ⟨hkeys, before, hspares, hcounts⟩ := h.answered
    exact {
      live := fun outcome hresult key => by
        rw [hkeys, ResultShape.keysOf_of_ok hresult, Arena.contains_restore,
          ResultShape.mem_received]
      released := fun outcome hresult key => by
        rw [hkeys, ResultShape.keysOf_of_ok hresult, Arena.isReleased_restore_iff,
          ResultShape.mem_received]
      failed := fun fault hresult => by
        rw [hkeys, ResultShape.keysOf_of_error hresult]
        rfl
      counted := fun _ => by
        rw [hcounts, roundTrips_complete before (hlineage.trans_le hspares.lineages),
          hspares.roundTrips]
      uncounted := fun hnone => absurd ⟨answer, Talk.collect_mem_answered.mpr rfl⟩ hnone
      others := fun l hne => by
        rw [hcounts, roundTrips_complete_of_ne before hne, hspares.roundTrips] }

/-- As long as nobody has answered, an evaluation has asked for a turn and handed over a program. -/
theorem spares_unanswered {rest : Routine F (Except Fault Outcome)}
    (hleads : (evaluate s expression shape lineage : Job F Outcome).run.Leads talk rest)
    (hnone : ¬ talk.HasAnswer) : ∀ exchange ∈ talk, exchange.1.isSparing = true := by
  have hprefix {answer : Except TransportFault Json} {later : Talk F} :
      ¬ ¬ Talk.HasAnswer (⟨.enter lineage s.stepConflict, .ok ()⟩ ::
        ⟨.submit (Program.enveloped s expression shape), ()⟩ :: ⟨.collect, answer⟩ :: later) :=
    fun hnone => hnone ⟨answer, by simp⟩
  rw [run_evaluate] at hleads
  cases hleads with
  | here => exact nofun
  | ask entered hleads =>
    cases entered with
    | error fault =>
      cases hleads
      simp [Request.isSparing]
    | ok =>
      cases hleads with
      | here => simp [Request.isSparing]
      | ask _ hleads =>
        cases hleads with
        | here => simp [Request.isSparing]
        | ask answer hleads => exact absurd hnone hprefix

/-! ## Strides -/

/-- However far a stride comes, a session grants what was asked for on the way. -/
theorem grants_stride (p : Party) (routine : Routine F α) (st : Session F) :
    ∃ talk, routine.Leads talk (stride p routine st).1 ∧
      GrantsAmid p st talk (stride p routine st).2 := by
  induction routine generalizing st with
  | done a => exact ⟨[], .here _, .nothing st⟩
  | ask request next ih =>
    cases hanswer : st.answer p request with
    | mk reply middle =>
      cases reply with
      | none =>
        simp only [stride, hanswer]
        exact ⟨[], .here _, .meanwhile (spares_of_waiting hanswer) (.nothing _)⟩
      | some reply =>
        simp only [stride, hanswer]
        split
        · obtain ⟨talk, hleads, hgrants⟩ := ih reply middle
          exact ⟨_, .ask reply hleads, .more hanswer hgrants⟩
        · rename_i hcharged
          split
          · -- A party that rests has only asked for a turn.
            have hsparing : request.isSparing = true := by
              cases request with
              | enter => rfl
              | _ => simp [Request.isCharged] at hcharged
            have hspares := spares_answer st p hsparing
            rw [hanswer] at hspares
            have hrest : Spares middle (middle.rest p) := .of_turns rfl rfl
            exact ⟨[], .here _, .meanwhile (hspares.trans hrest) (.nothing _)⟩
          · obtain ⟨talk, hleads, hgrants⟩ := ih reply middle.spend
            have hspend : Spares middle middle.spend := .of_turns rfl rfl
            exact ⟨_, .ask reply hleads, .more hanswer (.meanwhile hspend hgrants)⟩

end Session

/-! ## All evaluations -/

/-- Whatever an evaluation is answered, it succeeds exactly if the reply spells an outcome that fits
its shape. It fails if it is turned away, if no reply comes, if the reply is no envelope, with the
host's own message if the reply is an error, or if the outcome does not fit. In a session that grants
what it asks for, while others leave the keys and the counts alone, a success makes just the keys
live that come with the outcome, a failure touches no key, and the lineage has one more round trip
exactly if an answer was waited for to its end. Until then it touches nothing, nor does giving it up.
Every answer can come, and whatever a party is doing, a stride is granted in this way. -/
theorem evaluation_changes_by_outcome (s : Settings) (expression : String) (shape : ResultShape)
    (lineage : LineageId) :
    (∀ (talk : Talk F) (result : Except Fault Outcome),
      (evaluate s expression shape lineage).run.Leads talk (.done result) →
      (∀ outcome, result = .ok outcome ↔ ∃ reply, ⟨.collect, .ok reply⟩ ∈ talk ∧
        Spells reply (.ofOutcome outcome) ∧ shape.fits outcome = true) ∧
      ((∃ fault, talk = [⟨.enter lineage s.stepConflict, .error fault⟩] ∧
          result = .error (.usage fault)) ∨
        ∃ answer, ⟨.collect, answer⟩ ∈ talk ∧ shape.Reads answer result) ∧
      ∀ (p : Party) (st st' : Session F), st.GrantsAmid p talk st' →
        lineage < st.lineages.length →
        st.Evaluated shape lineage talk result st' ∧
        ∀ fault, result = .error (.usage fault) →
          ∃ label, s.stepConflict = .reject ∧ fault = .stepConflict label) ∧
    (∀ (talk : Talk F) (rest : Routine F (Except Fault Outcome)),
      (evaluate s expression shape lineage).run.Leads talk rest → ¬ talk.HasAnswer →
      ∀ (p : Party) (st st' : Session F), st.GrantsAmid p talk st' →
        st.Spares st' ∧ st.Spares (st'.abandon p)) ∧
    (∀ answer, ∃ (talk : Talk F) (result : Except Fault Outcome),
      (evaluate s expression shape lineage).run.Leads talk (.done result) ∧
        ⟨.collect, answer⟩ ∈ talk) ∧
    ∀ (p : Party) (st : Session F) (routine : Routine F (Except Fault Outcome)),
      ∃ talk, routine.Leads talk (Session.stride p routine st).1 ∧
        st.GrantsAmid p talk (Session.stride p routine st).2 := by
  refine ⟨?done, ?waiting, ?answers, fun p st routine => Session.grants_stride p routine st⟩
  case done =>
    intro talk result hleads
    have htalk := leads_evaluate.mp hleads
    refine ⟨htalk.eq_ok_iff, ?_, fun p st st' hgrants hlineage =>
      ⟨hgrants.evaluated htalk hlineage, ?_⟩⟩
    · cases htalk with
      | refused fault => exact .inl ⟨fault, rfl, rfl⟩
      | answered answer => exact .inr ⟨answer, Talk.collect_mem_answered.mpr rfl, shape.reads_comesTo answer⟩
    · rintro fault rfl
      obtain rfl := htalk.of_usage
      obtain ⟨before, after, -, hanswer, -⟩ := hgrants.uncons
      obtain ⟨hpolicy, hfault⟩ := Session.conflict_of_refused hanswer
      exact ⟨_, hpolicy, hfault⟩
  case waiting =>
    intro talk rest hleads hnone p st st' hgrants
    have hspares := hgrants.sparing (Session.spares_unanswered hleads hnone)
    exact ⟨hspares, hspares.trans (st'.spares_abandon p)⟩
  case answers =>
    exact fun answer =>
      ⟨_, _, leads_evaluate.mpr (.answered answer), Talk.collect_mem_answered.mpr rfl⟩

/-- A released key and a live one, and a host that is about to give a list with the released key. -/
def reopening : Session Unit where
  settings := {}
  host := .replaying { replies :=
    [.json (Envelope.primitive (.array [.string "v2", .null, .string "v3"])).toJson] }
  arena := ((Arena.empty 8).record "v2").drain.2.record "v1"
  lineages := [{ label := "step" }]

/-- The released key is live again, the other keys of the list are live as well, and a round trip is
counted. -/
theorem given_again_is_live :
    let st' := (Session.stride .foreground
      (evaluate {} "views()" .handleList 0 : Job Unit Outcome).run reopening).2
    reopening.arena.isReleased "v2" = true ∧ st'.arena.isReleased "v2" = false ∧
      (∀ key ∈ ["v1", "v2", "v3"], st'.arena.contains key = true) ∧ st'.roundTrips 0 = 1 := by
  intro st'
  obtain ⟨hdone, -, -, hstride⟩ :=
    evaluation_changes_by_outcome (F := Unit) {} "views()" .handleList 0
  obtain ⟨talk, hleads, hgrants⟩ := hstride .foreground reopening
    (evaluate {} "views()" .handleList 0).run
  obtain ⟨hok, -, heffect⟩ := hdone talk (.ok (.value (.array
    [.string "v2", .null, .string "v3"]))) hleads
  obtain ⟨reply, hreply, -⟩ := (hok _).mp rfl
  obtain ⟨hevaluated, -⟩ := heffect .foreground reopening st' hgrants (by decide)
  have hbrings : ∀ key ∈ ["v2", "v3"], ResultShape.handleList.Brings (.value (.array
      [.string "v2", .null, .string "v3"])) key := by
    intro key hkey
    have hlisted : key = "v2" ∨ key = "v3" := by simpa using hkey
    refine .listed ?_
    rcases hlisted with rfl | rfl <;> simp
  refine ⟨by decide +kernel, ?_, ?_, hevaluated.counted ⟨_, hreply⟩⟩
  · apply Bool.eq_false_iff.mpr
    intro hreleased
    exact ((hevaluated.released _ rfl "v2").mp hreleased).1 (hbrings "v2" (by simp))
  · intro key hkey
    rw [hevaluated.live _ rfl]
    rcases List.mem_cons.mp hkey with rfl | hkey
    · exact .inr (by decide +kernel)
    · exact .inl (hbrings key hkey)

end RemoteHost
