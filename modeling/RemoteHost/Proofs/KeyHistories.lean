import RemoteHost.Proofs.ArenaRefinement
import RemoteHost.Proofs.HandleCustody

/-!
# Arenas as histories tell them

An arena changes when a party asks for it, and when an operation calls a function with a handle. So
a history tells all that was ever done to the arena of a session, and what came of it.
-/

namespace RemoteHost

variable {F : Type}

theorem ArenaStep.run_append {σ : Type} (take : σ → ArenaStep → List String × σ)
    (steps later : List ArenaStep) (state : σ) :
    (ArenaStep.run take (steps ++ later) state).2 =
      (ArenaStep.run take later (ArenaStep.run take steps state).2).2 := by
  induction steps generalizing state with
  | nil => rfl
  | cons step steps ih => exact ih (take state step).2

/-! ## Occurrences -/

namespace Occurrence

variable {o : Occurrence F}

/-- What an occurrence does to the arena. -/
def arenaStep? : Occurrence F → Option ArenaStep
  | .asked _ (.record key) _ => some (.record key)
  | .asked _ .drain _ => some .drain
  | .asked _ (.restore keys) _ => some (.restore keys)
  | .operation _ (.called _ (.handle key)) => some (.record key)
  | _ => none

theorem arenaStep?_of_isSilent (h : o.isSilent = true) : o.arenaStep? = none := by
  cases o with
  | arrived | taken | closed => rfl
  | operation id deed =>
    cases deed with
    | called => cases h
    | returned | ended => rfl
  | _ => cases h

theorem receives_iff {key : String} : o.Receives key ↔ o.arenaStep? = some (.record key) := by
  constructor
  · intro h
    cases o with
    | asked p request reply =>
      cases request with
      | record => exact congrArg (some <| ArenaStep.record ·) h
      | _ => cases h
    | operation id deed =>
      cases deed with
      | called slot outcome =>
        cases outcome with
        | handle => exact congrArg (some <| ArenaStep.record ·) h
        | _ => cases h
      | _ => cases h
    | _ => cases h
  · intro h
    unfold arenaStep? at h
    split at h <;> cases h <;> rfl

end Occurrence

namespace Arena

/-- The arena that a history leads to. -/
def replay (a : Arena) (history : List (Occurrence F)) : Arena :=
  (ArenaStep.run take (history.filterMap Occurrence.arenaStep?) a).2

theorem replay_append (a : Arena) (history later : List (Occurrence F)) :
    a.replay (history ++ later) = (a.replay history).replay later := by
  unfold replay
  rw [List.filterMap_append, ArenaStep.run_append]

theorem replay_still (a : Arena) {history : List (Occurrence F)}
    (h : ∀ o ∈ history, o.arenaStep? = none) : a.replay history = a := by
  unfold replay
  rw [List.filterMap_eq_nil_iff.2 h]
  rfl

theorem replay_cons_step (a : Arena) {o : Occurrence F} {step : ArenaStep}
    (h : o.arenaStep? = some step) (later : List (Occurrence F)) :
    a.replay (o :: later) = (a.take step).2.replay later := by
  unfold replay
  rw [List.filterMap_cons_some h]
  rfl

theorem replay_cons_still (a : Arena) {o : Occurrence F} (h : o.arenaStep? = none)
    (later : List (Occurrence F)) : a.replay (o :: later) = a.replay later := by
  unfold replay
  rw [List.filterMap_cons_none h]

end Arena

/-! ## Moves -/

namespace Scene

/-- What a move does to the arena is what it adds to the history. -/
inductive Replayed (w : Scene F) (later : List (Occurrence F)) (w' : Scene F) : Prop where
  | still (harena : w'.session.arena = w.session.arena)
      (hlater : ∀ o ∈ later, o.arenaStep? = none)
  | step {first : List (Occurrence F)} {o : Occurrence F} {step : ArenaStep}
      (hlater : later = first ++ [o]) (hfirst : ∀ o ∈ first, o.arenaStep? = none)
      (hstep : o.arenaStep? = some step) (harena : w'.session.arena = (w.session.arena.take step).2)
      (htold : ∀ p keys, o = .asked p .drain keys →
        first = [] ∧ keys = w.session.arena.drain.1)

variable {w w' : Scene F} {later : List (Occurrence F)}

theorem Replayed.arena (h : Replayed w later w') :
    w'.session.arena = w.session.arena.replay later := by
  cases h with
  | still harena hlater => rw [harena, Arena.replay_still _ hlater]
  | step hlater hfirst hstep harena =>
    rw [harena, hlater, Arena.replay_append, Arena.replay_still _ hfirst,
      Arena.replay_cons_step _ hstep]
    rfl

/-- Whoever drains is told what was live. -/
theorem Replayed.drained (h : Replayed w later w') {p : Party} {keys : List String}
    {before after : List (Occurrence F)}
    (hlater : later = before ++ .asked p .drain keys :: after) :
    before = [] ∧ after = [] ∧ keys = w.session.arena.drain.1 := by
  cases h with
  | still _ hstill => exact nomatch hstill (.asked p .drain keys) (by rw [hlater]; simp)
  | step heq hfirst _ _ htold =>
    rw [hlater] at heq
    rcases List.eq_nil_or_concat after with rfl | ⟨after, o, rfl⟩
    · obtain ⟨rfl, hlast⟩ := List.append_inj' heq rfl
      obtain ⟨rfl, hkeys⟩ := htold p keys (List.singleton_inj.1 hlast).symm
      exact ⟨rfl, rfl, hkeys⟩
    · rw [List.concat_eq_append, ← List.cons_append, ← List.append_assoc] at heq
      obtain ⟨rfl, -⟩ := List.append_inj' heq rfl
      exact nomatch hfirst (.asked p .drain keys) (by simp)

theorem Replayed.silent (hsame : w.session.SameKeys w'.session)
    (hsilent : ∀ o ∈ later, o.isSilent = true) : Replayed w later w' :=
  .still hsame.arena fun o ho => Occurrence.arenaStep?_of_isSilent (hsilent o ho)

theorem Replayed.single {o : Occurrence F} {step : ArenaStep} (hstep : o.arenaStep? = some step)
    (harena : w'.session.arena = (w.session.arena.take step).2)
    (htold : ∀ p keys, o = .asked p .drain keys → keys = w.session.arena.drain.1) :
    Replayed w [o] w' :=
  .step (List.nil_append _).symm (by simp) hstep harena fun p keys ho => ⟨rfl, htold p keys ho⟩

theorem replayed_go (w : Scene F) (p : Party) :
    ∃ later, (w.go p).history = w.history ++ later ∧ Replayed w later (w.go p) := by
  unfold go
  split
  · exact ⟨[], (List.append_nil _).symm, .still rfl (by simp)⟩
  · exact ⟨_, rfl, .still rfl (by simp [Occurrence.arenaStep?])⟩
  · rename_i service request next hbusy
    have hsame : request.isAboutKeys = false →
        w.session.SameKeys (w.session.answer p request).2 := w.session.sameKeys_answer p request
    split
    · rename_i session hanswer
      rw [hanswer] at hsame
      refine ⟨[], (List.append_nil _).symm, .still ?_ (by simp)⟩
      cases request with
      | record | drain | restore => cases hanswer
      | _ => exact (hsame rfl).arena
    · rename_i reply session hanswer
      rw [hanswer] at hsame
      refine ⟨_, rfl, ?_⟩
      cases request with
      | record key =>
        cases hanswer
        exact .single rfl rfl nofun
      | drain =>
        cases hanswer
        refine .single rfl rfl ?_
        rintro _ _ ⟨⟩
        rfl
      | restore keys =>
        cases hanswer
        exact .single rfl rfl nofun
      | _ => exact .still (hsame rfl).arena (by simp [Occurrence.arenaStep?])

theorem replayed_look (behave : Behaviour F) (w : Scene F) (id : OperationId)
    (op : CallbackOperation F) (slot : Nat) :
    ∃ later, (w.look behave id op slot).history = w.history ++ later ∧
      Replayed w later (w.look behave id op slot) := by
  have hidle : ∃ later, w.history = w.history ++ later ∧ Replayed w later w :=
    ⟨[], (List.append_nil _).symm, .still rfl (by simp)⟩
  unfold look
  split
  · rename_i listener hstage hget
    split
    · split
      · exact hidle
      · exact ⟨[], (List.append_nil _).symm, .still rfl (by simp)⟩
      · rename_i payload hseen
        refine ⟨_, rfl, ?_⟩
        have harena := (w.session.spend.deliver_keys behave id op listener payload).2
        unfold takingDeeds
        cases haccepts : listener.slot.accepts? payload with
        | none =>
          rw [haccepts] at harena
          exact .still harena (by simp [Occurrence.arenaStep?])
        | some outcome =>
          rw [haccepts] at harena
          cases outcome with
          | value | absent => exact .still harena (by simp [Occurrence.arenaStep?])
          | handle key =>
            exact .step (List.singleton_append ..).symm (by simp [Occurrence.arenaStep?]) rfl
              harena nofun
    · exact hidle
  · exact hidle

theorem replayed_act (behave : Behaviour F) (w : Scene F) (move : Move F) :
    ∃ later, (w.act behave move).history = w.history ++ later ∧
      Replayed w later (w.act behave move) := by
  have still : ∀ {session : Session F}, w.session.SameKeys session →
      ∃ later, w.history = w.history ++ later ∧ Replayed w later { w with session } := fun hsame =>
    ⟨[], (List.append_nil _).symm, .silent hsame (by simp)⟩
  have turn : ∀ (id : OperationId) (f : CallbackOperation F → Scene F),
      (∀ op, ∃ later, (f op).history = w.history ++ later ∧ Replayed w later (f op)) →
      ∃ later, (w.withOperation id f).history = w.history ++ later ∧
        Replayed w later (w.withOperation id f) := fun id f hf =>
    withOperation_cases
      (P := fun w' => ∃ later, w'.history = w.history ++ later ∧ Replayed w later w')
      (still (.refl _)) fun op _ => hf op
  cases move with
  | begin p service =>
    simp only [act, begin]
    split
    · exact ⟨_, rfl, .still rfl (by simp [Occurrence.arenaStep?])⟩
    · exact still (.refl _)
  | go p => exact replayed_go w p
  | abandon p =>
    simp only [act, abandon]
    split
    · exact ⟨_, rfl, .still (w.session.sameKeys_abandon p).arena
        (by simp [Occurrence.arenaStep?])⟩
    · exact still (.refl _)
  | addLineage label parent => exact still ⟨rfl, rfl⟩
  | host host => exact still ⟨rfl, rfl⟩
  | fire token payload =>
    have hsame := Session.sameKeys_of_holdings (Callbacks.holdings_fire w.session token payload)
    refine ⟨_, rfl, .silent hsame ?_⟩
    split <;> simp [Occurrence.isSilent]
  | hangUp token =>
    exact still (Session.sameKeys_of_holdings (Callbacks.holdings_hangUp w.session token))
  | reclaim expired =>
    obtain ⟨operations, hholdings, -⟩ := Callbacks.holdings_reclaim w.session expired
    exact still (Session.sameKeys_of_holdings hholdings)
  | look id slot => exact turn id _ fun op => replayed_look behave w id op slot
  | stop id =>
    refine turn id _ fun op => ?_
    unfold stop
    split
    · split
      · have hclosed := Session.sameKeys_foldl Session.sameKeys_closeEndpoint op.endpoints w.session
        rw [List.append_assoc]
        exact ⟨_, rfl, .silent (hclosed.trans (Session.sameKeys_finish ..))
          (isSilent_closing _ _ _)⟩
      · exact still (.refl _)
    · exact still (.refl _)
  | exhaust id =>
    refine turn id _ fun op => ?_
    unfold exhaust
    split
    · split
      · exact ⟨_, rfl, .silent (Session.sameKeys_finish ..) (by simp [Occurrence.isSilent])⟩
      · exact still (.refl _)
    · exact still (.refl _)
  | conclude id verdict =>
    refine turn id _ fun op => ?_
    unfold conclude
    split
    · split
      · rw [List.append_assoc]
        exact ⟨_, rfl, .silent (Session.sameKeys_conclude ..) (isSilent_concluding id op _ verdict)⟩
      · exact still (.refl _)
    · exact still (.refl _)

/-! ## Runs -/

/-- The history of a scene tells of its arena, and of what everybody was given who drained it. -/
structure Recalled (a : Arena) (w : Scene F) : Prop where
  arena : w.session.arena = a.replay w.history
  drained : ∀ (before : List (Occurrence F)) (p : Party) (keys : List String)
    (after : List (Occurrence F)), w.history = before ++ .asked p .drain keys :: after →
      keys = (a.replay before).drain.1

theorem Recalled.replayed {a : Arena} (h : Recalled a w)
    (hhistory : w'.history = w.history ++ later) (hreplayed : Replayed w later w') :
    Recalled a w' where
  arena := by rw [hhistory, Arena.replay_append, ← h.arena, hreplayed.arena]
  drained := by
    intro before p keys after hsplit
    rw [hhistory] at hsplit
    rcases List.append_eq_append_iff.1 hsplit with ⟨new, rfl, hnew⟩ | ⟨old, hold, hrest⟩
    · obtain ⟨rfl, -, hkeys⟩ := hreplayed.drained hnew
      rw [List.append_nil, ← h.arena]
      exact hkeys
    · cases old with
      | nil =>
        have hnow : later = [] ++ .asked p .drain keys :: after := hrest.symm
        obtain ⟨-, -, hkeys⟩ := hreplayed.drained hnow
        rw [← List.append_nil before, ← hold, ← h.arena]
        exact hkeys
      | cons first old =>
        obtain ⟨rfl, -⟩ := List.cons.inj hrest
        exact h.drained before p keys old hold

theorem recalled_run (behave : Behaviour F) (settings : Settings) (host : Host)
    (moves : List (Move F)) :
    Recalled (.empty Arena.defaultLimit) ((start settings host).run behave moves) := by
  apply run_induction
  · refine ⟨rfl, ?_⟩
    intro before p keys after hstart
    cases before <;> cases hstart
  · intro w move h
    obtain ⟨later, hhistory, hreplayed⟩ := replayed_act behave w move
    exact h.replayed hhistory hreplayed

end Scene

end RemoteHost
