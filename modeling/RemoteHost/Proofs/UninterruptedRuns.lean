import RemoteHost.Proofs.StartingOperations
import RemoteHost.Proofs.Turning
import RemoteHost.Session.Schedule

/-!
# Runs without a pause

A session grants what a party asks for in a row, one request after another. A performed routine may
have to pause in between, but only at requests that parties have to wait for: a routine that made no
such request was granted everything in a row.
-/

namespace RemoteHost

variable {F α : Type}

/-- Whether a party may have to wait for what it asks for, or to rest after it. -/
def Request.mayWait : Request F → Bool
  | .enter _ .queue => true
  | .submit _ | .collect => true
  | _ => false

theorem Request.mayWait_of_isCharged {request : Request F} (h : request.isCharged = true) :
    request.mayWait = true := by
  cases request with
  | enter lineage policy =>
    cases policy with
    | queue => rfl
    | reject => cases h
  | _ => cases h

theorem Routine.Leads.append {routine middle rest : Routine F α} {first second : Talk F}
    (h : routine.Leads first middle) (h' : middle.Leads second rest) :
    routine.Leads (first ++ second) rest := by
  induction h with
  | here routine => exact h'
  | ask reply h ih => exact .ask reply (ih h')

namespace Session

/-- A session grants all requests of a talk in a row. -/
inductive Grants (p : Party) : Session F → Talk F → Session F → Prop
  | nothing (st : Session F) : Grants p st [] st
  | more {st middle st' : Session F} {request : Request F} {reply : request.Reply} {talk : Talk F}
      (h : st.answer p request = (some reply, middle)) (hrest : Grants p middle talk st') :
      Grants p st (⟨request, reply⟩ :: talk) st'

variable {p : Party} {st st' : Session F}

theorem Grants.split {first second : Talk F} (h : Grants p st (first ++ second) st') :
    ∃ middle, Grants p st first middle ∧ Grants p middle second st' := by
  induction first generalizing st with
  | nil => exact ⟨st, .nothing st, h⟩
  | cons exchange first ih =>
    cases h with
    | more hanswer hrest =>
      obtain ⟨middle, hfirst, hsecond⟩ := ih hrest
      exact ⟨middle, .more hanswer hfirst, hsecond⟩

theorem Grants.single {request : Request F} {reply : request.Reply}
    (h : Grants p st [⟨request, reply⟩] st') : st.answer p request = (some reply, st') := by
  cases h with
  | more hanswer hrest =>
    cases hrest
    exact hanswer

/-! ## Waiting -/

theorem mayWait_of_answer {request : Request F} (h : st.answer p request = (none, st')) :
    request.mayWait = true := by
  cases request with
  | enter lineage policy =>
    cases policy with
    | queue => rfl
    | reject =>
      cases hfound : st.lineages[lineage]? with
      | none =>
        simp only [answer, enter, hfound] at h
        cases h
      | some found =>
        rw [answer, enter_eq st p lineage .reject hfound] at h
        split at h
        · cases h
        · rename_i hfree
          have hgranted : (found.gate.ask p).1 = true :=
            Rota.ask_of_free (Bool.eq_false_iff.mpr fun htaken => hfree ⟨rfl, htaken⟩)
          rw [hgranted] at h
          cases h
  | submit | collect => rfl
  | _ => cases h

/-- Nobody who queues is turned away. -/
theorem enter_queue_ne_error (st : Session F) (p : Party) (lineage : LineageId)
    (fault : UsageFault) : (st.enter p lineage .queue).1 ≠ some (.error fault) := by
  unfold enter
  split
  · exact nofun
  · rename_i found hfound
    rw [if_neg (by simp)]
    dsimp only
    split <;> exact nofun

/-! ## Performing -/

/-- A talk that a session can have: nobody who queued was turned away. -/
def IsCandid (talk : Talk F) : Prop :=
  ∀ lineage fault, ⟨.enter lineage .queue, .error fault⟩ ∉ talk

theorem isCandid_cons {request : Request F} {reply : request.Reply} {talk : Talk F}
    (h : st.answer p request = (some reply, st')) (hrest : IsCandid talk) :
    IsCandid (⟨request, reply⟩ :: talk) := by
  intro lineage fault hmem
  rcases List.mem_cons.mp hmem with heq | hmem
  · cases heq
    exact enter_queue_ne_error st p lineage fault (congrArg Prod.fst h)
  · exact hrest lineage fault hmem

/-- What a routine asked for and was answered until it was done: all in a row, unless there is
something among it that parties wait for. -/
structure Ran (p : Party) (st : Session F) (routine : Routine F α) (a : α) (st' : Session F)
    (talk : Talk F) : Prop where
  leads : routine.Leads talk (.done a)
  candid : IsCandid talk
  grants : (∀ exchange ∈ talk, exchange.1.mayWait = false) → Grants p st talk st'

/-- The routine may have paused after its first request if parties wait for that. -/
theorem Ran.more {request : Request F} {next : request.Reply → Routine F α}
    {reply : request.Reply} {middle later : Session F} {a : α} {talk : Talk F}
    (hanswer : st.answer p request = (some reply, middle))
    (hpause : request.mayWait = false → later = middle)
    (h : Ran p later (next reply) a st' talk) :
    Ran p st (.ask request next) a st' (⟨request, reply⟩ :: talk) where
  leads := .ask reply h.leads
  candid := isCandid_cons hanswer h.candid
  grants hprompt := by
    obtain ⟨hfirst, hrest⟩ := List.forall_mem_cons.mp hprompt
    obtain rfl := hpause hfirst
    exact .more hanswer (h.grants hrest)

/-- After something that parties wait for, nothing is said about what is granted in a row. -/
theorem Ran.of_waiting {routine : Routine F α} {later : Session F} {a : α} {first talk : Talk F}
    {request : Request F} {next : request.Reply → Routine F α}
    (hfirst : routine.Leads first (.ask request next)) (hcandid : IsCandid first)
    (hwaits : request.mayWait = true) (h : Ran p later (.ask request next) a st' talk) :
    Ran p st routine a st' (first ++ talk) where
  leads := hfirst.append h.leads
  candid lineage fault hmem :=
    (List.mem_append.mp hmem).elim (hcandid lineage fault) (h.candid lineage fault)
  grants hprompt := by
    cases h.leads with
    | ask reply hrest =>
      have hprompt := hprompt _ (List.mem_append_right first List.mem_cons_self)
      exact absurd (hwaits.symm.trans hprompt) nofun

/-- How far a routine comes in one stride: to its end, or to something that parties wait for. -/
def Strides (p : Party) (st : Session F) (routine : Routine F α) :
    Routine F α × Session F → Prop
  | (.done a, st') => ∃ talk, Ran p st routine a st' talk
  | (.ask request next, _) => request.mayWait = true ∧
      ∃ talk, routine.Leads talk (.ask request next) ∧ IsCandid talk

theorem Strides.more {request : Request F} {next : request.Reply → Routine F α}
    {reply : request.Reply} {middle later : Session F} {outcome : Routine F α × Session F}
    (hanswer : st.answer p request = (some reply, middle))
    (hpause : request.mayWait = false → later = middle)
    (h : Strides p later (next reply) outcome) : Strides p st (.ask request next) outcome := by
  obtain ⟨rest, st'⟩ := outcome
  cases rest with
  | done a =>
    obtain ⟨talk, hran⟩ := h
    exact ⟨_, hran.more hanswer hpause⟩
  | ask request' next' =>
    obtain ⟨hwaits, talk, hleads, hcandid⟩ := h
    exact ⟨hwaits, _, .ask reply hleads, isCandid_cons hanswer hcandid⟩

theorem strides_stride (routine : Routine F α) (st : Session F) :
    Strides p st routine (stride p routine st) := by
  induction routine generalizing st with
  | done a => exact ⟨[], .here _, nofun, fun _ => .nothing st⟩
  | ask request next ih =>
    cases hanswer : st.answer p request with
    | mk reply middle =>
      cases reply with
      | none =>
        simp only [stride, hanswer]
        exact ⟨mayWait_of_answer hanswer, [], .here _, nofun⟩
      | some reply =>
        simp only [stride, hanswer]
        split
        · exact (ih reply middle).more hanswer fun _ => rfl
        · rename_i hcharged
          have hwaits : request.mayWait = true :=
            Request.mayWait_of_isCharged (by simpa using hcharged)
          split
          · exact ⟨hwaits, [], .here _, nofun⟩
          · exact (ih reply middle.spend).more hanswer fun hprompt =>
              absurd (hwaits.symm.trans hprompt) nofun

theorem ran_performWith (behave : Behaviour F) (fuel : Nat) {routine : Routine F α} {a : α}
    (h : performWith behave p fuel routine st = (.done a, st')) :
    ∃ talk, Ran p st routine a st' talk := by
  induction fuel generalizing routine st with
  | zero =>
    cases h
    exact ⟨[], .here _, nofun, fun _ => .nothing _⟩
  | succ fuel ih =>
    have hstride : Strides p st routine _ := strides_stride routine st
    rw [performWith] at h
    cases hrest : stride p routine st with
    | mk rest middle =>
      rw [hrest] at h hstride
      cases rest with
      | done b =>
        cases h
        exact hstride
      | ask request next =>
        obtain ⟨hwaits, first, hfirst, hcandid⟩ := hstride
        dsimp only at h
        split at h
        · cases h
        · obtain ⟨talk, hran⟩ := ih h
          exact ⟨first ++ talk, .of_waiting hfirst hcandid hwaits hran⟩

/-- A performed routine that asked for nothing that parties wait for was granted all in a row. -/
theorem ran_perform (behave : Behaviour F) {routine : Routine F α} {a : α}
    (h : st.perform behave p routine = (.done a, st')) : ∃ talk, Ran p st routine a st' talk :=
  ran_performWith behave patience h

end Session

end RemoteHost
