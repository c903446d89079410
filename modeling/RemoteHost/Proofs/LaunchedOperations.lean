import RemoteHost.Proofs.OperationCourses
import RemoteHost.Proofs.PartyMoves

/-!
# Where operations come from

Every operation was launched by one request of a party, and no two by the same. It keeps the slots
and endpoints that it was launched with. Supervision knows it from its launch until it is told to
end or has ended.
-/

namespace RemoteHost

variable {F : Type}

/-- What an operation is launched with. -/
structure Registration (F : Type) where
  label : String
  listeners : List (Slot F × Opened)
  parent : LineageId

def CallbackOperation.registration (op : CallbackOperation F) : Registration F :=
  ⟨op.label, op.listeners.map fun listener => (listener.slot, listener.opened), op.parent⟩

/-- The launches of a history, each with the number that the operation got. -/
def launches (history : List (Occurrence F)) : List (Registration F × OperationId) :=
  history.filterMap fun
    | .asked _ (.launch label endpoints slots parent) id =>
      some (⟨label, slots.zip endpoints, parent⟩, id)
    | _ => none

theorem launches_append (h h' : List (Occurrence F)) :
    launches (h ++ h') = launches h ++ launches h' :=
  List.filterMap_append

/-- Supervision knows an operation unless it was told to end or has ended. One that was aborted is
left out of account. -/
structure CallbackOperation.Known (op : CallbackOperation F) : Prop where
  running : op.stopping = false → (∀ ending, op.stage ≠ .ended ending) → op.registered = true
  stopping : op.stopping = true → op.registered = false
  ended : ∀ ending, op.stage = .ended ending → ending ≠ .aborted → op.registered = false

namespace CallbackOperation

variable {op op' : CallbackOperation F}

theorem registration_deafen (op : CallbackOperation F) (slot : Nat) :
    (op.deafen slot).registration = op.registration :=
  congrArg (Registration.mk op.label · op.parent) (map_deafen _ (fun _ => rfl) op slot)

theorem Known.congr (h : op.Known) (hregistered : op'.registered = op.registered)
    (hstopping : op'.stopping = op.stopping) (hstage : ∀ ending, op.stage ≠ .ended ending)
    (hstage' : ∀ ending, op'.stage ≠ .ended ending) : op'.Known where
  running hnot _ := hregistered.trans (h.running (hstopping ▸ hnot) hstage)
  stopping hstop := hregistered.trans (h.stopping (hstopping ▸ hstop))
  ended ending hended := absurd hended (hstage' ending)

theorem Known.finished (h : op.Known) (ending : Ending) : (op.finished ending).Known where
  running _ hnot := absurd rfl (hnot ending)
  stopping hstop := by
    have hforgotten := h.stopping hstop
    simp [CallbackOperation.finished, hforgotten]
  ended final hfinal hne := by
    cases hfinal
    simp [CallbackOperation.finished, hne]

theorem Known.stopped (op : CallbackOperation F) : op.stopped.Known where
  running hnot := Bool.noConfusion hnot
  stopping _ := rfl
  ended _ _ _ := rfl

end CallbackOperation

namespace Scene

variable {w w' : Scene F} {move : Move F} {id : OperationId} {op : CallbackOperation F}

/-- All operations are those that were launched, in the order of their numbers. -/
structure Enrolled (operations : List (CallbackOperation F)) (history : List (Occurrence F)) :
    Prop where
  launched : launches history = (operations.map (·.registration)).zipIdx
  known : ∀ op ∈ operations, op.Known

/-- A turn leaves all operations but one alone, and of that one what it was launched with. -/
theorem operation_of_turn (hop : w.session.operations[id]? = some op)
    (hturn : Turn w id op move w') : ∃ op', op'.registration = op.registration ∧
      (op.Known → op'.Known) ∧
      w'.session.operations = w.session.operations.modify id fun _ => op' := by
  have same : w.session.operations = w.session.operations.modify id fun _ => op :=
    (List.modify_id ..).symm.trans (Callbacks.modify_eq_of_getElem? hop fun op => op)
  have ended : ∀ {session : Session F} {ending : Ending} (last : CallbackOperation F),
      last.registration = op.registration → (op.Known → last.Known) →
      Callbacks.Ends id last ending w.session.callbacks session.callbacks →
      ∃ op', op'.registration = op.registration ∧ (op.Known → op'.Known) ∧
        session.operations = w.session.operations.modify id fun _ => op' := by
    rintro session ending last hsame hknown ⟨c, hshut, hsession⟩
    exact ⟨last.finished ending, hsame, fun h => (hknown h).finished ending,
      congrArg Callbacks.operations hsession⟩
  have resumed : ∀ {call : Calling F}, op.stage = .calling call → op.Known → op.resumed.Known :=
    fun hstage h => h.congr rfl rfl (by simp [hstage]) (by simp [CallbackOperation.resumed])
  cases hturn with
  | idle => exact ⟨op, rfl, fun h => h, same⟩
  | @deafened session slot listener hstage hget hover hsession =>
    refine ⟨op.deafen slot, op.registration_deafen slot, fun h => ?_, ?_⟩
    · exact h.congr rfl rfl (by simp [hstage]) (by simp [CallbackOperation.deafen, hstage])
    · exact (congrArg Callbacks.operations hsession).trans
        (Callbacks.modify_eq_of_getElem? hop (·.deafen slot))
  | refused hstage hget hlistening hseen hrefused hsession =>
    exact ⟨op, rfl, fun h => h, (congrArg Callbacks.operations hsession).trans same⟩
  | @called session slot listener payload outcome call hstage hget hlistening hseen haccepted hcall
      hsession =>
    refine ⟨{ op with stage := .calling call }, rfl, fun h => ?_, ?_⟩
    · exact h.congr rfl rfl (by simp [hstage]) (by simp)
    · exact (congrArg Callbacks.operations hsession).trans (Callbacks.modify_eq_of_getElem? hop _)
  | resumed hstage hcall hsession =>
    exact ⟨op.resumed, rfl, resumed hstage, congrArg Callbacks.operations hsession⟩
  | fired hstage hcall hends => exact ended op.resumed rfl (resumed hstage) hends
  | died hstage hends => exact ended op rfl (fun h => h) hends
  | stopped hstage hends => exact ended op rfl (fun h => h) hends
  | exhausted hstage hdeaf hends => exact ended op rfl (fun h => h) hends

theorem launches_of_turn (hturn : Turn w id op move w') :
    launches w'.history = launches w.history := by
  cases hturn <;> simp [launches]

theorem Enrolled.frame {operations operations' : List (CallbackOperation F)}
    {history history' : List (Occurrence F)} (h : Enrolled operations history)
    (hsame : operations'.map (·.registration) = operations.map (·.registration))
    (hknown : ∀ op ∈ operations', op.Known) (hlaunches : launches history' = launches history) :
    Enrolled operations' history' where
  launched := by
    rw [hlaunches, hsame]
    exact h.launched
  known := hknown

theorem Enrolled.untouched {operations operations' : List (CallbackOperation F)}
    {history history' : List (Occurrence F)} (h : Enrolled operations history)
    (hsame : operations' = operations) (hlaunches : launches history' = launches history) :
    Enrolled operations' history' :=
  h.frame (hsame ▸ rfl) (hsame ▸ h.known) hlaunches

theorem enrolled_of_asked (h : Enrolled w.session.operations w.history) {p : Party}
    {request : Request F} {reply : request.Reply} {c' : Callbacks F}
    (hanswered : Answered w.session.callbacks p request reply c') :
    Enrolled c'.operations (w.history ++ [.asked p request reply]) := by
  have hnone : launches [Occurrence.asked p request reply] = [] →
      launches (w.history ++ [.asked p request reply]) = launches w.history := by
    intro hnone
    rw [launches_append, hnone, List.append_nil]
  cases request with
  | openEndpoint =>
    cases reply with
    | error fault => exact h.untouched (congrArg Callbacks.operations hanswered) (hnone rfl)
    | ok opened => exact h.untouched (congrArg Callbacks.operations hanswered.2) (hnone rfl)
  | closeEndpoint endpoint => exact h.untouched hanswered.operations (hnone rfl)
  | launch label endpoints slots parent =>
    obtain ⟨rfl, rfl⟩ := hanswered
    have hnew : (CallbackOperation.started label endpoints slots parent).registration =
        ⟨label, slots.zip endpoints, parent⟩ := by
      simp [CallbackOperation.registration, CallbackOperation.started, Function.comp_def]
    constructor
    · rw [launches_append, h.launched, List.map_append, List.zipIdx_append, List.map_singleton,
        hnew, List.length_map, Nat.zero_add]
      rfl
    · intro op hop
      rcases List.mem_append.mp hop with hop | hop
      · exact h.known op hop
      · rw [List.mem_singleton.mp hop]
        exact ⟨fun _ _ => rfl, by simp [CallbackOperation.started],
          by simp [CallbackOperation.started]⟩
  | _ => exact h.untouched (congrArg Callbacks.operations hanswered) (hnone rfl)

theorem known_of_told {ops ops' : List (CallbackOperation F)} (h : Callbacks.Told ops ops')
    (hknown : ∀ op ∈ ops, op.Known) : ∀ op ∈ ops', op.Known := by
  intro op hop
  obtain ⟨i, hi⟩ := List.mem_iff_getElem?.mp hop
  rcases h i with hsame | hstopped
  · exact hknown op (List.mem_of_getElem? (hsame ▸ hi))
  · rw [hstopped] at hi
    obtain ⟨old, -, rfl⟩ := Option.map_eq_some_iff.mp hi
    exact .stopped old

theorem enrolled_of_acted (h : Enrolled w.session.operations w.history)
    (hacted : Acted w move w') : Enrolled w'.session.operations w'.history := by
  cases hacted with
  | still hmove hsame => exact h.untouched (congrArg Callbacks.operations hsame) rfl
  | began hfree => exact h.untouched rfl (by simp [launches])
  | asked hbusy hanswered => exact enrolled_of_asked h hanswered
  | gained hbusy => exact h.untouched rfl (by simp [launches])
  | abandoned hbusy hshut => exact h.untouched hshut.operations (by simp [launches])
  | arrived hopen hconnected hsession =>
    exact h.untouched (congrArg Callbacks.operations hsession) (by simp [launches])
  | disconnected hsession => exact h.untouched (congrArg Callbacks.operations hsession) rfl
  | @told expired session operations htold hsession =>
    have hsame : session.operations = operations := congrArg Callbacks.operations hsession
    refine h.frame ?_ ?_ rfl
    · exact (congrArg (List.map _) hsame).trans (htold.map fun _ => rfl)
    · exact hsame ▸ known_of_told htold h.known
  | @turned move id op w' hmove hop hturn =>
    obtain ⟨op', hsame, hknown, hoperations⟩ := operation_of_turn hop hturn
    refine h.frame ?_ (fun other hother => ?_) (launches_of_turn hturn)
    · rw [hoperations]
      exact Callbacks.map_modify hop hsame
    · rw [hoperations] at hother
      obtain ⟨i, hi⟩ := List.mem_iff_getElem?.mp hother
      rw [List.getElem?_modify] at hi
      obtain ⟨old, hold, rfl⟩ := Option.map_eq_some_iff.mp hi
      have hmem := List.mem_of_getElem? hold
      split
      · exact hknown (h.known op (List.mem_of_getElem? hop))
      · exact h.known old hmem

theorem enrolled_run (behave : Behaviour F) (settings : Settings) (host : Host)
    (moves : List (Move F)) : Enrolled ((start settings host).run behave moves).session.operations
      ((start settings host).run behave moves).history :=
  run_induction (P := fun w => Enrolled w.session.operations w.history) ⟨rfl, by simp [start]⟩
    (fun w move h => enrolled_of_acted h (acted_act behave w move)) moves

end Scene

end RemoteHost
