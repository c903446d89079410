import RemoteHost.Proofs.CallbackFrames

/-!
# What leaves the keys of a session alone

Keys are recorded, drained and taken back by requests of their own, and recorded when a payload is a
handle. Nothing else changes an arena.
-/

namespace RemoteHost

variable {F : Type}

/-- Whether a request is about the keys of handles. -/
def Request.isAboutKeys : Request F → Bool
  | .record _ | .drain | .restore _ => true
  | _ => false

namespace Session

structure SameKeys (s s' : Session F) : Prop where
  settings : s'.settings = s.settings
  arena : s'.arena = s.arena

variable {s s' s'' : Session F}

theorem SameKeys.refl (s : Session F) : SameKeys s s := ⟨rfl, rfl⟩

theorem SameKeys.trans (h : SameKeys s s') (h' : SameKeys s' s'') : SameKeys s s'' :=
  ⟨h'.settings.trans h.settings, h'.arena.trans h.arena⟩

theorem sameKeys_of_holdings {callbacks : Callbacks F}
    (h : s'.holdings = { s.holdings with callbacks }) : SameKeys s s' :=
  ⟨congrArg Holdings.settings h, congrArg Holdings.arena h⟩

theorem sameKeys_foldl {f : Session F → EndpointId → Session F} (hf : ∀ s e, SameKeys s (f s e))
    (es : List EndpointId) (s : Session F) : SameKeys s (es.foldl f s) := by
  induction es generalizing s with
  | nil => exact .refl s
  | cons e es ih => exact (hf s e).trans (ih (f s e))

theorem sameKeys_closeEndpoint (s : Session F) (e : EndpointId) :
    SameKeys s (s.closeEndpoint e) :=
  sameKeys_of_holdings (holdings_closeEndpoint s e)

theorem sameKeys_openEndpoint (s : Session F) (p : Party) :
    SameKeys s (s.openEndpoint p).2 := by
  unfold openEndpoint
  cases s.host.nextToken with
  | mk answer host =>
    cases answer with
    | error fault => exact ⟨rfl, rfl⟩
    | ok token =>
      have hdisown := sameKeys_of_holdings (holdings_disown { s with host } token)
      dsimp only
      split <;> exact ⟨hdisown.settings, hdisown.arena⟩

theorem sameKeys_finish (s : Session F) (id : OperationId) (op : CallbackOperation F)
    (ending : Ending) : SameKeys s (s.finish id op ending) := by
  have hdropped := sameKeys_foldl
    (fun s e => sameKeys_of_holdings (holdings_dropEndpoint s e)) op.endpoints s
  exact ⟨hdropped.settings, hdropped.arena⟩

theorem sameKeys_abandon (s : Session F) (p : Party) : SameKeys s (s.abandon p) := by
  have hdropped : ∀ (es : List EndpointId) (t : Session F), SameKeys t (es.foldl dropEndpoint t) :=
    fun es => sameKeys_foldl (fun t e => sameKeys_of_holdings (holdings_dropEndpoint t e)) es
  have hleft := sameKeys_of_holdings (holdings_leaveWire { s with
    inFlight := s.inFlight.filter fun entry => entry.1 ≠ p
    resting := s.resting.erase p } p)
  have hwithdrawn := sameKeys_of_holdings (holdings_withdraw ({ s with
    inFlight := s.inFlight.filter fun entry => entry.1 ≠ p
    resting := s.resting.erase p }.leaveWire p) p)
  exact SameKeys.trans ⟨hleft.settings, hleft.arena⟩ (hwithdrawn.trans (hdropped _ _))

theorem sameKeys_conclude (s : Session F) (id : OperationId) (op : CallbackOperation F)
    (call : Calling F) (verdict : Verdict) : SameKeys s (s.conclude id op call verdict) := by
  cases verdict with
  | died =>
    have hwithdrawn := sameKeys_of_holdings
      (holdings_withdraw (s.report op call.delivery (.ok .nothing)) (.callback id))
    exact SameKeys.trans ⟨hwithdrawn.settings, hwithdrawn.arena⟩ (sameKeys_finish ..)
  | returned result =>
    unfold conclude
    dsimp only
    cases call.cardinality with
    | repeatable => exact ⟨rfl, rfl⟩
    | oneShot =>
      have hclosed := sameKeys_foldl sameKeys_closeEndpoint op.endpoints
        ((s.report op call.delivery result).modifyOperation id fun _ => op.resumed)
      exact SameKeys.trans ⟨hclosed.settings, hclosed.arena⟩ (sameKeys_finish ..)

theorem sameKeys_answer (s : Session F) (p : Party) (request : Request F)
    (h : request.isAboutKeys = false) : SameKeys s (s.answer p request).2 := by
  cases request with
  | enter lineage policy => exact sameKeys_of_holdings (holdings_enter s p lineage policy)
  | complete lineage => exact sameKeys_of_holdings (holdings_complete s lineage)
  | submit program => exact sameKeys_of_holdings (holdings_submit s p program)
  | collect => exact sameKeys_of_holdings (holdings_collect s p)
  | openEndpoint => exact sameKeys_openEndpoint s p
  | closeEndpoint endpoint => exact sameKeys_closeEndpoint s endpoint
  | launch label endpoints slots parent =>
    exact sameKeys_of_holdings (Callbacks.holdings_launch s label endpoints slots parent)
  | isReleased | newLineage => exact ⟨rfl, rfl⟩
  | record | drain | restore => cases h

/-- A payload that is a handle is recorded when its function is called. -/
theorem deliver_keys (behave : Behaviour F) (s : Session F) (id : OperationId)
    (op : CallbackOperation F) (listener : Listener F) (payload : Json) :
    (s.deliver behave id op listener payload).settings = s.settings ∧
    (s.deliver behave id op listener payload).arena =
      match listener.slot.accepts? payload with
      | some (.handle key) => s.arena.record key
      | _ => s.arena := by
  unfold deliver
  cases listener.slot.accepts? payload with
  | none => exact ⟨rfl, rfl⟩
  | some outcome => cases outcome <;> exact ⟨rfl, rfl⟩

end Session

end RemoteHost
