import RemoteHost.Proofs.CallbackFrames

/-!
# The part of a session that the host is about

The host and what was noted of it. Programs, openings and closings have to do with this part; what
remains of a session's changes leaves it alone, and it is written down here once for each of them.
-/

namespace RemoteHost

variable {F : Type}

/-- The host of a session and what was noted of it. -/
structure Outlook where
  host : Host
  events : List HostEvent

def Outlook.note (o : Outlook) (events : List HostEvent) : Outlook :=
  { o with events := o.events ++ events }

namespace Session

def outlook (s : Session F) : Outlook := ⟨s.host, s.journal.events⟩

@[simp] theorem outlook_note (s : Session F) (events : List HostEvent) :
    (s.note events).outlook = s.outlook.note events := rfl

/-! ## What leaves the host alone -/

@[simp] theorem outlook_wake (s : Session F) (p : Party) : (s.wake p).outlook = s.outlook := by
  unfold wake
  split
  · rfl
  · rfl
  · split <;> rfl
  · split <;> rfl

@[simp] theorem outlook_modifyLineage (s : Session F) (id : LineageId) (f : Lineage → Lineage) :
    (s.modifyLineage id f).outlook = s.outlook := rfl

@[simp] theorem outlook_enter (s : Session F) (p : Party) (id : LineageId)
    (policy : ConflictPolicy) : (s.enter p id policy).2.outlook = s.outlook := by
  unfold enter
  split
  · rfl
  · split <;> rfl

@[simp] theorem outlook_wakeHolder (s : Session F) (id : LineageId) :
    (s.wakeHolder id).outlook = s.outlook := by
  unfold wakeHolder
  split
  · exact outlook_wake s _
  · rfl

@[simp] theorem outlook_complete (s : Session F) (id : LineageId) :
    (s.complete id).outlook = s.outlook := by
  simp [complete]

@[simp] theorem outlook_leave (s : Session F) (p : Party) (id : LineageId) :
    (s.leave p id).outlook = s.outlook := by
  unfold leave
  dsimp only
  split <;> simp

/-- What each change of a series leaves alone, the series leaves alone. -/
theorem outlook_foldl {α : Type} {f : Session F → α → Session F}
    (hf : ∀ s a, (f s a).outlook = s.outlook) (changes : List α) (s : Session F) :
    (changes.foldl f s).outlook = s.outlook := by
  induction changes generalizing s with
  | nil => rfl
  | cons a changes ih => exact (ih (f s a)).trans (hf s a)

@[simp] theorem outlook_withdraw (s : Session F) (p : Party) :
    (s.withdraw p).outlook = s.outlook :=
  outlook_foldl (fun s id => outlook_leave s p id) _ s

@[simp] theorem outlook_leaveWire (s : Session F) (p : Party) :
    (s.leaveWire p).outlook = s.outlook := by
  unfold leaveWire
  dsimp only
  split
  · split
    · rfl
    · exact outlook_wake _ _
  · rfl

@[simp] theorem outlook_wakeAt (s : Session F) (endpoint : EndpointId) :
    (s.wakeAt endpoint).outlook = s.outlook := by
  unfold wakeAt
  split
  · exact outlook_wake s _
  · rfl

@[simp] theorem outlook_disown (s : Session F) (token : String) :
    (s.disown token).outlook = s.outlook :=
  outlook_foldl outlook_wakeAt _ _

@[simp] theorem outlook_launch (s : Session F) (label : String) (endpoints : List Opened)
    (slots : List (Slot F)) (parent : LineageId) :
    (s.launch label endpoints slots parent).2.outlook = s.outlook :=
  outlook_wake _ _

@[simp] theorem outlook_deliver (behave : Behaviour F) (s : Session F) (id : OperationId)
    (op : CallbackOperation F) (listener : Listener F) (payload : Json) :
    (s.deliver behave id op listener payload).outlook = s.outlook := by
  unfold deliver
  dsimp only
  split
  · rfl
  · split <;> rfl

@[simp] theorem outlook_stop (s : Session F) (id : OperationId) :
    (s.stop id).outlook = s.outlook :=
  outlook_wake _ _

@[simp] theorem outlook_reclaim (s : Session F) (expired : OperationId → Bool) :
    (s.reclaim expired).2.outlook = s.outlook :=
  outlook_foldl (f := fun s (entry : CallbackOperation F × OperationId) => s.stop entry.2)
    (fun s entry => outlook_stop s entry.2) _ s

/-! ## What is noted -/

theorem outlook_fire (s : Session F) (token : String) (payload : Json) :
    (s.fire token payload).2.outlook =
      if (s.fire token payload).1 && s.host.notesEndpoints then s.outlook.note [.fired token]
      else s.outlook := by
  unfold fire
  split
  · rfl
  · rename_i endpoint board _
    have hhost : ({ s with board }.wakeAt endpoint).host = s.host :=
      congrArg Outlook.host (outlook_wakeAt { s with board } endpoint)
    have hsame := outlook_wakeAt { s with board } endpoint
    dsimp only
    rw [hhost]
    split <;> rename_i hnotes <;> simp [hnotes, hsame] <;> rfl

theorem outlook_closeEndpoint (s : Session F) (e : EndpointId) :
    (s.closeEndpoint e).outlook =
      if s.host.notesClosing (s.board.isOpen e) then s.outlook.note [.closed (s.tokenOf e)]
      else s.outlook := by
  unfold closeEndpoint
  dsimp only
  split
  · rw [outlook_note, outlook_disown]
    rfl
  · rw [outlook_disown]
    rfl

theorem outlook_dropEndpoint (s : Session F) (e : EndpointId) :
    (s.dropEndpoint e).outlook =
      if s.host.notesDropping (s.board.isOpen e) then s.outlook.note [.closed (s.tokenOf e)]
      else s.outlook := by
  have htoken : ({ s with board := s.board.close e }.forgetUnclaimed [e]).tokenOf e =
      s.tokenOf e := by
    simp only [forgetUnclaimed, tokenOf, Board.close, List.getElem?_modify]
    cases s.board[e]? <;> simp
  unfold dropEndpoint
  dsimp only
  split
  · rw [outlook_note, htoken]
    rfl
  · rfl

end Session

end RemoteHost
