import RemoteHost.Proofs.NumberedEndpoints
import RemoteHost.Proofs.OtherMoves

/-!
# Scenes whose host counts

Programs, replies and whatever the parties of a session do leave the count of a host as it is, and
an endpoint that is opened gets the next number. So the endpoints of a session stay numbered for as
long as nobody hangs them up from outside.
-/

namespace RemoteHost

variable {F : Type}

namespace Wire.WiredHost

@[simp] theorem endpoints_react (h : WiredHost) : h.react.endpoints = h.endpoints := by
  unfold react
  split <;> rfl

theorem endpoints_write (h : WiredHost) (program : String) :
    (h.write program).2.endpoints = h.endpoints := by
  unfold write
  split
  · rfl
  · dsimp only
    split
    · rfl
    · simp

end Wire.WiredHost

namespace Host

theorem counting_submit (h : Host) (program : String) :
    (h.submit program).2.2.counting? = h.counting? := by
  cases h with
  | scripted h =>
    have hreply : (h.reply program).2.opened = h.opened := by
      unfold ScriptedHost.reply
      split
      · rfl
      · split <;> rfl
    simp [submit, counting?, hreply]
  | replaying h => rfl
  | wired h =>
    have hwrite := h.endpoints_write program
    have hcounting : ∀ h' : Wire.WiredHost, h'.endpoints = h.endpoints →
        (wired h').counting? = (wired h).counting? := fun _ hsame =>
      congrArg (fun n => some ("port-", n)) hsame
    simp only [submit]
    split <;> rename_i hresult <;> rw [hresult] at hwrite <;> exact hcounting _ hwrite

theorem counting_collect (reply : InFlight) (h : Host) :
    (h.collect reply).2.counting? = h.counting? := by
  cases reply with
  | answered result => rfl
  | awaited id => cases h <;> rfl

end Host

namespace Session

variable {s s' : Session F} {label : String}

theorem counting_submit (s : Session F) (p : Party) (program : String) :
    (s.submit p program).2.host.counting? = s.host.counting? := by
  have handed : ∀ s : Session F, (s.handOver p program).host.counting? = s.host.counting? :=
    fun s => s.host.counting_submit program
  unfold submit
  split
  · dsimp only
    split
    · exact handed _
    · rfl
  · exact handed s

theorem counting_collect (s : Session F) (p : Party) :
    (s.collect p).2.host.counting? = s.host.counting? := by
  unfold collect
  split
  · rfl
  · rename_i reply _
    have hcollect := s.host.counting_collect reply
    split
    · rename_i hresult
      rw [hresult] at hcollect
      exact hcollect
    · rename_i result host hresult
      rw [hresult] at hcollect
      exact (congrArg (fun o : Outlook => o.host.counting?) (outlook_leaveWire _ p)).trans hcollect

namespace Counts

/-- Only the count and the board matter. -/
theorem congr (h : s.Counts label) (hcounting : s'.host.counting? = s.host.counting?)
    (hcallbacks : s'.callbacks.board = s.callbacks.board) : s'.Counts label where
  host := by
    have hboard : s'.board = s.board := hcallbacks
    rw [hcounting, hboard, h.host]
  board := by
    have hboard : s'.board = s.board := hcallbacks
    rw [hboard]
    exact h.board

theorem of_outlook (h : s.Counts label) (houtlook : s'.outlook = s.outlook)
    (hcallbacks : s'.callbacks.board = s.callbacks.board) : s'.Counts label :=
  h.congr (congrArg (fun o : Outlook => o.host.counting?) houtlook) hcallbacks

theorem foldl {f : Session F → EndpointId → Session F}
    (hf : ∀ s e, Counts s label → (f s e).Counts label) (es : List EndpointId)
    (h : s.Counts label) : (es.foldl f s).Counts label := by
  induction es generalizing s with
  | nil => exact h
  | cons e es ih => exact ih (hf s e h)

theorem answer (h : s.Counts label) (p : Party) (request : Request F) :
    (s.answer p request).2.Counts label := by
  have plain : request.isPlain = true →
      (s.answer p request).2.host.counting? = s.host.counting? →
      (s.answer p request).2.Counts label := fun hplain hcounting =>
    h.congr hcounting (congrArg Callbacks.board (callbacks_answer s p request hplain))
  have same : ∀ {s' : Session F}, s'.outlook = s.outlook → s'.host.counting? = s.host.counting? :=
    fun houtlook => congrArg (fun o : Outlook => o.host.counting?) houtlook
  cases request with
  | enter lineage policy => exact plain rfl (same (outlook_enter s p lineage policy))
  | complete lineage => exact plain rfl (same (outlook_complete s lineage))
  | submit program => exact plain rfl (counting_submit s p program)
  | collect => exact plain rfl (counting_collect s p)
  | record | drain | restore | isReleased | newLineage => exact plain rfl rfl
  | openEndpoint => exact h.openEndpoint p
  | closeEndpoint endpoint => exact h.closeEndpoint endpoint
  | launch name endpoints slots parent =>
    exact h.of_outlook (outlook_launch s name endpoints slots parent)
      (congrArg (fun holdings : Holdings F => holdings.callbacks.board)
        (Callbacks.holdings_launch s name endpoints slots parent))

theorem abandon (h : s.Counts label) (p : Party) : (s.abandon p).Counts label := by
  refine foldl (fun _ e hs => hs.dropEndpoint e) _ ?_
  refine h.of_outlook ((outlook_withdraw _ p).trans (outlook_leaveWire _ p)) ?_
  exact congrArg (fun holdings : Holdings F => holdings.callbacks.board)
    ((holdings_withdraw _ p).trans (holdings_leaveWire _ p))

theorem finish (h : s.Counts label) (id : OperationId) (op : CallbackOperation F)
    (ending : Ending) : (s.finish id op ending).Counts label :=
  (foldl (fun _ e hs => hs.dropEndpoint e) op.endpoints h).congr rfl rfl

theorem conclude (h : s.Counts label) (id : OperationId) (op : CallbackOperation F)
    (call : Calling F) (verdict : Verdict) : (s.conclude id op call verdict).Counts label := by
  cases verdict with
  | died =>
    have hreported : (s.report op call.delivery (.ok .nothing)).Counts label := h.congr rfl rfl
    exact (hreported.of_outlook (outlook_withdraw _ (.callback id)) (congrArg
      (fun holdings : Holdings F => holdings.callbacks.board) (holdings_withdraw _ _))).finish ..
  | returned result =>
    unfold Session.conclude
    dsimp only
    split
    · exact h.congr rfl rfl
    · refine (foldl (fun _ e hs => hs.closeEndpoint e) _ ?_).finish ..
      exact h.congr rfl rfl

theorem deliver (h : s.Counts label) (behave : Behaviour F) (id : OperationId)
    (op : CallbackOperation F) (listener : Listener F) (payload : Json) :
    (s.deliver behave id op listener payload).Counts label := by
  refine (h.take listener.opened.endpoint).of_outlook (outlook_deliver ..) ?_
  cases haccepts : listener.slot.accepts? payload with
  | none =>
    rw [Callbacks.deliver_refused behave s id op haccepts]
    rfl
  | some outcome =>
    obtain ⟨call, -, hcallbacks⟩ := Callbacks.deliver_accepted behave s id op haccepts
    rw [hcallbacks]
    rfl

end Counts

end Session

/-- Whether a move is one of the session itself: what comes from outside comes over connections, and
the host at most goes on with what it is sent. -/
def Move.isIndoors (host : Host) : Move F → Bool
  | .host next => next.counting? = host.counting?
  | move => !move.isOfHost

theorem Scene.counts_act {w : Scene F} {label : String} (behave : Behaviour F)
    (h : w.session.Counts label) {move : Move F} (hmove : move.isIndoors w.session.host = true) :
    (w.act behave move).session.Counts label := by
  have operation : ∀ {id : OperationId} {f : CallbackOperation F → Scene F},
      (∀ op, (f op).session.Counts label) → (w.withOperation id f).session.Counts label :=
    fun hf => Scene.withOperation_cases (P := fun w => w.session.Counts label) h fun op _ => hf op
  cases move with
  | begin p service =>
    simp only [act, begin]
    split <;> exact h
  | go p =>
    simp only [act, go]
    split
    · exact h
    · exact h
    · rename_i request next _
      have hanswer := h.answer p request
      split <;> rename_i hresult <;> rw [hresult] at hanswer <;> exact hanswer
  | abandon p =>
    simp only [act, abandon]
    split
    · exact h.abandon p
    · exact h
  | addLineage name parent => exact h.congr rfl rfl
  | host next =>
    have hsame : next.counting? = w.session.host.counting? := by
      simpa [Move.isIndoors] using hmove
    exact h.congr hsame rfl
  | fire | hangUp => cases hmove
  | reclaim expired =>
    obtain ⟨operations, hholdings, -⟩ := Callbacks.holdings_reclaim w.session expired
    exact h.of_outlook (Session.outlook_reclaim w.session expired)
      (congrArg (fun holdings : Holdings F => holdings.callbacks.board) hholdings)
  | look id slot =>
    refine operation fun op => ?_
    unfold look
    split
    · split
      · split
        · exact h
        · exact h.congr rfl rfl
        · have hspent : w.session.spend.Counts label := h.congr rfl rfl
          exact hspent.deliver behave id op _ _
      · exact h
    · exact h
  | stop id =>
    refine operation fun op => ?_
    unfold stop
    split
    · split
      · exact (Session.Counts.foldl (fun _ e hs => hs.closeEndpoint e) _ h).finish id op _
      · exact h
    · exact h
  | exhaust id =>
    refine operation fun op => ?_
    unfold exhaust
    split
    · split
      · exact h.finish id op _
      · exact h
    · exact h
  | conclude id verdict =>
    refine operation fun op => ?_
    unfold conclude
    split
    · split
      · exact h.conclude id op _ verdict
      · exact h
    · exact h

end RemoteHost
