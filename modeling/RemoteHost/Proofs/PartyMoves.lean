import RemoteHost.Proofs.SessionInterleaving

/-!
# Who does what to endpoints

Every move is one of a few things, seen from endpoints and operations: a party goes on with what it
is doing, something arrives or breaks off, supervision speaks, or an operation has its turn.
-/

namespace RemoteHost

variable {F : Type}

/-- What an answered request of a party does. -/
def Answered (c : Callbacks F) (p : Party) :
    (request : Request F) → request.Reply → Callbacks F → Prop
  | .openEndpoint, .ok opened, c' => opened.endpoint = c.board.length ∧ c' = { c with
      board := ((c.board.disown opened.token).openLine opened.token).2
      unclaimed := c.unclaimed ++ [(p, c.board.length)] }
  | .closeEndpoint endpoint, _, c' => Callbacks.Shut [endpoint] c c'
  | .launch label endpoints slots parent, id, c' => id = c.operations.length ∧ c' = { c with
      unclaimed := c.unclaimed.filter fun u => u.2 ∉ endpoints.map (·.endpoint)
      operations := c.operations ++ [.started label endpoints slots parent] }
  | _, _, c' => c' = c

theorem Answered.plain {c c' : Callbacks F} {p : Party} {request : Request F}
    {reply : request.Reply} (hplain : request.isPlain = true) (h : c' = c) :
    Answered c p request reply c' := by
  cases request with
  | openEndpoint | closeEndpoint | launch => cases hplain
  | _ => exact h

namespace Session

/-- A request that has to wait does nothing to endpoints and operations. -/
theorem callbacks_of_waiting {s s' : Session F} {p : Party} {request : Request F}
    (h : s.answer p request = (none, s')) : s'.callbacks = s.callbacks := by
  by_cases hplain : request.isPlain = true
  · have hsame := callbacks_answer s p request hplain
    rwa [h] at hsame
  · cases request with
    | openEndpoint | closeEndpoint | launch => cases h
    | _ => exact absurd rfl hplain

theorem answered_of_answer {s s' : Session F} {p : Party} {request : Request F}
    {reply : request.Reply} (h : s.answer p request = (some reply, s')) :
    Answered s.callbacks p request reply s'.callbacks := by
  by_cases hplain : request.isPlain = true
  · have hsame := callbacks_answer s p request hplain
    rw [h] at hsame
    exact .plain hplain hsame
  · cases request with
    | openEndpoint =>
      have hopening := openEndpoint_opening s p
      simp only [answer] at h
      cases hreply : s.openEndpoint p with
      | mk opened s'' =>
        rw [hreply] at hopening h
        cases h
        cases opened <;> exact hopening
    | closeEndpoint endpoint =>
      cases h
      exact Callbacks.shut_closeEndpoint s endpoint
    | launch label endpoints slots parent =>
      cases h
      exact ⟨rfl, callbacks_of_holdings (Callbacks.holdings_launch s label endpoints slots parent)⟩
    | _ => exact absurd rfl hplain

end Session

namespace Scene

/-- What comes of a move. -/
inductive Acted (w : Scene F) : Move F → Scene F → Prop where
  | still {move : Move F} {session : Session F} (hmove : ∀ p, move = .abandon p → w.busy p = none)
      (hsame : session.callbacks = w.session.callbacks) : Acted w move { w with session }
  | began {p : Party} {service : Service F} (hfree : w.isFree p = true) :
      Acted w (.begin p service) ⟨w.session,
        Function.update w.busy p (some ⟨service, (service.job w.session.settings).run⟩),
        w.history ++ [.began p service]⟩
  | asked {p : Party} {service : Service F} {request : Request F}
      {next : request.Reply → Routine F (Except Fault service.Result)} {reply : request.Reply}
      {session : Session F} (hbusy : w.busy p = some ⟨service, .ask request next⟩)
      (hanswered : Answered w.session.callbacks p request reply session.callbacks) :
      Acted w (.go p) ⟨session, Function.update w.busy p (some ⟨service, next reply⟩),
        w.history ++ [.asked p request reply]⟩
  | gained {p : Party} {service : Service F} {result : Except Fault service.Result}
      (hbusy : w.busy p = some ⟨service, .done result⟩) :
      Acted w (.go p) ⟨w.session, Function.update w.busy p none,
        w.history ++ [.gained p service result]⟩
  | abandoned {p : Party} {session : Session F} (hbusy : (w.busy p).isSome = true)
      (hshut : Callbacks.Shut ((w.session.unclaimed.filter fun u => u.1 = p).map (·.2))
        w.session.callbacks session.callbacks) :
      Acted w (.abandon p) ⟨session, Function.update w.busy p none, w.history ++ [.abandoned p]⟩
  | arrived {token : String} {session : Session F} {e : EndpointId} {payload : Json}
      (hopen : w.session.board.isOpen e = true)
      (hconnected : Board.isConnected w.session.board e = true)
      (hsession : session.callbacks = { w.session.callbacks with
        board := w.session.board.modify e fun e => { e with inbox := e.inbox ++ [payload] } }) :
      Acted w (.fire token payload) { w with session, history := w.history ++ [.arrived e payload] }
  | disconnected {token : String} {session : Session F} {e : EndpointId}
      (hsession : session.callbacks = { w.session.callbacks with
        board := w.session.board.modify e fun e => { e with connected := false } }) :
      Acted w (.hangUp token) { w with session }
  | told {expired : OperationId → Bool} {session : Session F}
      {operations : List (CallbackOperation F)}
      (htold : Callbacks.Told w.session.operations operations)
      (hsession : session.callbacks = { w.session.callbacks with operations }) :
      Acted w (.reclaim expired) { w with session }
  | turned {move : Move F} {id : OperationId} {op : CallbackOperation F} {w' : Scene F}
      (hmove : ∀ p, move ≠ .abandon p) (hop : w.session.operations[id]? = some op)
      (hturn : Turn w id op move w') : Acted w move w'

theorem acted_go (w : Scene F) (p : Party) : Acted w (.go p) (w.go p) := by
  unfold go
  split
  · exact .still (by simp) rfl
  · rename_i service result hbusy
    exact .gained hbusy
  · rename_i service request next hbusy
    split
    · rename_i session hanswer
      exact .still (by simp) (Session.callbacks_of_waiting hanswer)
    · rename_i reply session hanswer
      exact .asked hbusy (Session.answered_of_answer hanswer)

theorem acted_fire (w : Scene F) (token : String) (payload : Json) :
    Acted w (.fire token payload) (w.fire token payload) := by
  have hsession := Session.callbacks_of_holdings (Callbacks.holdings_fire w.session token payload)
  unfold fire
  cases hsend : w.session.board.send token payload with
  | mk target board =>
    rw [hsend] at hsession
    cases target with
    | none =>
      rw [Board.send_eq_none hsend] at hsession
      rw [List.append_nil]
      exact .still (by simp) hsession
    | some e =>
      obtain ⟨hopen, hconnected, rfl⟩ := Board.send_eq_some hsend
      exact .arrived hopen hconnected hsession

theorem acted_act (behave : Behaviour F) (w : Scene F) (move : Move F) :
    Acted w move (w.act behave move) := by
  have turn : ∀ (id : OperationId) (f : CallbackOperation F → Scene F),
      (∀ p, move ≠ .abandon p) →
      (∀ op, w.session.operations[id]? = some op → Turn w id op move (f op)) →
      Acted w move (w.withOperation id f) := by
    intro id f hmove hf
    exact withOperation_cases (P := Acted w move) (.still (fun p h => absurd h (hmove p)) rfl)
      fun op hop => .turned hmove hop (hf op hop)
  cases move with
  | begin p service =>
    simp only [act, begin]
    split
    · rename_i hfree
      exact .began hfree
    · exact .still (by simp) rfl
  | go p => exact acted_go w p
  | abandon p =>
    simp only [act, abandon]
    split
    · rename_i hbusy
      exact .abandoned hbusy (Callbacks.shut_abandon w.session p)
    · rename_i hidle
      refine .still (fun q hq => ?_) rfl
      cases hq
      simpa using hidle
  | addLineage label parent => exact .still (by simp) rfl
  | host host => exact .still (by simp) rfl
  | fire token payload => exact acted_fire w token payload
  | hangUp token =>
    have hsession := Session.callbacks_of_holdings (Callbacks.holdings_hangUp w.session token)
    cases hhang : w.session.board.hangUp token with
    | mk target board =>
      rw [hhang] at hsession
      cases target with
      | none =>
        rw [Board.hangUp_eq_none hhang] at hsession
        exact .still (by simp) hsession
      | some e =>
        rw [Board.hangUp_eq_some hhang] at hsession
        exact .disconnected hsession
  | reclaim expired =>
    obtain ⟨operations, hsession, htold⟩ := Callbacks.holdings_reclaim w.session expired
    exact .told htold (Session.callbacks_of_holdings hsession)
  | look id slot => exact turn id _ (by simp) fun op _ => turn_look behave slot
  | stop id => exact turn id _ (by simp) fun op hop => turn_stop hop
  | exhaust id => exact turn id _ (by simp) fun op hop => turn_exhaust hop
  | conclude id verdict => exact turn id _ (by simp) fun op hop => turn_conclude hop verdict

end Scene

end RemoteHost
