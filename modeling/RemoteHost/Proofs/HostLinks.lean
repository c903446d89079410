import Mathlib.Data.List.Find
import RemoteHost.Proofs.Bursts
import RemoteHost.Proofs.OtherMoves

/-!
# The host's side of an operation

Each slot of an operation has an endpoint of its own, and the host reaches it by its token until it
lets go of it. What the host does under a token is a signal to the slot that has the token.
-/

namespace RemoteHost

variable {F : Type}

/-- Without a connection an endpoint is found under no token. -/
theorem Board.find_disconnect {b : Board} {i : Nat} {e : Endpoint} (he : b[i]? = some e)
    {token : String} (hne : e.token ≠ token) :
    Board.find (b.modify i fun e => { e with connected := false }) token = b.find token := by
  have hzip : (b.modify i fun e => { e with connected := false }).zipIdx =
      b.zipIdx.map fun e => (if i = e.2 then { e.1 with connected := false } else e.1, e.2) := by
    refine List.ext_getElem? fun j => ?_
    rw [List.getElem?_map, List.getElem?_zipIdx, List.getElem?_zipIdx, List.getElem?_modify]
    cases b[j]? <;> simp
  unfold find
  rw [hzip, ← List.map_reverse, List.find?_map, Option.map_map]
  refine congrArg₂ Option.map rfl (List.find?_congr fun found hfound => ?_)
  have hmem := List.mk_mem_zipIdx_iff_getElem?.mp (List.mem_reverse.mp hfound)
  dsimp only [Function.comp]
  split
  · rename_i heq
    rw [← heq, he] at hmem
    cases hmem
    simp [hne]
  · rfl

namespace CallbackOperation

/-- The slot whose endpoint has a token. -/
def slotOf? (op : CallbackOperation F) (token : String) : Option Nat := op.tokens.idxOf? token

/-- What a move of the host is to an operation. -/
def signal? (op : CallbackOperation F) : Move F → Option Signal
  | .fire token payload => (op.slotOf? token).map (.payload · payload)
  | .hangUp token => (op.slotOf? token).map .hangUp
  | _ => none

variable {op now : CallbackOperation F} {token : String} {slot : Nat} {listener : Listener F}

theorem tokens_getElem? (hget : op.listeners[slot]? = some listener) :
    op.tokens[slot]? = some listener.opened.token := by
  simp [tokens, hget]

theorem slotOf?_eq_some (hnodup : op.tokens.Nodup) (hget : op.listeners[slot]? = some listener) :
    op.slotOf? token = some slot ↔ token = listener.opened.token := by
  have htoken := tokens_getElem? hget
  obtain ⟨hlt, heq⟩ := List.getElem?_eq_some_iff.mp htoken
  rw [slotOf?, List.idxOf?_eq_some_iff]
  constructor
  · rintro ⟨_, hfound, -⟩
    exact hfound.symm.trans heq
  · rintro rfl
    refine ⟨hlt, heq, fun j hj hsame => ?_⟩
    exact Nat.ne_of_lt hj ((hnodup.getElem_inj_iff).mp (hsame.trans heq.symm))

theorem signal?_eq_none {move : Move F} (h : move.isOfHost = false) : op.signal? move = none := by
  cases move with
  | fire | hangUp => cases h
  | _ => rfl

theorem endpoints_of_lanes (h : now.lanes = op.lanes) : now.endpoints = op.endpoints := by
  have hmap : ∀ op : CallbackOperation F, op.endpoints = op.lanes.map (·.2) := fun op => by
    simp [lanes, endpoints]
  rw [hmap, hmap, h]

end CallbackOperation

/-! ## Connections -/

/-- The host has let go of the endpoints of some slots, and has those of the others. -/
structure Linked (board : Board) (op : CallbackOperation F) (gone : List Nat) : Prop where
  lost : ∀ slot ∈ gone, ∀ listener, op.listeners[slot]? = some listener →
    Board.isConnected board listener.opened.endpoint = false
  kept : ∀ slot, slot ∉ gone → ∀ listener, op.listeners[slot]? = some listener →
    board.find listener.opened.token = some listener.opened.endpoint

section Linked

variable {board : Board} {op : CallbackOperation F} {gone : List Nat} {token : String} {slot : Nat}
  {listener : Listener F}

/-- An endpoint of an operation is found under its own token only. -/
theorem Linked.found (h : Linked board op gone) (hget : op.listeners[slot]? = some listener)
    (hfound : board.find token = some listener.opened.endpoint) :
    slot ∉ gone ∧ token = listener.opened.token := by
  obtain ⟨e, he, rfl, hconnected⟩ := Board.find_eq_some hfound
  have hkept : slot ∉ gone := fun hgone => by
    have hlost := h.lost slot hgone listener hget
    simp [Board.isConnected, he, hconnected] at hlost
  obtain ⟨e', he', htoken, -⟩ := Board.find_eq_some (h.kept slot hkept listener hget)
  rw [he] at he'
  cases he'
  exact ⟨hkept, htoken⟩

theorem Linked.find_iff (h : Linked board op gone) (hget : op.listeners[slot]? = some listener) :
    board.find token = some listener.opened.endpoint ↔
      slot ∉ gone ∧ token = listener.opened.token :=
  ⟨h.found hget, fun ⟨hkept, htoken⟩ => htoken ▸ h.kept slot hkept listener hget⟩

/-- What is sent arrives at a slot exactly if the slot is not gone and the token is its own. -/
theorem Linked.inbox_send (h : Linked board op gone) (hget : op.listeners[slot]? = some listener)
    (hopen : board.isOpen listener.opened.endpoint = true) (payload : Json) :
    Board.inbox (board.send token payload).2 listener.opened.endpoint =
      Board.inbox board listener.opened.endpoint ++
        if slot ∉ gone ∧ token = listener.opened.token then [payload] else [] := by
  by_cases hfound : board.find token = some listener.opened.endpoint
  · rw [Board.send_of_find hfound hopen, if_pos (h.found hget hfound),
      Board.inbox_append (Board.lt_length_of_isOpen hopen), if_pos rfl]
  · rw [if_neg (mt (h.find_iff hget).mpr hfound), List.append_nil]
    cases hsend : board.send token payload with
    | mk target board' =>
      cases target with
      | none => rw [Board.send_eq_none hsend]
      | some i =>
        obtain ⟨hopen', -, rfl⟩ := Board.send_eq_some hsend
        rw [Board.inbox_append (Board.lt_length_of_isOpen hopen'), if_neg]
        rintro rfl
        refine hfound ?_
        unfold Board.send at hsend
        split at hsend
        · cases hsend
        · rename_i k hk
          split at hsend
          · simpa [hk] using congrArg Prod.fst hsend
          · cases hsend

/-- What becomes of connections when the host lets go of a token. -/
theorem Linked.hangUp (h : Linked board op gone) (hnodup : op.tokens.Nodup) (token : String) :
    Linked (board.hangUp token).2 op
      (goneAfter gone (op.signal? (.hangUp token : Move F)).toList) := by
  have hgone : ∀ slot listener, op.listeners[slot]? = some listener →
      (slot ∈ goneAfter gone (op.signal? (.hangUp token : Move F)).toList ↔
        slot ∈ gone ∨ token = listener.opened.token) := by
    intro slot listener hget
    rw [← CallbackOperation.slotOf?_eq_some hnodup hget, CallbackOperation.signal?]
    cases op.slotOf? token with
    | none => simp [goneAfter]
    | some other => simp [goneAfter, eq_comm, or_comm]
  cases hfind : board.find token with
  | none =>
    have hboard : (board.hangUp token).2 = board := by simp [Board.hangUp, hfind]
    rw [hboard]
    refine ⟨fun slot hmem listener hget => ?_, fun slot hmem listener hget => ?_⟩
    · refine h.lost slot (((hgone slot listener hget).mp hmem).elim id fun htoken => ?_) listener hget
      by_contra hkept
      rw [(h.find_iff hget).mpr ⟨hkept, htoken⟩] at hfind
      cases hfind
    · exact h.kept slot (fun hin => hmem ((hgone slot listener hget).mpr (.inl hin))) listener hget
  | some i =>
    obtain ⟨e, he, htoken, -⟩ := Board.find_eq_some hfind
    have hboard : (board.hangUp token).2 =
        board.modify i fun e => { e with connected := false } := by simp [Board.hangUp, hfind]
    rw [hboard]
    refine ⟨fun slot hmem listener hget => ?_, fun slot hmem listener hget => ?_⟩
    · rw [Board.isConnected_disconnect]
      by_cases hin : slot ∈ gone
      · rw [h.lost slot hin listener hget, Bool.false_and]
      · have hown := ((hgone slot listener hget).mp hmem).resolve_left hin
        have hsame := (h.find_iff hget).mpr ⟨hin, hown⟩
        rw [hfind] at hsame
        simp [Option.some.inj hsame]
    · have hnot := mt (hgone slot listener hget).mpr hmem
      rw [Board.find_disconnect he (htoken ▸ fun hsame => hnot (.inr hsame))]
      exact h.kept slot (fun hin => hnot (.inl hin)) listener hget

theorem Linked.congr {board' : Board} (h : Linked board op gone)
    (hlost : ∀ listener ∈ op.listeners,
      Board.isConnected board listener.opened.endpoint = false →
        Board.isConnected board' listener.opened.endpoint = false)
    (hkept : ∀ listener ∈ op.listeners,
      board.find listener.opened.token = some listener.opened.endpoint →
        board'.find listener.opened.token = some listener.opened.endpoint) :
    Linked board' op gone where
  lost slot hgone listener hget :=
    hlost listener (List.mem_of_getElem? hget) (h.lost slot hgone listener hget)
  kept slot hgone listener hget :=
    hkept listener (List.mem_of_getElem? hget) (h.kept slot hgone listener hget)

theorem Linked.take (h : Linked board op gone) (i : EndpointId) : Linked (board.take i) op gone :=
  h.congr (fun _ _ hlost => by rwa [Board.isConnected_take])
    fun _ _ hfound => by rwa [Board.find_take]

end Linked

/-! ## Between turns -/

/-- The payloads that wait for a slot. -/
def waitingAt (board : Board) (lanes : List (Slot F × EndpointId)) (slot : Nat) : List Json :=
  (lanes[slot]?.map fun lane => Board.inbox board lane.2).getD []

section WaitingAt

variable {board : Board} {lanes : List (Slot F × EndpointId)} {lane : Slot F × EndpointId}
  {slot : Nat}

theorem waitingAt_of_lane (board : Board) (hlane : lanes[slot]? = some lane) :
    waitingAt board lanes slot = Board.inbox board lane.2 := by
  simp [waitingAt, hlane]

theorem waitingAt_congr {board' : Board}
    (h : ∀ lane ∈ lanes, Board.inbox board' lane.2 = Board.inbox board lane.2) :
    waitingAt board' lanes = waitingAt board lanes := by
  funext slot
  unfold waitingAt
  cases hlane : lanes[slot]? with
  | none => rfl
  | some lane => exact h lane (List.mem_of_getElem? hlane)

theorem waitingAt_take (board : Board) (hnodup : (lanes.map (·.2)).Nodup)
    (hlane : lanes[slot]? = some lane) (i : Nat) : waitingAt (board.take lane.2) lanes i =
      if i = slot then (waitingAt board lanes slot).tail else waitingAt board lanes i := by
  cases hother : lanes[i]? with
  | none =>
    have hne : i ≠ slot := by
      rintro rfl
      rw [hlane] at hother
      cases hother
    simp [waitingAt, hother, hne]
  | some other =>
    rw [waitingAt_of_lane _ hother, waitingAt_of_lane _ hother, waitingAt_of_lane _ hlane,
      Board.inbox_take]
    by_cases hi : i = slot
    · subst hi
      rw [hlane] at hother
      cases hother
      rw [if_pos rfl, if_pos rfl]
    · have hne : lane.2 ≠ other.2 := fun heq => by
        have hsome := slotAt?_eq_some hnodup hother
        rw [← heq, slotAt?_eq_some hnodup hlane] at hsome
        exact hi (Option.some.inj hsome).symm
      rw [if_neg hne, if_neg hi]

end WaitingAt

/-- What is sent under a token waits for the slot that has the token, unless the slot is gone. -/
theorem waitingFor_fired {op : CallbackOperation F} (hnodup : op.tokens.Nodup) {slot : Nat}
    {listener : Listener F} (hget : op.listeners[slot]? = some listener) (gone : List Nat)
    (token : String) (payload : Json) :
    waitingFor slot (received gone (op.signal? (.fire token payload : Move F)).toList) =
      if slot ∉ gone ∧ token = listener.opened.token then [payload] else [] := by
  simp only [← CallbackOperation.slotOf?_eq_some hnodup hget, CallbackOperation.signal?]
  cases op.slotOf? token with
  | none => simp [received, waitingFor]
  | some other =>
    by_cases hother : other = slot
    · subst hother
      by_cases hgone : other ∈ gone
      · simp [received, waitingFor, hgone]
      · simp [received, waitingFor, hgone]
    · by_cases hgone : other ∈ gone
      · simp [received, waitingFor, hgone, hother]
      · simp [received, waitingFor, hgone, hother]

namespace Scene

variable {behave : Behaviour F} {w : Scene F} {move : Move F} {id : OperationId}
  {op now : CallbackOperation F} {gone : List Nat}

/-- A move takes no endpoint from an operation and does not tell it to end. -/
structure Spares (behave : Behaviour F) (op : CallbackOperation F) (id : OperationId) (w : Scene F)
    (move : Move F) : Prop where
  found : ∀ listener ∈ op.listeners,
    w.session.board.find listener.opened.token = some listener.opened.endpoint →
      (w.act behave move).session.board.find listener.opened.token =
        some listener.opened.endpoint
  untold : ∀ expired, move = .reclaim expired → expired id = false

/-- What comes to an operation that has no turn: signals, and nothing else. -/
structure Brought (w w' : Scene F) (id : OperationId) (op now : CallbackOperation F)
    (gone : List Nat) (signals : List Signal) : Prop where
  operation : w'.session.operations[id]? = some now
  story : story w'.history id = story w.history id
  linked : Linked w'.session.board op (goneAfter gone signals)
  waiting : ∀ slot < op.lanes.length, waitingAt w'.session.board op.lanes slot =
    waitingAt w.session.board op.lanes slot ++ waitingFor slot (received gone signals)

theorem brought_fire (hop : w.session.operations[id]? = some now)
    (hopen : ∀ e ∈ op.endpoints, w.session.board.isOpen e = true) (hnodup : op.tokens.Nodup)
    (hlinked : Linked w.session.board op gone) (token : String) (payload : Json) :
    Brought w (w.fire token payload) id op now gone (op.signal? (.fire token payload)).toList := by
  have hsession := Session.callbacks_of_holdings (Callbacks.holdings_fire w.session token payload)
  have hboard : (w.session.fire token payload).2.board = (w.session.board.send token payload).2 :=
    congrArg Callbacks.board hsession
  have hgone : goneAfter gone (op.signal? (.fire token payload)).toList = gone := by
    rw [CallbackOperation.signal?]
    cases op.slotOf? token <;> rfl
  refine ⟨?_, ?_, ?_, fun slot hslot => ?_⟩
  · exact (Session.operation_of_callbacks hsession id).trans hop
  · cases hsend : w.session.board.send token payload with
    | mk target board => cases target <;> simp [Scene.fire, hsend, RemoteHost.story]
  · rw [hgone]
    dsimp only [Scene.fire]
    rw [hboard]
    cases hsend : w.session.board.send token payload with
    | mk target board =>
      cases target with
      | none =>
        rw [Board.send_eq_none hsend]
        exact hlinked
      | some i =>
        obtain ⟨-, -, rfl⟩ := Board.send_eq_some hsend
        exact hlinked.congr (fun _ _ hlost => by rwa [Board.isConnected_append])
          fun _ _ hfound => by rwa [Board.find_append]
  · obtain ⟨lane, hlane⟩ : ∃ lane, op.lanes[slot]? = some lane :=
      ⟨_, List.getElem?_eq_getElem hslot⟩
    obtain ⟨listener, hget, rfl⟩ := lanes_getElem?.mp hlane
    rw [waitingAt_of_lane _ hlane, waitingAt_of_lane _ hlane, waitingFor_fired hnodup hget]
    dsimp only [Scene.fire]
    rw [hboard]
    exact hlinked.inbox_send hget (hopen _ (mem_endpoints (List.mem_of_getElem? hget))) payload

theorem brought_hangUp (hop : w.session.operations[id]? = some now) (hnodup : op.tokens.Nodup)
    (hlinked : Linked w.session.board op gone) (token : String) :
    Brought w { w with session := (w.session.hangUp token).2 } id op now gone
      (op.signal? (.hangUp token)).toList := by
  have hsession := Session.callbacks_of_holdings (Callbacks.holdings_hangUp w.session token)
  have hboard : (w.session.hangUp token).2.board = (w.session.board.hangUp token).2 :=
    congrArg Callbacks.board hsession
  have hinbox : ∀ e, Board.inbox (w.session.board.hangUp token).2 e =
      Board.inbox w.session.board e := by
    intro e
    cases hhang : w.session.board.hangUp token with
    | mk target board =>
      cases target with
      | none => rw [Board.hangUp_eq_none hhang]
      | some i => rw [Board.hangUp_eq_some hhang, Board.inbox_disconnect]
  have hnothing : received gone (op.signal? (.hangUp token : Move F)).toList = [] := by
    rw [CallbackOperation.signal?]
    cases op.slotOf? token <;> rfl
  refine ⟨?_, rfl, ?_, fun slot _ => ?_⟩
  · exact (Session.operation_of_callbacks hsession id).trans hop
  · dsimp only
    rw [hboard]
    exact hlinked.hangUp hnodup token
  · dsimp only
    rw [hboard, hnothing, waitingAt_congr fun lane _ => hinbox lane.2]
    exact (List.append_nil _).symm

/-- Between its turns an operation notices signals only, if nobody interferes. -/
theorem brought_act (howned : Owned w.session.callbacks w.busy)
    (hop : w.session.operations[id]? = some now) (hlanes : now.lanes = op.lanes)
    (hopen : ∀ e ∈ op.endpoints, w.session.board.isOpen e = true) (hnodup : op.tokens.Nodup)
    (hlinked : Linked w.session.board op gone) (hturn : move.isTurnOf id = false)
    (hspared : move.isOfHost = false → w.Spares behave op id move) :
    Brought w (w.act behave move) id op now gone (op.signal? move).toList := by
  cases hhost : move.isOfHost with
  | true =>
    cases move with
    | fire token payload => exact brought_fire hop hopen hnodup hlinked token payload
    | hangUp token => exact brought_hangUp hop hnodup hlinked token
    | _ => cases hhost
  | false =>
    have hspares := hspared hhost
    obtain ⟨hstill, hstory, hinbox⟩ :=
      passedBy_act behave howned hop hhost hturn hspares.untold
    have hendpoints := CallbackOperation.endpoints_of_lanes hlanes
    rw [CallbackOperation.signal?_eq_none hhost]
    refine ⟨hstill, hstory, ?_, fun slot _ => ?_⟩
    · refine hlinked.congr (fun listener hmem hlost => ?_) hspares.found
      exact lost_act behave (Board.lt_length_of_isOpen (hopen _ (mem_endpoints hmem))) hlost
    · have hsame : waitingAt (w.act behave move).session.board op.lanes =
          waitingAt w.session.board op.lanes := by
        refine waitingAt_congr fun lane hmem => ?_
        obtain ⟨listener, hlistener, rfl⟩ := List.mem_map.mp hmem
        exact hinbox _ (hendpoints ▸ mem_endpoints hlistener)
      rw [hsame]
      exact (List.append_nil _).symm

end Scene

end RemoteHost
