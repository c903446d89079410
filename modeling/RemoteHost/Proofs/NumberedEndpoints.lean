import RemoteHost.Proofs.HostFrames

/-!
# Endpoints with numbers

Scripted and wired hosts count the endpoints that they open, and the count is the token. So no two
endpoints of a session ever have one token, a token leads to its endpoint for as long as that is
open, and what is sent to an endpoint reaches no other.
-/

namespace RemoteHost

variable {F : Type}

/-- The token of the endpoint of a number, among those of one host. -/
def numbered (label : String) (i : Nat) : String := label ++ toString (i + 1)

theorem numbered_inj {label : String} {i j : Nat} :
    numbered label i = numbered label j ↔ i = j := by
  refine ⟨fun h => ?_, fun h => h ▸ rfl⟩
  have hchars : (toString (i + 1)).toList = (toString (j + 1)).toList :=
    congrArg String.toList ((String.append_right_inj label).mp h)
  have hvalue := congrArg (Nat.ofDigitChars 10 · 0) hchars
  simpa [Nat.toString_eq_ofList_toDigits] using hvalue

theorem numbered_ne_empty (label : String) (i : Nat) : numbered label i ≠ "" := by
  simp [numbered, Nat.repr_ne_empty]

/-- What a host that counts puts before its numbers, and how far it has counted. -/
def Host.counting? : Host → Option (String × Nat)
  | .scripted h => some ("mem-", h.opened)
  | .wired h => some ("port-", h.endpoints)
  | .replaying _ => none

theorem Host.nextToken_of_counting {h : Host} {label : String} {n : Nat}
    (hcounting : h.counting? = some (label, n)) :
    h.nextToken.1 = .ok (numbered label n) ∧
      h.nextToken.2.counting? = some (label, n + 1) := by
  cases h with
  | scripted h => cases hcounting; exact ⟨rfl, rfl⟩
  | wired h => cases hcounting; exact ⟨rfl, rfl⟩
  | replaying h => cases hcounting

namespace Board

/-- The endpoints have the numbers in which they were opened, and the host has every one of them
that is open. -/
structure IsNumbered (b : Board) (label : String) : Prop where
  token : ∀ (i : Nat) (e : Endpoint), b[i]? = some e → e.token = numbered label i
  connected : ∀ i, b.isOpen i = true → b.isConnected i = true

theorem find_of_mem {b : Board} {token : String} {i : Nat} {e : Endpoint} (hget : b[i]? = some e)
    (htoken : e.token = token) (hconnected : e.connected = true) :
    ∃ j, b.find token = some j := by
  have hmem : (e, i) ∈ b.zipIdx.reverse :=
    List.mem_reverse.mpr (List.mk_mem_zipIdx_iff_getElem?.mpr hget)
  have hfound : (b.zipIdx.reverse.find? fun e => e.1.token == token && e.1.connected).isSome :=
    List.find?_isSome.mpr ⟨(e, i), hmem, by simp [htoken, hconnected]⟩
  obtain ⟨found, hfound⟩ := Option.isSome_iff_exists.mp hfound
  exact ⟨found.2, by rw [find, hfound]; rfl⟩

theorem isConnected_eq_true {b : Board} {i : Nat} (h : b.isConnected i = true) :
    ∃ e, b[i]? = some e ∧ e.connected = true := by
  unfold isConnected at h
  cases hget : b[i]? with
  | none => simp [hget] at h
  | some e => exact ⟨e, rfl, by simpa [hget] using h⟩

namespace IsNumbered

variable {b : Board} {label : String}

theorem nil (label : String) : IsNumbered [] label :=
  ⟨by simp, fun i h => by simp [isOpen] at h⟩

theorem find_eq_some_iff (h : b.IsNumbered label) {token : String} {i : Nat} :
    b.find token = some i ↔ token = numbered label i ∧ b.isConnected i = true := by
  constructor
  · intro hfound
    obtain ⟨e, hget, rfl, hconnected⟩ := find_eq_some hfound
    exact ⟨h.token i e hget, by simp [isConnected, hget, hconnected]⟩
  · rintro ⟨rfl, hconnected⟩
    obtain ⟨e, hget, hconnected⟩ := isConnected_eq_true hconnected
    obtain ⟨j, hfound⟩ := find_of_mem hget (h.token i e hget) hconnected
    obtain ⟨e', hget', htoken, -⟩ := find_eq_some hfound
    rw [h.token j e' hget', numbered_inj] at htoken
    rw [hfound, htoken]

theorem send_of_isOpen (h : b.IsNumbered label) {i : Nat} (hopen : b.isOpen i = true)
    (payload : Json) : b.send (numbered label i) payload =
      (some i, b.modify i fun e => { e with inbox := e.inbox ++ [payload] }) :=
  send_of_find (h.find_eq_some_iff.mpr ⟨rfl, h.connected i hopen⟩) hopen payload

/-- A token that leads to no open endpoint leads nowhere. -/
theorem send_of_not_isOpen (h : b.IsNumbered label) {token : String}
    (hclosed : ∀ i, token = numbered label i → b.isOpen i = false) (payload : Json) :
    b.send token payload = (none, b) := by
  unfold send
  cases hfound : b.find token with
  | none => rfl
  | some i =>
    have hshut : (b[i]?.map (·.isOpen)).getD false = false :=
      hclosed i (h.find_eq_some_iff.mp hfound).1
    simp [hshut]

theorem modify (h : b.IsNumbered label) (i : Nat) {f : Endpoint → Endpoint}
    (htoken : ∀ e, (f e).token = e.token) (hopen : ∀ e, (f e).isOpen = true → e.isOpen = true)
    (hconnected : ∀ e, (f e).connected = e.connected) : IsNumbered (b.modify i f) label where
  token j e hget := by
    rw [List.getElem?_modify] at hget
    obtain ⟨old, hold, rfl⟩ := Option.map_eq_some_iff.mp hget
    have htold := h.token j old hold
    by_cases hij : i = j
    · simpa [hij, htoken] using htold
    · simpa [hij] using htold
  connected j hj := by
    have hstill : b.isOpen j = true := by
      rw [isOpen_modify] at hj
      split at hj
      · unfold isOpen
        cases hget : b[j]? with
        | none => simp [hget] at hj
        | some e => simpa using hopen e (by simpa [hget] using hj)
      · exact hj
    rw [isConnected_modify]
    split
    · simpa [isConnected, hconnected] using h.connected j hstill
    · exact h.connected j hstill

theorem close (h : b.IsNumbered label) (i : Nat) : (b.close i).IsNumbered label :=
  h.modify i (fun _ => rfl) (fun _ hopen => by cases hopen) fun _ => rfl

/-- Forgetting a token that no open endpoint has. -/
theorem disown (h : b.IsNumbered label) {token : String}
    (hclosed : ∀ i, token = numbered label i → b.isOpen i = false) :
    (b.disown token).IsNumbered label where
  token i e hget := by
    rw [getElem?_disown] at hget
    obtain ⟨old, hold, rfl⟩ := Option.map_eq_some_iff.mp hget
    have htold := h.token i old hold
    split <;> exact htold
  connected i hi := by
    rw [isOpen_disown] at hi
    obtain ⟨e, hget, hconnected⟩ := isConnected_eq_true (h.connected i hi)
    have hother : e.token ≠ token := fun htoken => by
      rw [hclosed i (htoken.symm.trans (h.token i e hget))] at hi
      cases hi
    simp [isConnected, getElem?_disown, hget, hother, hconnected]

theorem disown_fresh (h : b.IsNumbered label) :
    Board.disown b (numbered label b.length) = b := by
  refine List.ext_getElem? fun i => ?_
  rw [getElem?_disown]
  cases hget : b[i]? with
  | none => rfl
  | some e =>
    have hother : e.token ≠ numbered label b.length := fun htoken =>
      Nat.ne_of_lt (List.getElem?_eq_some_iff.mp hget).1
        (numbered_inj.mp ((h.token i e hget).symm.trans htoken))
    simp [hother]

theorem openLine (h : b.IsNumbered label) :
    (b.openLine (numbered label b.length)).2.IsNumbered label where
  token i e hget := by
    change (b ++ [({ token := numbered label b.length } : Endpoint)])[i]? = some e at hget
    rw [List.getElem?_append] at hget
    split at hget
    · exact h.token i e hget
    · rename_i hi
      obtain ⟨hlast, rfl⟩ : i - b.length = 0 ∧
          ({ token := numbered label b.length } : Endpoint) = e := by
        simpa [List.getElem?_singleton] using hget
      rw [show i = b.length by omega]
  connected i hi := by
    rw [isOpen_openLine] at hi
    rw [isConnected_openLine]
    rcases Bool.or_eq_true_iff.mp hi with hi | hi
    · simp [h.connected i hi]
    · simp [hi]

end IsNumbered

end Board

namespace Session

/-- The host counts the endpoints of the session. -/
structure Counts (s : Session F) (label : String) : Prop where
  host : s.host.counting? = some (label, s.board.length)
  board : s.board.IsNumbered label

namespace Counts

variable {s s' : Session F} {label : String}

theorem start {settings : Settings} {host : Host} (h : host.counting? = some (label, 0)) :
    Counts ({ settings, host } : Session F) label :=
  ⟨h, .nil label⟩

theorem of_board (h : s.Counts label) (houtlook : s'.outlook.host = s.outlook.host)
    (hlength : s'.board.length = s.board.length) (hboard : s'.board.IsNumbered label) :
    s'.Counts label where
  host := by
    rw [hlength, ← h.host]
    exact congrArg Host.counting? houtlook
  board := hboard

theorem tokenOf (h : s.Counts label) (e : EndpointId) :
    s.tokenOf e = if e < s.board.length then numbered label e else "" := by
  unfold Session.tokenOf
  split
  · rename_i he
    rw [List.getElem?_eq_getElem he]
    exact h.board.token e _ (List.getElem?_eq_getElem he)
  · rename_i he
    simp [List.getElem?_eq_none (Nat.le_of_not_lt he)]

/-- The token of an endpoint that is closed is the token of no open one. -/
theorem closed_of_tokenOf (h : s.Counts label) {e i : EndpointId}
    (htoken : s.tokenOf e = numbered label i) : (s.board.close e).isOpen i = false := by
  rw [h.tokenOf] at htoken
  split at htoken
  · rw [numbered_inj.mp htoken]
    simp
  · exact absurd htoken.symm (numbered_ne_empty label i)

/-- An endpoint is opened under the next number. -/
theorem openEndpoint_eq (h : s.Counts label) (p : Party) :
    (s.openEndpoint p).1 = .ok ⟨s.board.length, numbered label s.board.length⟩ ∧
      (s.openEndpoint p).2.board = (s.board.openLine (numbered label s.board.length)).2 ∧
      (s.openEndpoint p).2.outlook = Outlook.note ⟨s.host.nextToken.2, s.journal.events⟩
        (if s.host.nextToken.2.notesEndpoints then [.opened (numbered label s.board.length)]
          else []) := by
  obtain ⟨htoken, -⟩ := Host.nextToken_of_counting h.host
  cases hnext : s.host.nextToken with
  | mk answer host =>
    rw [hnext] at htoken
    cases htoken
    obtain ⟨t, ht⟩ : ∃ t : Session F,
        t = ({ s with host } : Session F).disown (numbered label s.board.length) := ⟨_, rfl⟩
    have hboard : t.board = s.board := by
      have hcallbacks := callbacks_of_holdings
        (holdings_disown { s with host } (numbered label s.board.length))
      rw [ht]
      exact (congrArg Callbacks.board hcallbacks).trans h.board.disown_fresh
    have houtlook : t.outlook = ⟨host, s.journal.events⟩ := by
      rw [ht]
      exact outlook_disown { s with host } _
    have hhost : t.host = host := congrArg Outlook.host houtlook
    have hevents : t.journal.events = s.journal.events := congrArg Outlook.events houtlook
    simp only [Session.openEndpoint, hnext, ← ht, hboard, hhost, Board.openLine_fst, true_and]
    split <;> exact ⟨rfl, by simp [outlook, Outlook.note, Session.note, hevents]⟩

theorem openEndpoint (h : s.Counts label) (p : Party) : (s.openEndpoint p).2.Counts label := by
  obtain ⟨-, hcounting⟩ := Host.nextToken_of_counting h.host
  obtain ⟨-, hboard, houtlook⟩ := h.openEndpoint_eq p
  refine ⟨?_, ?_⟩
  · rw [hboard, Board.length_openLine, ← hcounting]
    exact congrArg (fun o : Outlook => o.host.counting?) houtlook
  · rw [hboard]
    exact h.board.openLine

theorem fire (h : s.Counts label) (token : String) (payload : Json) :
    (s.fire token payload).2.Counts label := by
  have hboard : (s.fire token payload).2.board = (s.board.send token payload).2 :=
    congrArg Callbacks.board (callbacks_of_holdings (Callbacks.holdings_fire s token payload))
  have hhost : (s.fire token payload).2.outlook.host = s.outlook.host := by
    rw [outlook_fire]
    split <;> rfl
  cases hsend : s.board.send token payload with
  | mk target board =>
    rw [hsend] at hboard
    cases target with
    | none =>
      rw [Board.send_eq_none hsend] at hboard
      exact h.of_board hhost (by rw [hboard]) (by rw [hboard]; exact h.board)
    | some e =>
      obtain ⟨-, -, rfl⟩ := Board.send_eq_some hsend
      refine h.of_board hhost (by rw [hboard, List.length_modify]) ?_
      rw [hboard]
      exact h.board.modify e (fun _ => rfl) (fun _ hopen => hopen) fun _ => rfl

theorem closeEndpoint (h : s.Counts label) (e : EndpointId) :
    (s.closeEndpoint e).Counts label := by
  have hboard : (s.closeEndpoint e).board = (s.board.close e).disown (s.tokenOf e) :=
    congrArg Callbacks.board (callbacks_of_holdings (holdings_closeEndpoint s e))
  have hhost : (s.closeEndpoint e).outlook.host = s.outlook.host := by
    rw [outlook_closeEndpoint]
    split <;> rfl
  refine h.of_board hhost (by rw [hboard]; simp) ?_
  rw [hboard]
  exact (h.board.close e).disown fun i htoken => h.closed_of_tokenOf htoken

theorem dropEndpoint (h : s.Counts label) (e : EndpointId) :
    (s.dropEndpoint e).Counts label := by
  have hboard : (s.dropEndpoint e).board = s.board.close e :=
    congrArg Callbacks.board (callbacks_of_holdings (holdings_dropEndpoint s e))
  have hhost : (s.dropEndpoint e).outlook.host = s.outlook.host := by
    rw [outlook_dropEndpoint]
    split <;> rfl
  refine h.of_board hhost (by rw [hboard]; simp) ?_
  rw [hboard]
  exact h.board.close e

theorem take (h : s.Counts label) (e : EndpointId) :
    ({ s with board := s.board.take e } : Session F).Counts label :=
  h.of_board rfl (Board.length_take s.board e)
    (h.board.modify e (fun _ => rfl) (fun _ hopen => hopen) fun _ => rfl)

end Counts

end Session

end RemoteHost
