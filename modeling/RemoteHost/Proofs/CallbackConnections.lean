import RemoteHost.Proofs.ClosedEndpoints
import RemoteHost.Proofs.CountedScenes
import RemoteHost.Proofs.EndpointFates
import RemoteHost.Proofs.LineStreams

/-!
# Connections to endpoints

Whoever knows the token of an open endpoint can connect to it, several at a time, and bring bytes in
chunks of any size while the session goes on. Each connection delivers the values of its own lines,
whatever the others bring; what arrives at an endpoint is what its connections deliver; and after
the endpoint is closed nothing more comes of any of them.
-/

namespace RemoteHost

variable {F : Type}

open Wire (streamValues)

/-- A connection to an endpoint, with the bytes that it brought. -/
structure Visit where
  endpoint : EndpointId
  token : String
  brought : List UInt8 := []
  inlet : Wire.Inlet := {}
  ended : Bool := false

/-- A session with the connections to its endpoints, and what was received from which of them. -/
structure Reception (F : Type) where
  scene : Scene F
  visits : List Visit := []
  received : List (Nat × Json) := []

inductive ReceptionMove (F : Type) where
  | inside (move : Move F)
  | connect (token : String)
  | bring (visit : Nat) (chunk : List UInt8)
  | hangUp (visit : Nat)

namespace Reception

/-- A connection hands a value to the endpoint of a token, which may receive it. -/
def hand (i : Nat) (token : String) (w : Reception F) (value : Json) : Reception F :=
  { w with
    scene := w.scene.fire token value
    received := w.received ++
      if (w.scene.session.fire token value).1 then [(i, value)] else [] }

def deliver (w : Reception F) (i : Nat) (token : String) (values : List Json) : Reception F :=
  values.foldl (hand i token) w

/-- Goes on with a connection, if it is not over. -/
def withVisit (w : Reception F) (i : Nat) (f : Visit → Reception F) : Reception F :=
  match w.visits[i]? with
  | some visit => if visit.ended then w else f visit
  | none => w

def act (behave : Behaviour F) (w : Reception F) : ReceptionMove F → Reception F
  | .inside move =>
    if move.isIndoors w.scene.session.host then { w with scene := w.scene.act behave move } else w
  | .connect token =>
    match w.scene.session.board.find token with
    | some e =>
      if w.scene.session.board.isOpen e then
        { w with visits := w.visits ++ [{ endpoint := e, token := token }] }
      else w
    | none => w
  | .bring i chunk => w.withVisit i fun visit =>
    let (values, inlet) := visit.inlet.feed chunk
    let visit := { visit with brought := visit.brought ++ chunk, inlet }
    deliver { w with visits := w.visits.set i visit } i visit.token values
  | .hangUp i => w.withVisit i fun visit =>
    deliver { w with visits := w.visits.set i { visit with ended := true } } i visit.token
      visit.inlet.finish

def run (behave : Behaviour F) (w : Reception F) (moves : List (ReceptionMove F)) : Reception F :=
  moves.foldl (act behave) w

def start (settings : Settings) (host : Wire.WiredHost) : Reception F where
  scene := .start settings (.wired { host with endpoints := 0 })

/-- What was received from one connection. -/
def receivedFrom (w : Reception F) (i : Nat) : List Json :=
  (w.received.filter fun entry => entry.1 = i).map (·.2)

def leadsTo (w : Reception F) (e : EndpointId) (i : Nat) : Bool :=
  w.visits[i]?.map (·.endpoint) = some e

/-- What was received from the connections to one endpoint. -/
def receivedAt (w : Reception F) (e : EndpointId) : List Json :=
  (w.received.filter fun entry => w.leadsTo e entry.1).map (·.2)

/-! ## Delivery -/

/-- What a connection handed over arrived at an endpoint, and nothing else happened. -/
structure Delivered (w w' : Reception F) (i : Nat) (e : EndpointId) (values : List Json) :
    Prop where
  visits : w'.visits = w.visits
  received : w'.received = w.received ++ values.map (i, ·)
  history : w'.scene.history = w.scene.history ++ values.map (.arrived e)
  length : w'.scene.session.board.length = w.scene.session.board.length
  isOpen : ∀ j, w'.scene.session.board.isOpen j = w.scene.session.board.isOpen j
  counts : w.scene.session.Counts "port-" → w'.scene.session.Counts "port-"

variable {w w' w'' : Reception F} {i : Nat} {e : EndpointId} {values more : List Json}

theorem Delivered.nothing (w : Reception F) (i : Nat) (e : EndpointId) : Delivered w w i e [] :=
  ⟨rfl, by simp, by simp, rfl, fun _ => rfl, id⟩

theorem Delivered.trans (h : Delivered w w' i e values) (h' : Delivered w' w'' i e more) :
    Delivered w w'' i e (values ++ more) where
  visits := h'.visits.trans h.visits
  received := by rw [h'.received, h.received, List.map_append, List.append_assoc]
  history := by rw [h'.history, h.history, List.map_append, List.append_assoc]
  length := h'.length.trans h.length
  isOpen j := (h'.isOpen j).trans (h.isOpen j)
  counts hcounts := h'.counts (h.counts hcounts)

/-- An endpoint receives what is handed over as long as it is open. -/
theorem delivered_hand (hcounts : w.scene.session.Counts "port-") (i : Nat) (e : EndpointId)
    (value : Json) : Delivered w (w.hand i (numbered "port-" e) value) i e
      (if w.scene.session.board.isOpen e then [value] else []) := by
  have hboard : (w.scene.session.fire (numbered "port-" e) value).2.board =
      (w.scene.session.board.send (numbered "port-" e) value).2 :=
    congrArg (fun h : Holdings F => h.callbacks.board)
      (Callbacks.holdings_fire w.scene.session (numbered "port-" e) value)
  by_cases hopen : w.scene.session.board.isOpen e = true
  · have hsend := hcounts.board.send_of_isOpen hopen value
    have hreceived : (w.scene.session.fire (numbered "port-" e) value).1 = true := by
      rw [Session.fire, hsend]
    rw [hsend] at hboard
    rw [if_pos hopen]
    refine ⟨rfl, ?_, ?_, ?_, fun j => ?_, fun _ => hcounts.fire _ value⟩
    · simp [hand, hreceived]
    · simp [hand, Scene.fire, hsend]
    · exact (congrArg List.length hboard).trans (List.length_modify ..)
    · exact (congrArg (Board.isOpen · j) hboard).trans (Board.isOpen_append ..)
  · have hclosed : ∀ j, numbered "port-" e = numbered "port-" j →
        w.scene.session.board.isOpen j = false := by
      intro j hj
      rw [← numbered_inj.mp hj]
      simpa using hopen
    have hsend := hcounts.board.send_of_not_isOpen hclosed value
    have hmissed : w.scene.session.fire (numbered "port-" e) value = (false, w.scene.session) := by
      rw [Session.fire, hsend]
    have hsame : w.hand i (numbered "port-" e) value = w := by
      simp [hand, Scene.fire, hmissed, hsend]
    rw [if_neg hopen, hsame]
    exact .nothing w i e

theorem delivered_deliver (hcounts : w.scene.session.Counts "port-") (i : Nat) (e : EndpointId)
    (values : List Json) : Delivered w (w.deliver i (numbered "port-" e) values) i e
      (if w.scene.session.board.isOpen e then values else []) := by
  induction values generalizing w with
  | nil =>
    rw [ite_self]
    exact .nothing w i e
  | cons value values ih =>
    have hfirst := delivered_hand hcounts i e value
    have hrest := ih (hfirst.counts hcounts)
    rw [hfirst.isOpen e] at hrest
    by_cases hopen : w.scene.session.board.isOpen e = true
    · rw [if_pos hopen] at hfirst hrest ⊢
      exact hfirst.trans hrest
    · rw [if_neg hopen] at hfirst hrest ⊢
      exact hfirst.trans hrest

/-- Whoever is asked for gets all that was received from one connection, or nothing of it. -/
theorem map_filter_tagged (p : Nat → Bool) (i : Nat) (values : List Json) :
    ((values.map (i, ·)).filter fun entry => p entry.1).map (·.2) = if p i then values else [] := by
  rw [List.filter_map, List.map_map]
  by_cases hp : p i = true <;> simp [Function.comp_def, hp]

theorem Delivered.receivedFrom (h : Delivered w w' i e values) (j : Nat) :
    w'.receivedFrom j = w.receivedFrom j ++ if i = j then values else [] := by
  rw [Reception.receivedFrom, h.received, List.filter_append, List.map_append,
    map_filter_tagged (· = j)]
  simp [Reception.receivedFrom]

theorem Delivered.receivedAt (h : Delivered w w' i e values) (e' : EndpointId) :
    w'.receivedAt e' = w.receivedAt e' ++ if w.leadsTo e' i then values else [] := by
  have hleads : w'.leadsTo e' = w.leadsTo e' := by
    funext j
    rw [leadsTo, leadsTo, h.visits]
  rw [Reception.receivedAt, hleads, h.received, List.filter_append, List.map_append,
    map_filter_tagged (w.leadsTo e')]
  rfl

theorem deliver_visits (w : Reception F) (i : Nat) (token : String) (values : List Json) :
    (w.deliver i token values).visits = w.visits := by
  induction values generalizing w with
  | nil => rfl
  | cons value values ih => exact ih (w.hand i token value)

theorem deliver_scene (behave : Behaviour F) (w : Reception F) (i : Nat) (token : String)
    (values : List Json) : (w.deliver i token values).scene =
      w.scene.run behave (values.map (.fire token)) := by
  induction values generalizing w with
  | nil => rfl
  | cons value values ih => exact ih (w.hand i token value)

/-! ## One move -/

/-- What was received from a connection is what its lines say, until the endpoint is closed. -/
def Answers (w : Reception F) (i : Nat) (visit : Visit) : Prop :=
  w.receivedFrom i <+: streamValues visit.brought visit.ended ∧
    (w.scene.session.board.isOpen visit.endpoint = true →
      w.receivedFrom i = streamValues visit.brought visit.ended)

/-- Connections lead to the endpoints of their tokens, and all that arrives comes from them. -/
structure Orderly (w : Reception F) : Prop where
  counts : w.scene.session.Counts "port-"
  owned : Owned w.scene.session.callbacks w.scene.busy
  coursing : Coursing w.scene.session.callbacks w.scene.history
  known : ∀ visit ∈ w.visits, visit.endpoint < w.scene.session.board.length ∧
    visit.token = numbered "port-" visit.endpoint
  inlets : ∀ visit ∈ w.visits, visit.inlet.Holds visit.brought
  named : ∀ entry ∈ w.received, entry.1 < w.visits.length
  answers : ∀ (i : Nat) (visit : Visit), w.visits[i]? = some visit → w.Answers i visit
  arrived : ∀ e, arrivals w.scene.history e = w.receivedAt e

theorem orderly_start (settings : Settings) (host : Wire.WiredHost) :
    (start settings host : Reception F).Orderly where
  counts := .start rfl
  owned := Scene.owned_start ..
  coursing := Scene.coursing_start ..
  known := by simp [start]
  inlets := by simp [start]
  named := by simp [start]
  answers := by simp [start]
  arrived _ := rfl

namespace Orderly

theorem inside (h : w.Orderly) (behave : Behaviour F) {move : Move F}
    (hmove : move.isIndoors w.scene.session.host = true) :
    Orderly { w with scene := w.scene.act behave move } where
  counts := Scene.counts_act behave h.counts hmove
  owned := Scene.owned_of_moved h.owned (Scene.moved_act h.owned move)
  coursing := Scene.coursing_of_moved h.coursing h.owned (Scene.moved_act h.owned move)
  known visit hvisit := by
    obtain ⟨hlt, htoken⟩ := h.known visit hvisit
    exact ⟨Nat.lt_of_lt_of_le hlt
      (Scene.length_of_moved h.owned (Scene.moved_act h.owned move)), htoken⟩
  inlets := h.inlets
  named := h.named
  answers i visit hvisit := by
    obtain ⟨hsofar, hall⟩ := h.answers i visit hvisit
    refine ⟨hsofar, fun hopen => hall ?_⟩
    -- an endpoint that is open after the move was open before
    cases hbefore : w.scene.session.board.isOpen visit.endpoint with
    | true => rfl
    | false =>
      have hlt := (h.known visit (List.mem_of_getElem? hvisit)).1
      have hclosed := (Scene.deaf_act behave h.coursing hlt hbefore move).closed.isOpen
      exact absurd hopen (by rw [Bool.not_eq_true]; exact hclosed)
  arrived e := by
    have hcalm : move.isOfHost = false := by
      cases move with
      | fire | hangUp => cases hmove
      | _ => rfl
    exact (Scene.arrivals_act behave hcalm e).trans (h.arrived e)

theorem connect (h : w.Orderly) {token : String} {e : EndpointId}
    (hfound : w.scene.session.board.find token = some e)
    (hopen : w.scene.session.board.isOpen e = true) :
    Orderly { w with visits := w.visits ++ [{ endpoint := e, token := token }] } where
  counts := h.counts
  owned := h.owned
  coursing := h.coursing
  known visit hvisit := by
    rcases List.mem_append.mp hvisit with hvisit | hvisit
    · exact h.known visit hvisit
    · rw [List.mem_singleton.mp hvisit]
      exact ⟨Board.lt_length_of_isOpen hopen, (h.counts.board.find_eq_some_iff.mp hfound).1⟩
  inlets visit hvisit := by
    rcases List.mem_append.mp hvisit with hvisit | hvisit
    · exact h.inlets visit hvisit
    · rw [List.mem_singleton.mp hvisit]
      exact Wire.Inlet.holds_nothing
  named entry hentry := by
    rw [List.length_append]
    exact Nat.lt_of_lt_of_le (h.named entry hentry) (Nat.le_add_right ..)
  answers i visit hvisit := by
    rw [List.getElem?_append] at hvisit
    split at hvisit
    · exact h.answers i visit hvisit
    · rename_i hi
      obtain ⟨-, rfl⟩ : i - w.visits.length = 0 ∧
          ({ endpoint := e, token := token } : Visit) = visit := by
        simpa [List.getElem?_singleton] using hvisit
      have hnone : w.receivedFrom i = [] := by
        rw [receivedFrom, List.filter_eq_nil_iff.mpr, List.map_nil]
        intro entry hentry heq
        exact hi (of_decide_eq_true heq ▸ h.named entry hentry)
      exact ⟨hnone ▸ List.nil_prefix, fun _ => hnone⟩
  arrived e' := by
    rw [h.arrived, receivedAt, receivedAt]
    refine congrArg _ (List.filter_congr fun entry hentry => ?_)
    simp only [leadsTo]
    rw [List.getElem?_append_left (h.named entry hentry)]

/-- Whatever moves a scene makes, endpoints keep their owners and operations their courses. -/
theorem kept (behave : Behaviour F) (h : w.Orderly) (moves : List (Move F)) :
    Owned (w.scene.run behave moves).session.callbacks (w.scene.run behave moves).busy ∧
      Coursing (w.scene.run behave moves).session.callbacks (w.scene.run behave moves).history :=
  Scene.run_induction
    (P := fun w => Owned w.session.callbacks w.busy ∧ Coursing w.session.callbacks w.history)
    ⟨h.owned, h.coursing⟩
    (fun _ move hw => ⟨Scene.owned_of_moved hw.1 (Scene.moved_act hw.1 move),
      Scene.coursing_of_moved hw.2 hw.1 (Scene.moved_act hw.1 move)⟩) moves

/-- A connection goes on: it hands over what its stream delivers beyond what it did before. -/
theorem deliver (behave : Behaviour F) (h : w.Orderly) {visit : Visit} (next : Visit)
    {values : List Json}
    (hvisit : w.visits[i]? = some visit) (hendpoint : next.endpoint = visit.endpoint)
    (htoken : next.token = visit.token) (hinlet : next.inlet.Holds next.brought)
    (hmore : streamValues next.brought next.ended =
      streamValues visit.brought visit.ended ++ values) :
    Orderly (Reception.deliver { w with visits := w.visits.set i next } i visit.token values) := by
  obtain ⟨hlt, hnumber⟩ := h.known visit (List.mem_of_getElem? hvisit)
  have hi : i < w.visits.length := (List.getElem?_eq_some_iff.mp hvisit).1
  generalize hmiddle : ({ w with visits := w.visits.set i next } : Reception F) = middle
  obtain ⟨hscene, hreceived, hvisits⟩ : middle.scene = w.scene ∧ middle.received = w.received ∧
      middle.visits = w.visits.set i next := by simp [← hmiddle]
  have hget : ∀ j, middle.visits[j]? = if i = j then some next else w.visits[j]? := fun j => by
    rw [hvisits, List.getElem?_set, if_pos hi]
  have hleads : ∀ e j, middle.leadsTo e j = w.leadsTo e j := fun e j => by
    rw [leadsTo, leadsTo, hget]
    split
    · rename_i hij
      rw [← hij, hvisit, Option.map_some, Option.map_some, hendpoint]
    · rfl
  have hdelivered := delivered_deliver (hscene ▸ h.counts) i visit.endpoint values
  have hrun := deliver_scene behave middle i visit.token values
  have hkept := h.kept behave (values.map (.fire visit.token))
  rw [← hnumber, hscene] at hdelivered
  rw [hscene] at hrun
  rw [← hrun] at hkept
  generalize middle.deliver i visit.token values = w' at hdelivered hkept
  have hopen : ∀ e, w'.scene.session.board.isOpen e = w.scene.session.board.isOpen e := fun e => by
    rw [hdelivered.isOpen, hscene]
  exact
    { counts := hdelivered.counts (hscene ▸ h.counts)
      owned := hkept.1
      coursing := hkept.2
      known := fun other hother => by
        rw [hdelivered.length, hscene]
        rw [hdelivered.visits, hvisits] at hother
        rcases List.mem_or_eq_of_mem_set hother with hother | rfl
        · exact h.known other hother
        · rw [hendpoint, htoken]
          exact ⟨hlt, hnumber⟩
      inlets := fun other hother => by
        rw [hdelivered.visits, hvisits] at hother
        rcases List.mem_or_eq_of_mem_set hother with hother | rfl
        · exact h.inlets other hother
        · exact hinlet
      named := fun entry hentry => by
        rw [hdelivered.visits, hvisits, List.length_set]
        rw [hdelivered.received, hreceived] at hentry
        rcases List.mem_append.mp hentry with hentry | hentry
        · exact h.named entry hentry
        · obtain ⟨value, -, rfl⟩ := List.mem_map.mp hentry
          exact hi
      answers := fun j other hother => by
        rw [hdelivered.visits, hget] at hother
        have hbefore : middle.receivedFrom j = w.receivedFrom j := by
          rw [receivedFrom, receivedFrom, hreceived]
        rw [Answers, hdelivered.receivedFrom, hbefore, hopen]
        by_cases hij : i = j
        · subst hij
          rw [if_pos rfl] at hother ⊢
          cases hother
          obtain ⟨hsofar, hall⟩ := h.answers i visit hvisit
          rw [hendpoint, hmore]
          split
          · rename_i hlistens
            rw [hall hlistens]
            exact ⟨List.prefix_rfl, fun _ => rfl⟩
          · rename_i hdeaf
            rw [List.append_nil]
            exact ⟨hsofar.trans (List.prefix_append ..), fun hlistens => absurd hlistens hdeaf⟩
        · rw [if_neg hij] at hother ⊢
          rw [List.append_nil]
          exact h.answers j other hother
      arrived := fun e => by
        have hbefore : middle.receivedAt e = w.receivedAt e := by
          rw [receivedAt, receivedAt, hreceived, funext (hleads e)]
        rw [hdelivered.history, hscene, arrivals_append, h.arrived, hdelivered.receivedAt, hbefore,
          hleads, leadsTo, hvisit, Option.map_some]
        refine congrArg (w.receivedAt e ++ ·) ?_
        by_cases he : visit.endpoint = e <;> simp [he, arrivals] }

theorem act (behave : Behaviour F) (h : w.Orderly) (move : ReceptionMove F) :
    (w.act behave move).Orderly := by
  have going : ∀ {i : Nat} {f : Visit → Reception F}, (∀ visit, w.visits[i]? = some visit →
      visit.ended = false → (f visit).Orderly) → (w.withVisit i f).Orderly := by
    intro i f hf
    unfold withVisit
    split
    · rename_i visit hvisit
      split
      · exact h
      · rename_i hended
        exact hf visit hvisit (by simpa using hended)
    · exact h
  cases move with
  | inside move =>
    simp only [Reception.act]
    split
    · rename_i hmove
      exact h.inside behave hmove
    · exact h
  | connect token =>
    simp only [Reception.act]
    split
    · rename_i e hfound
      split
      · rename_i hopen
        exact h.connect hfound hopen
      · exact h
    · exact h
  | bring i chunk =>
    refine going fun visit hvisit hended => ?_
    obtain ⟨hholds, hvalues⟩ := (h.inlets visit (List.mem_of_getElem? hvisit)).feed chunk
    have hmore : streamValues (visit.brought ++ chunk) visit.ended =
        streamValues visit.brought visit.ended ++ (visit.inlet.feed chunk).1 := by
      rw [hended]
      exact hvalues
    have hdone := h.deliver behave { visit with
      brought := visit.brought ++ chunk, inlet := (visit.inlet.feed chunk).2 } hvisit rfl rfl
        hholds hmore
    exact hdone
  | hangUp i =>
    refine going fun visit hvisit hended => ?_
    have hholds := h.inlets visit (List.mem_of_getElem? hvisit)
    have hmore : streamValues visit.brought true =
        streamValues visit.brought visit.ended ++ visit.inlet.finish := by
      rw [hended]
      exact hholds.finish
    exact h.deliver behave { visit with ended := true } hvisit rfl rfl hholds hmore

theorem run (behave : Behaviour F) (h : w.Orderly) (moves : List (ReceptionMove F)) :
    (w.run behave moves).Orderly := by
  induction moves generalizing w with
  | nil => exact h
  | cons move moves ih => exact ih (h.act behave move)

end Orderly

/-! ## Every move -/

theorem act_scene (behave : Behaviour F) (w : Reception F) (move : ReceptionMove F) :
    ∃ moves, (w.act behave move).scene = w.scene.run behave moves := by
  have none : ∃ moves, w.scene = w.scene.run behave moves := ⟨[], rfl⟩
  have going : ∀ {i : Nat} {f : Visit → Reception F},
      (∀ visit, ∃ moves, (f visit).scene = w.scene.run behave moves) →
      ∃ moves, (w.withVisit i f).scene = w.scene.run behave moves := by
    intro i f hf
    unfold withVisit
    split
    · split
      · exact none
      · exact hf _
    · exact none
  cases move with
  | inside move =>
    simp only [act]
    split
    · exact ⟨[move], rfl⟩
    · exact none
  | connect token =>
    simp only [act]
    split
    · split <;> exact none
    · exact none
  | bring i chunk => exact going fun visit => ⟨_, deliver_scene behave _ i visit.token _⟩
  | hangUp i => exact going fun visit => ⟨_, deliver_scene behave _ i visit.token _⟩

theorem run_scene (behave : Behaviour F) (w : Reception F) (moves : List (ReceptionMove F)) :
    ∃ inner, (w.run behave moves).scene = w.scene.run behave inner := by
  induction moves generalizing w with
  | nil => exact ⟨[], rfl⟩
  | cons move moves ih =>
    obtain ⟨first, hfirst⟩ := act_scene behave w move
    obtain ⟨later, hlater⟩ := ih (w.act behave move)
    refine ⟨first ++ later, hlater.trans ?_⟩
    rw [hfirst, Scene.run_append]

/-- What the connections to a session's endpoints come to. -/
structure Faithful (behave : Behaviour F) (w : Reception F) : Prop where
  /-- From every connection exactly the values of its lines are received, each once and in order, as
  long as its endpoint is open. -/
  exactly : ∀ (i : Nat) (visit : Visit), w.visits[i]? = some visit →
    w.scene.session.board.isOpen visit.endpoint = true →
      w.receivedFrom i = streamValues visit.brought visit.ended
  /-- Where the endpoint was closed meanwhile, they are received up to then. -/
  sofar : ∀ (i : Nat) (visit : Visit), w.visits[i]? = some visit →
    w.receivedFrom i <+: streamValues visit.brought visit.ended
  /-- What arrived at an endpoint is what its connections delivered. -/
  arrived : ∀ e, arrivals w.scene.history e = w.receivedAt e
  taken : ∀ e, takings w.scene.history e <+: arrivals w.scene.history e
  /-- After an endpoint is closed nothing arrives there, and its operation receives nothing more. -/
  closed : ∀ e < w.scene.session.board.length, w.scene.session.board.isOpen e = false →
    ∀ moves, arrivals (w.run behave moves).scene.history e = arrivals w.scene.history e ∧
      takings (w.run behave moves).scene.history e = takings w.scene.history e

/-- However many connections bring whatever bytes in whatever chunks, while anything else happens in
the session: each delivers exactly the values of its own lines. -/
theorem faithful_run (behave : Behaviour F) (settings : Settings) (host : Wire.WiredHost)
    (moves : List (ReceptionMove F)) :
    Faithful behave ((start settings host).run behave moves) := by
  have h := (orderly_start (F := F) settings host).run behave moves
  generalize (start settings host : Reception F).run behave moves = w at h ⊢
  refine ⟨fun i visit hvisit => (h.answers i visit hvisit).2,
    fun i visit hvisit => (h.answers i visit hvisit).1, h.arrived, fun e => ?_,
    fun e he hclosed moves => ?_⟩
  · exact ⟨_, (h.coursing.queued e).symm⟩
  · obtain ⟨inner, hinner⟩ := run_scene behave w moves
    have hdeaf := Scene.deaf_run behave h.owned h.coursing he hclosed inner
    rw [hinner]
    exact ⟨hdeaf.arrivals, hdeaf.takings⟩

/-! ## Whole connections -/

/-- A session after the endpoint of a token was handed some values. -/
def handed (s : Session F) (token : String) (values : List Json) : Session F :=
  values.foldl (fun s value => (s.fire token value).2) s

theorem handed_append (s : Session F) (token : String) (values more : List Json) :
    handed s token (values ++ more) = handed (handed s token values) token more :=
  List.foldl_append

theorem deliver_session (w : Reception F) (i : Nat) (token : String) (values : List Json) :
    (w.deliver i token values).scene.session = handed w.scene.session token values := by
  induction values generalizing w with
  | nil => rfl
  | cons value values ih => exact ih (w.hand i token value)

theorem connect_eq {s : Session F} {token : String} {e : EndpointId}
    (hfound : s.board.find token = some e) (hopen : s.board.isOpen e = true)
    (bytes : List UInt8) :
    s.connect token bytes = (true, handed s token (streamValues bytes true)) := by
  obtain ⟨hholds, hvalues⟩ := Wire.Inlet.holds_nothing.feed bytes
  rw [List.nil_append] at hholds hvalues
  rw [Session.connect, hfound, Option.map_some, hopen, hholds.finish, hvalues]
  rfl

theorem act_bring (behave : Behaviour F) {w : Reception F} {i : Nat} {visit : Visit}
    (hvisit : w.visits[i]? = some visit) (hended : visit.ended = false) (chunk : List UInt8) :
    w.act behave (.bring i chunk) = deliver { w with visits := w.visits.set i { visit with
      brought := visit.brought ++ chunk, inlet := (visit.inlet.feed chunk).2 } } i visit.token
        (visit.inlet.feed chunk).1 := by
  simp only [act, withVisit, hvisit, hended, Bool.false_eq_true, if_false]

theorem act_hangUp (behave : Behaviour F) {w : Reception F} {i : Nat} {visit : Visit}
    (hvisit : w.visits[i]? = some visit) (hended : visit.ended = false) :
    w.act behave (.hangUp i) = deliver { w with visits := w.visits.set i { visit with
      ended := true } } i visit.token visit.inlet.finish := by
  simp only [act, withVisit, hvisit, hended, Bool.false_eq_true, if_false]

/-- A connection that goes on hands over what its chunks deliver. -/
theorem bring_all (behave : Behaviour F) {w : Reception F} {i : Nat} {visit : Visit}
    (hvisit : w.visits[i]? = some visit) (hended : visit.ended = false)
    (hholds : visit.inlet.Holds visit.brought) (chunks : List (List UInt8)) :
    ∃ (next : Visit) (values : List Json),
      (w.run behave (chunks.map (.bring i))).visits[i]? = some next ∧
      next.ended = false ∧ next.token = visit.token ∧
      next.brought = visit.brought ++ chunks.flatten ∧ next.inlet.Holds next.brought ∧
      streamValues next.brought false = streamValues visit.brought false ++ values ∧
      (w.run behave (chunks.map (.bring i))).scene.session =
        handed w.scene.session visit.token values := by
  induction chunks generalizing w visit with
  | nil => exact ⟨visit, [], hvisit, hended, rfl, by simp, hholds, by simp, rfl⟩
  | cons chunk chunks ih =>
    have hact := act_bring behave hvisit hended chunk
    obtain ⟨hfed, hvalues⟩ := hholds.feed chunk
    have hgot : (w.act behave (.bring i chunk)).visits[i]? = some { visit with
        brought := visit.brought ++ chunk, inlet := (visit.inlet.feed chunk).2 } := by
      rw [hact, deliver_visits]
      exact List.getElem?_set_self (List.getElem?_eq_some_iff.mp hvisit).1
    obtain ⟨next, values, hnext, hgoing, htoken, hbrought, hinlet, hmore, hsession⟩ :=
      ih hgot hended hfed
    refine ⟨next, (visit.inlet.feed chunk).1 ++ values, hnext, hgoing, htoken, ?_, hinlet, ?_, ?_⟩
    · rw [hbrought, List.flatten_cons, List.append_assoc]
    · rw [hmore, hvalues, List.append_assoc]
    · refine hsession.trans ?_
      rw [hact, deliver_session, handed_append]

/-- What a connection does to the session does not depend on how its bytes are cut into chunks, as
long as nothing else happens. -/
theorem visit_whole (behave : Behaviour F) {w : Reception F} {token : String} {e : EndpointId}
    (hfound : w.scene.session.board.find token = some e)
    (hopen : w.scene.session.board.isOpen e = true) (chunks : List (List UInt8)) :
    (w.run behave (.connect token :: (chunks.map (.bring w.visits.length) ++
      [.hangUp w.visits.length]))).scene.session =
        (w.scene.session.connect token chunks.flatten).2 := by
  have hconnect : w.act behave (.connect token) =
      { w with visits := w.visits ++ [{ endpoint := e, token := token }] } := by
    simp [act, hfound, hopen]
  have hvisit : (w.act behave (.connect token)).visits[w.visits.length]? =
      some { endpoint := e, token := token } := by simp [hconnect]
  obtain ⟨next, values, hnext, hgoing, htoken, hbrought, hinlet, hvalues, hsession⟩ :=
    bring_all behave hvisit rfl Wire.Inlet.holds_nothing chunks
  have hall : values ++ next.inlet.finish = streamValues chunks.flatten true := by
    have hend := hinlet.finish
    rw [hvalues, hbrought] at hend
    exact hend.symm
  calc (w.run behave _).scene.session
      = (((w.act behave (.connect token)).run behave
          (chunks.map (.bring w.visits.length))).act behave
            (.hangUp w.visits.length)).scene.session := by
        rw [run, List.foldl_cons, List.foldl_append]
        rfl
    _ = handed w.scene.session token (values ++ next.inlet.finish) := by
        rw [act_hangUp behave hnext hgoing, deliver_session, htoken, handed_append]
        refine congrArg (handed · token next.inlet.finish) (hsession.trans ?_)
        rw [hconnect]
    _ = (w.scene.session.connect token chunks.flatten).2 := by
        rw [hall, connect_eq hfound hopen]

end Reception

end RemoteHost
