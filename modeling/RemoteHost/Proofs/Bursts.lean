import RemoteHost.Proofs.ArrivalLines

/-!
# Bursts

The host sends to an operation in bursts, and after each of them the operation runs until it has to
wait. What it comes to can be told from the bursts alone: the payloads of a burst are answered slot
by slot, up to the first one for a one-shot slot, and those that are refused play no part in it.
-/

namespace RemoteHost

variable {F : Type}

/-- What the host does at the endpoint of a slot. -/
inductive Signal where
  | payload (slot : Nat) (payload : Json)
  | hangUp (slot : Nat)

def Signal.slot : Signal → Nat
  | .payload slot _ | .hangUp slot => slot

/-- The payloads of a burst that are received. Nothing arrives at slots that are gone. -/
def received : List Nat → List Signal → List (Nat × Json)
  | _, [] => []
  | gone, .payload slot payload :: later =>
    if slot ∈ gone then received gone later else (slot, payload) :: received gone later
  | gone, .hangUp slot :: later => received (slot :: gone) later

theorem received_payload (gone : List Nat) (slot : Nat) (payload : Json) (later : List Signal) :
    received gone (.payload slot payload :: later) =
      if slot ∈ gone then received gone later else (slot, payload) :: received gone later := rfl

/-- The slots that are gone after a burst. -/
def goneAfter : List Nat → List Signal → List Nat
  | gone, [] => gone
  | gone, .payload _ _ :: later => goneAfter gone later
  | gone, .hangUp slot :: later => goneAfter (slot :: gone) later

theorem received_append_burst (gone : List Nat) (burst later : List Signal) :
    received gone (burst ++ later) = received gone burst ++ received (goneAfter gone burst) later := by
  induction burst generalizing gone with
  | nil => rfl
  | cons signal burst ih =>
    cases signal with
    | payload slot payload =>
      rw [List.cons_append, received_payload, received_payload, goneAfter, ih]
      split <;> rfl
    | hangUp slot => exact ih (slot :: gone)

theorem goneAfter_append (gone : List Nat) (burst later : List Signal) :
    goneAfter gone (burst ++ later) = goneAfter (goneAfter gone burst) later := by
  induction burst generalizing gone with
  | nil => rfl
  | cons signal burst ih => cases signal <;> exact ih _

/-! ## Calls to come -/

/-- The calls that waiting payloads are to lead to, slot by slot. -/
def inLine (lanes : List (Slot F × EndpointId)) (inboxes : Nat → List Json) :
    List (Nat × Outcome) :=
  (List.range lanes.length).flatMap fun slot =>
    (inboxes slot).filterMap fun payload => callFor lanes (slot, payload)

/-- What comes first of all slots is what comes first of the lowest slot that has anything. -/
theorem flatMap_range_lowest {α : Type} {n slot : Nat} {f f' : Nat → List α} {first : List α}
    (hslot : slot < n) (hlower : ∀ i < slot, f i = []) (hfirst : f slot = first ++ f' slot)
    (hothers : ∀ i, i ≠ slot → f' i = f i) :
    (List.range n).flatMap f = first ++ (List.range n).flatMap f' := by
  induction n with
  | zero => cases hslot
  | succ n ih =>
    rw [List.range_succ, List.flatMap_append, List.flatMap_append, List.flatMap_singleton,
      List.flatMap_singleton]
    rcases Nat.lt_or_ge slot n with hlt | hge
    · rw [ih hlt, hothers n (Nat.ne_of_gt hlt), List.append_assoc]
    · obtain rfl : slot = n := by omega
      have hnothing : (List.range slot).flatMap f = [] :=
        List.flatMap_eq_nil_iff.mpr fun i hi => hlower i (List.mem_range.mp hi)
      have hnothing' : (List.range slot).flatMap f' = [] :=
        List.flatMap_eq_nil_iff.mpr fun i hi => by
          rw [hothers i (Nat.ne_of_lt (List.mem_range.mp hi))]
          exact hlower i (List.mem_range.mp hi)
      rw [hnothing, hnothing', hfirst, List.nil_append, List.nil_append]

variable {lanes : List (Slot F × EndpointId)} {inboxes inboxes' : Nat → List Json}

theorem inLine_congr (h : ∀ slot < lanes.length, inboxes' slot = inboxes slot) :
    inLine lanes inboxes' = inLine lanes inboxes := by
  unfold inLine
  simp only [List.flatMap_def]
  refine congrArg List.flatten (List.map_congr_left fun slot hslot => ?_)
  rw [h slot (List.mem_range.mp hslot)]

theorem inLine_eq_nil (h : ∀ slot < lanes.length, inboxes slot = []) : inLine lanes inboxes = [] :=
  List.flatMap_eq_nil_iff.mpr fun slot hslot => by rw [h slot (List.mem_range.mp hslot)]; rfl

/-- A payload that waits for the lowest slot is the next to be taken. -/
theorem inLine_lowest {slot : Nat} {payload : Json} (hslot : slot < lanes.length)
    (hlower : ∀ i < slot, inboxes i = []) (hfirst : inboxes slot = payload :: inboxes' slot)
    (hothers : ∀ i, i ≠ slot → inboxes' i = inboxes i) :
    inLine lanes inboxes = (callFor lanes (slot, payload)).toList ++ inLine lanes inboxes' := by
  refine flatMap_range_lowest hslot (fun i hi => by rw [hlower i hi]; rfl) ?_
    fun i hi => by rw [hothers i hi]
  rw [hfirst]
  cases hcall : callFor lanes (slot, payload) <;> simp [hcall]

theorem fst_of_callFor {posting : Nat × Json} {call : Nat × Outcome}
    (h : callFor lanes posting = some call) : call.1 = posting.1 := by
  obtain ⟨lane, -, hlane⟩ := Option.bind_eq_some_iff.mp h
  obtain ⟨outcome, -, rfl⟩ := Option.map_eq_some_iff.mp hlane
  rfl

theorem filterMap_waitingFor (lanes : List (Slot F × EndpointId)) (slot : Nat)
    (waiting : List (Nat × Json)) :
    (waitingFor slot waiting).filterMap (fun payload => callFor lanes (slot, payload)) =
      (waiting.filterMap (callFor lanes)).filter (·.1 = slot) := by
  induction waiting with
  | nil => rfl
  | cons posting waiting ih =>
    rw [← List.singleton_append, waitingFor_append, List.filterMap_append, ih,
      List.filterMap_append, List.filter_append]
    congr 1
    by_cases heq : posting.1 = slot
    · subst heq
      cases hcall : callFor lanes posting with
      | none => simp [waitingFor, hcall]
      | some call => simp [waitingFor, hcall, fst_of_callFor hcall]
    · cases hcall : callFor lanes posting with
      | none => simp [waitingFor, heq, hcall]
      | some call => simp [waitingFor, heq, hcall, fst_of_callFor hcall]

/-- Only payloads that are to lead to calls count. -/
theorem inLine_waitingFor (lanes : List (Slot F × EndpointId)) (waiting : List (Nat × Json)) :
    inLine lanes (waitingFor · waiting) = (List.range lanes.length).flatMap fun slot =>
      (waiting.filterMap (callFor lanes)).filter (·.1 = slot) := by
  simp only [inLine, filterMap_waitingFor]

/-! ## Up to the first one-shot call -/

instance (slots : List (Slot F)) (slot : Nat) (cardinality : Cardinality) :
    Decidable (hasCardinality slots slot cardinality) :=
  inferInstanceAs (Decidable (_ = _))

/-- Calls up to the first one of a one-shot slot. -/
def upToOneShot (slots : List (Slot F)) : List (Nat × Outcome) → List (Nat × Outcome)
  | [] => []
  | call :: later =>
    if hasCardinality slots call.1 .oneShot then [call] else call :: upToOneShot slots later

/-- How an operation ends that is to make these calls, and whose other slots are these. -/
def endingAfter (lanes : List (Slot F × EndpointId)) (calls : List (Nat × Outcome))
    (gone : List Nat) : Option Ending :=
  if ∃ call ∈ calls, hasCardinality (lanes.map (·.1)) call.1 .oneShot then some .oneShotFired
  else if ∀ slot < lanes.length, slot ∈ gone then some .endpointsClosed
  else none

section UpToOneShot

variable {slots : List (Slot F)} {earlier later : List (Nat × Outcome)} {call : Nat × Outcome}
  {gone : List Nat}

theorem not_oneShot {slot : Nat} (h : hasCardinality slots slot .repeatable) :
    ¬hasCardinality slots slot .oneShot := by
  rw [hasCardinality, h]
  simp

theorem upToOneShot_eq_self (h : ∀ call ∈ earlier, ¬hasCardinality slots call.1 .oneShot) :
    upToOneShot slots earlier = earlier := by
  induction earlier with
  | nil => rfl
  | cons first earlier ih =>
    rw [upToOneShot, if_neg (h first List.mem_cons_self),
      ih fun call hcall => h call (List.mem_cons_of_mem _ hcall)]

theorem upToOneShot_of_oneShot (h : ∀ call ∈ earlier, ¬hasCardinality slots call.1 .oneShot)
    (hcall : hasCardinality slots call.1 .oneShot) :
    upToOneShot slots (earlier ++ call :: later) = earlier ++ [call] := by
  induction earlier with
  | nil => exact if_pos hcall
  | cons first earlier ih =>
    rw [List.cons_append, upToOneShot, if_neg (h first List.mem_cons_self),
      ih fun call hcall => h call (List.mem_cons_of_mem _ hcall)]
    rfl

theorem endingAfter_oneShot (hmem : call ∈ earlier)
    (hcall : hasCardinality (lanes.map (·.1)) call.1 .oneShot) :
    endingAfter lanes earlier gone = some .oneShotFired :=
  if_pos ⟨call, hmem, hcall⟩

theorem endingAfter_gone
    (h : ∀ call ∈ earlier, ¬hasCardinality (lanes.map (·.1)) call.1 .oneShot)
    (hgone : ∀ slot < lanes.length, slot ∈ gone) :
    endingAfter lanes earlier gone = some .endpointsClosed := by
  rw [endingAfter, if_neg fun ⟨call, hmem, hcall⟩ => h call hmem hcall, if_pos hgone]

theorem endingAfter_eq_none
    (h : ∀ call ∈ earlier, ¬hasCardinality (lanes.map (·.1)) call.1 .oneShot) {slot : Nat}
    (hslot : slot < lanes.length) (hleft : slot ∉ gone) :
    endingAfter lanes earlier gone = none := by
  rw [endingAfter, if_neg fun ⟨call, hmem, hcall⟩ => h call hmem hcall,
    if_neg fun hgone => hleft (hgone slot hslot)]

theorem endingAfter_cases (lanes : List (Slot F × EndpointId)) (calls : List (Nat × Outcome))
    (gone : List Nat) : endingAfter lanes calls gone = some .oneShotFired ∨
      (∀ call ∈ calls, ¬hasCardinality (lanes.map (·.1)) call.1 .oneShot) ∧
        (endingAfter lanes calls gone = some .endpointsClosed ∧
          (∀ slot < lanes.length, slot ∈ gone) ∨ endingAfter lanes calls gone = none) := by
  unfold endingAfter
  split
  · exact .inl rfl
  · rename_i hnone
    refine .inr ⟨fun call hmem hcall => hnone ⟨call, hmem, hcall⟩, ?_⟩
    split
    · rename_i hgone
      exact .inl ⟨rfl, hgone⟩
    · exact .inr rfl

end UpToOneShot

/-! ## What an operation comes to -/

/-- What an operation has come to. -/
structure Tally where
  calls : List (Nat × Outcome) := []
  /-- The slots that the host has let go of. -/
  gone : List Nat := []
  ending : Option Ending := none

/-- What an operation comes to when it has run after one more burst. -/
def Tally.after (lanes : List (Slot F × EndpointId)) (tally : Tally) (burst : List Signal) :
    Tally :=
  match tally.ending with
  | some _ => tally
  | none =>
    let due := tally.calls ++ inLine lanes (waitingFor · (received tally.gone burst))
    let gone := goneAfter tally.gone burst
    ⟨upToOneShot (lanes.map (·.1)) due, gone, endingAfter lanes due gone⟩

theorem Tally.after_of_running {tally : Tally} (h : tally.ending = none) (burst : List Signal) :
    tally.after lanes burst =
      ⟨upToOneShot (lanes.map (·.1))
        (tally.calls ++ inLine lanes (waitingFor · (received tally.gone burst))),
      goneAfter tally.gone burst,
      endingAfter lanes (tally.calls ++ inLine lanes (waitingFor · (received tally.gone burst)))
        (goneAfter tally.gone burst)⟩ := by
  rw [Tally.after, h]

def tallyOf (lanes : List (Slot F × EndpointId)) (bursts : List (List Signal)) : Tally :=
  bursts.foldl (Tally.after lanes) {}

/-! ## What is delivered -/

theorem perm_flatMap_filter (calls : List (Nat × Outcome)) (n : Nat) :
    ((List.range n).flatMap fun slot => calls.filter (·.1 = slot)).Perm
      (calls.filter (·.1 < n)) := by
  induction n with
  | zero => simp
  | succ n ih =>
    rw [List.range_succ, List.flatMap_append, List.flatMap_singleton]
    have hsplit := List.filter_append_perm (fun call : Nat × Outcome => decide (call.1 < n))
      (calls.filter (·.1 < n + 1))
    rw [List.filter_filter, List.filter_filter] at hsplit
    have hlower : ∀ call : Nat × Outcome,
        (decide (call.1 < n) && decide (call.1 < n + 1)) = decide (call.1 < n) := fun call => by
      rw [← Bool.decide_and]
      exact decide_eq_decide.mpr (by omega)
    have hlast : ∀ call : Nat × Outcome,
        (!decide (call.1 < n) && decide (call.1 < n + 1)) = decide (call.1 = n) := fun call => by
      rw [← decide_not, ← Bool.decide_and]
      exact decide_eq_decide.mpr (by omega)
    simp only [hlower, hlast] at hsplit
    exact (ih.append_right _).trans hsplit

/-- To answer slot by slot leaves nothing out. -/
theorem inLine_perm (lanes : List (Slot F × EndpointId)) (waiting : List (Nat × Json)) :
    (inLine lanes (waitingFor · waiting)).Perm (waiting.filterMap (callFor lanes)) := by
  rw [inLine_waitingFor]
  have hall : (waiting.filterMap (callFor lanes)).filter (·.1 < lanes.length) =
      waiting.filterMap (callFor lanes) := by
    refine List.filter_eq_self.mpr fun call hcall => decide_eq_true ?_
    obtain ⟨posting, -, hposting⟩ := List.mem_filterMap.mp hcall
    obtain ⟨lane, hlane, -⟩ := Option.bind_eq_some_iff.mp hposting
    rw [fst_of_callFor hposting]
    exact (List.getElem?_eq_some_iff.mp hlane).1
  have hperm := perm_flatMap_filter (waiting.filterMap (callFor lanes)) lanes.length
  rwa [hall] at hperm

theorem received_of_gone {gone : List Nat} (h : ∀ slot < lanes.length, slot ∈ gone)
    (burst : List Signal) : (received gone burst).filterMap (callFor lanes) = [] := by
  induction burst generalizing gone with
  | nil => rfl
  | cons signal burst ih =>
    cases signal with
    | payload slot payload =>
      rw [received_payload]
      split
      · exact ih h
      · rename_i hleft
        have hnone : callFor lanes (slot, payload) = none := by
          have hlane : lanes[slot]? = none :=
            List.getElem?_eq_none (Nat.le_of_not_lt fun hlt => hleft (h slot hlt))
          simp [callFor, hlane]
        rw [List.filterMap_cons, hnone]
        exact ih h
    | hangUp slot => exact ih fun i hi => List.mem_cons_of_mem _ (h i hi)

theorem foldl_after_of_ended {tally : Tally} {ending : Ending} (h : tally.ending = some ending)
    (bursts : List (List Signal)) : bursts.foldl (Tally.after lanes) tally = tally := by
  induction bursts with
  | nil => rfl
  | cons burst bursts ih =>
    rw [List.foldl_cons, Tally.after, h]
    exact ih

theorem foldl_after_calls_perm {bursts : List (List Signal)} {tally : Tally}
    (hopen : tally.ending = some .endpointsClosed ∧ (∀ slot < lanes.length, slot ∈ tally.gone) ∨
      tally.ending = none)
    (h : (bursts.foldl (Tally.after lanes) tally).ending ≠ some .oneShotFired) :
    (bursts.foldl (Tally.after lanes) tally).calls.Perm
      (tally.calls ++ (received tally.gone bursts.flatten).filterMap (callFor lanes)) := by
  induction bursts generalizing tally with
  | nil => simp [received]
  | cons burst bursts ih =>
    rcases hopen with ⟨hclosed, hgone⟩ | hnone
    · rw [foldl_after_of_ended hclosed, received_of_gone hgone, List.append_nil]
    · rw [List.foldl_cons, Tally.after_of_running hnone] at h ⊢
      rcases endingAfter_cases lanes
          (tally.calls ++ inLine lanes (waitingFor · (received tally.gone burst)))
          (goneAfter tally.gone burst) with hfired | ⟨hrepeatable, hending⟩
      · rw [hfired, foldl_after_of_ended rfl] at h
        exact absurd rfl h
      · rw [upToOneShot_eq_self hrepeatable] at h ⊢
        refine (ih hending h).trans ?_
        rw [List.flatten_cons, received_append_burst, List.filterMap_append, ← List.append_assoc]
        exact ((inLine_perm lanes _).append_left _).append_right _

/-- Unless a one-shot slot has fired, all that arrived and that a slot takes was delivered. -/
theorem tallyOf_calls_perm {bursts : List (List Signal)}
    (h : (tallyOf lanes bursts).ending ≠ some .oneShotFired) :
    (tallyOf lanes bursts).calls.Perm
      ((received [] bursts.flatten).filterMap (callFor lanes)) :=
  foldl_after_calls_perm (.inr rfl) h

/-! ## Refused payloads -/

/-- The ways in which a payload fails to be one for a slot. -/
inductive Slot.Refuses (slot : Slot F) (payload : Json) : Prop where
  | noEnvelope {mismatch : Json.Mismatch} (hjson : Envelope.ofJson payload = .error mismatch)
  | errorEnvelope {message : String} (hjson : Envelope.ofJson payload = .ok (.error message))
  | misfit {envelope : Envelope} {outcome : Outcome} (hjson : Envelope.ofJson payload = .ok envelope)
      (houtcome : envelope.outcome = .ok outcome) (hshape : slot.payload.accepts outcome = false)

theorem Slot.refuses_iff {slot : Slot F} {payload : Json} :
    slot.Refuses payload ↔ slot.accepts? payload = none := by
  unfold Slot.accepts?
  constructor
  · rintro (hjson | hjson | ⟨hjson, houtcome, hshape⟩)
    · simp [hjson]
    · simp [hjson, Envelope.outcome]
    · simp [hjson, houtcome, hshape]
  · intro h
    cases hjson : Envelope.ofJson payload with
    | error mismatch => exact .noEnvelope hjson
    | ok envelope =>
      cases houtcome : envelope.outcome with
      | error message =>
        cases envelope with
        | error message => exact .errorEnvelope hjson
        | _ => cases houtcome
      | ok outcome => exact .misfit hjson houtcome (by simpa [hjson, houtcome] using h)

/-- A burst, and the same one with refused payloads put in anywhere. -/
inductive Padded (lanes : List (Slot F × EndpointId)) : List Signal → List Signal → Prop where
  | nil : Padded lanes [] []
  | kept {burst padded : List Signal} (signal : Signal) (h : Padded lanes burst padded) :
      Padded lanes (signal :: burst) (signal :: padded)
  | refused {burst padded : List Signal} {slot : Nat} {lane : Slot F × EndpointId} {payload : Json}
      (hlane : lanes[slot]? = some lane) (hrefused : lane.1.Refuses payload)
      (h : Padded lanes burst padded) : Padded lanes burst (.payload slot payload :: padded)

section Padded

variable {burst padded : List Signal} {slot : Nat} {lane : Slot F × EndpointId} {payload : Json}

theorem Padded.refl (lanes : List (Slot F × EndpointId)) (burst : List Signal) :
    Padded lanes burst burst := by
  induction burst with
  | nil => exact .nil
  | cons signal burst ih => exact .kept signal ih

theorem callFor_of_refused (hlane : lanes[slot]? = some lane) (hrefused : lane.1.Refuses payload) :
    callFor lanes (slot, payload) = none := by
  simp [callFor, hlane, Slot.refuses_iff.mp hrefused]

theorem Padded.slots (h : Padded lanes burst padded)
    (hslots : ∀ signal ∈ burst, signal.slot < lanes.length) :
    ∀ signal ∈ padded, signal.slot < lanes.length := by
  induction h with
  | nil => exact hslots
  | kept signal h ih =>
    obtain ⟨hfirst, hlater⟩ := List.forall_mem_cons.mp hslots
    exact List.forall_mem_cons.mpr ⟨hfirst, ih hlater⟩
  | refused hlane hrefused h ih =>
    exact List.forall_mem_cons.mpr ⟨(List.getElem?_eq_some_iff.mp hlane).1, ih hslots⟩

theorem Padded.goneAfter (h : Padded lanes burst padded) (gone : List Nat) :
    goneAfter gone padded = RemoteHost.goneAfter gone burst := by
  induction h generalizing gone with
  | nil => rfl
  | kept signal h ih => cases signal <;> exact ih _
  | refused hlane hrefused h ih => exact ih gone

theorem Padded.received (h : Padded lanes burst padded) (gone : List Nat) :
    (received gone padded).filterMap (callFor lanes) =
      (RemoteHost.received gone burst).filterMap (callFor lanes) := by
  induction h generalizing gone with
  | nil => rfl
  | kept signal h ih =>
    cases signal with
    | payload slot payload =>
      rw [received_payload, received_payload]
      split
      · exact ih gone
      · rw [List.filterMap_cons, List.filterMap_cons, ih gone]
    | hangUp slot => exact ih (slot :: gone)
  | refused hlane hrefused h ih =>
    rw [received_payload]
    split
    · exact ih gone
    · rw [List.filterMap_cons, callFor_of_refused hlane hrefused]
      exact ih gone

/-- Refused payloads are nothing that an operation comes to anything by. -/
theorem Padded.after (h : Padded lanes burst padded) (tally : Tally) :
    tally.after lanes padded = tally.after lanes burst := by
  have hdue : inLine lanes (waitingFor · (RemoteHost.received tally.gone padded)) =
      inLine lanes (waitingFor · (RemoteHost.received tally.gone burst)) := by
    rw [inLine_waitingFor, inLine_waitingFor, h.received]
  unfold Tally.after
  rw [hdue, h.goneAfter]

theorem tallyOf_padded {bursts padded : List (List Signal)}
    (h : List.Forall₂ (Padded lanes) bursts padded) : tallyOf lanes padded = tallyOf lanes bursts := by
  unfold tallyOf
  generalize ({} : Tally) = tally
  induction h generalizing tally with
  | nil => rfl
  | cons hburst h ih =>
    rw [List.foldl_cons, List.foldl_cons, hburst.after]
    exact ih _

end Padded

end RemoteHost
