import Mathlib.Data.List.Perm.Subperm
import RemoteHost.Proofs.JsonMembers
import RemoteHost.Proofs.ReplyLines
import RemoteHost.Proofs.TextBytes

/-!
# Requests on the wire

Calls take the connection one at a time and write their requests byte by byte. A call may fail or be
given up at any moment, also within its request, which is then left on the wire as it is. What was
written is always whole request lines and, at the end, perhaps a part of one; once such a part is
left behind, nothing more is written.
-/

namespace RemoteHost.Json

/-! ## Written values on one line -/

/-- A line break is escaped. -/
theorem ne_lineBreak_of_mem_escapedChar {c d : Char} (h : d ∈ escapedChar c) : d ≠ '\n' := by
  have short : ∀ {letter : Char}, letter ≠ '\n' → d ∈ ['\\', letter] → d ≠ '\n' := by
    intro letter hletter h
    rcases List.mem_pair.mp h with rfl | rfl
    · decide
    · exact hletter
  unfold escapedChar at h
  split_ifs at h with hquote hbackslash hb hf hn hr ht hcontrol
  iterate 7 exact short (by decide) h
  · rcases List.mem_cons.mp h with rfl | h
    · decide
    · rcases List.mem_cons.mp h with rfl | h
      · decide
      · exact Text.of_mem_hexFixed (P := (· ≠ '\n')) (by decide) h
  · rw [List.mem_singleton.mp h]
    exact hn

theorem lineBreak_notMem_stringChars (text : String) : '\n' ∉ stringChars text := by
  intro h
  rcases List.mem_append.mp h with h | h
  · rcases List.mem_cons.mp h with h | h
    · exact absurd h (by decide)
    · obtain ⟨c, -, h⟩ := List.mem_flatMap.mp h
      exact ne_lineBreak_of_mem_escapedChar h rfl
  · exact absurd h (by decide)

end RemoteHost.Json

namespace RemoteHost.Wire

theorem toList_requestLine (id : Nat) (program : String) : (requestLine id program).toList =
    "\x7b\"id\":".toList ++ Nat.toDigits 10 id ++ ",\"source\":".toList ++
      Json.stringChars program ++ ['\x7d'] := by
  have hid : (Json.ofNat id).chars = Nat.toDigits 10 id := Decimal.wholeChars_natCast id
  have hkey : Json.stringChars "id" = "\"id\"".toList := by decide
  have hsource : Json.stringChars "source" = "\"source\"".toList := by decide
  rw [requestLine, Json.compact, String.toList_ofList, Json.chars, Json.fieldChars, Json.fieldChars,
    hid, Json.chars, hkey, hsource]
  · simp
  · exact List.cons_ne_nil _ _

theorem lineBreak_notMem_requestLine (id : Nat) (program : String) :
    lineBreak ∉ Text.bytes (requestLine id program) := by
  intro h
  have hmem := Text.mem_of_mem_bytes h
  simp only [toList_requestLine, List.mem_append] at hmem
  rcases hmem with (((hmem | hmem) | hmem) | hmem) | hmem
  · exact absurd hmem (by decide)
  · exact absurd (Nat.isDigit_of_mem_toDigits (by decide) (by decide) hmem) (by decide)
  · exact absurd hmem (by decide)
  · exact Json.lineBreak_notMem_stringChars program hmem
  · exact absurd hmem (by decide)

theorem lineBytes_append (lines more : List Line) :
    lineBytes (lines ++ more) = lineBytes lines ++ lineBytes more := List.flatMap_append

theorem lineBytes_singleton (line : Line) : lineBytes [line] = line ++ [lineBreak] :=
  List.flatMap_singleton ..

theorem parse_requestLine {id : Nat} (hid : id < Nat.pow 2 64) (program : String) :
    Json.parse (requestLine id program) =
      .ok (.object [("id", .ofNat id), ("source", .string program)]) := by
  have hplain : ∀ f ∈ [("id", Json.ofNat id), ("source", Json.string program)], f.2.IsPlain := by
    simp only [List.forall_mem_cons]
    exact ⟨.count hid, .string program, nofun⟩
  have horder : ¬ "source" < "id" := by decide
  rw [requestLine, Json.parse_compact hplain]
  simp [Json.ofFields, Json.setField, horder]

/-! ## Traffic -/

/-- A call, and the program that it sends. -/
structure Call where
  number : Nat
  program : String
  deriving DecidableEq

/-- How far the call that has the connection has got. -/
inductive Progress where
  | writing (left : List UInt8)
  | reading
  deriving DecidableEq

structure Holding where
  call : Call
  id : Nat
  progress : Progress

/-- A connection with the calls made on it and what they wrote. -/
structure Traffic where
  connection : Connection := {}
  made : Nat := 0
  /-- The calls that have not had the connection yet. -/
  waiting : List Call := []
  holding : Option Holding := none
  written : List UInt8 := []
  /-- The calls that got as far as writing. -/
  begun : List Call := []
  /-- How calls ended that were not given up. -/
  ended : List (Call × Except TransportFault Json) := []

inductive TrafficMove where
  | call (program : String)
  /-- A call takes the connection, if nobody has it, and starts to write. -/
  | take (call : Call)
  /-- Some more bytes are written. -/
  | put (count : Nat)
  /-- The request has been written. -/
  | flush
  | read
  /-- Writing or reading fails. -/
  | fail (fault : TransportFault)
  | abandon (call : Call)
  | arrive (bytes : List UInt8)
  | hangUp

namespace Connection

theorem nextLine_fields {c c' : Connection} {line : Option (List UInt8)}
    (h : c.nextLine = some (line, c')) : c'.nextId = c.nextId ∧ c'.writing = c.writing := by
  unfold nextLine at h
  split at h
  · cases h
    exact ⟨rfl, rfl⟩
  · split_ifs at h <;> cases h <;> exact ⟨rfl, rfl⟩

theorem awaitWith_fields (c : Connection) (id fuel : Nat) :
    (c.awaitWith id fuel).2.nextId = c.nextId ∧ (c.awaitWith id fuel).2.writing = c.writing := by
  induction fuel generalizing c with
  | zero => exact ⟨rfl, rfl⟩
  | succ fuel ih =>
    rw [awaitWith]
    split
    · exact ⟨rfl, rfl⟩
    next hline => exact nextLine_fields hline
    next hline =>
      have hfields := nextLine_fields hline
      split
      · obtain ⟨hid, hwriting⟩ := ih _
        exact ⟨hid.trans hfields.1, hwriting.trans hfields.2⟩
      · exact hfields

end Connection

namespace Traffic

def take (t : Traffic) (call : Call) : Traffic :=
  let t := { t with waiting := t.waiting.erase call }
  match t.connection.begin call.program with
  | .error fault => { t with ended := t.ended ++ [(call, .error fault)] }
  | .ok (id, line, c) =>
    { t with
      connection := c
      holding := some ⟨call, id, .writing (Text.bytes line ++ [lineBreak])⟩
      begun := t.begun ++ [call] }

/-- The traffic after a move. A move that is not possible changes nothing. -/
def act (t : Traffic) : TrafficMove → Traffic
  | .call program =>
    { t with made := t.made + 1, waiting := t.waiting ++ [⟨t.made, program⟩] }
  | .take call => if call ∈ t.waiting ∧ t.holding.isNone then t.take call else t
  | .put count =>
    match t.holding with
    | some ⟨call, id, .writing left⟩ =>
      { t with
        holding := some ⟨call, id, .writing (left.drop count)⟩
        written := t.written ++ left.take count }
    | _ => t
  | .flush =>
    match t.holding with
    | some ⟨call, id, .writing []⟩ =>
      { t with connection := t.connection.finish, holding := some ⟨call, id, .reading⟩ }
    | _ => t
  | .read =>
    match t.holding with
    | some ⟨call, id, .reading⟩ =>
      match t.connection.await id with
      | (none, c) => { t with connection := c }
      | (some result, c) =>
        { t with connection := c, holding := none, ended := t.ended ++ [(call, result)] }
    | _ => t
  | .fail fault =>
    match t.holding with
    | some h => { t with holding := none, ended := t.ended ++ [(h.call, .error fault)] }
    | none => t
  | .abandon call =>
    if t.holding.any fun h => h.call = call then { t with holding := none }
    else { t with waiting := t.waiting.erase call }
  | .arrive bytes => { t with connection := t.connection.arrive bytes }
  | .hangUp => { t with connection := { t.connection with ended := true } }

def run (t : Traffic) (moves : List TrafficMove) : Traffic := moves.foldl act t

/-- The request lines of the calls that got as far as writing, numbered from one on. -/
def requests (t : Traffic) : List Line :=
  t.begun.mapIdx fun k call => Text.bytes (requestLine (k + 1) call.program)

/-- All requests were written, but for the given end of the last one. -/
def Lacks (requests : List Line) (written left : List UInt8) : Prop :=
  ∃ earlier line part, requests = earlier ++ [line] ∧ written = lineBytes earlier ++ part ∧
    part ++ left = line ++ [lineBreak]

/-- What was written fits what the connection says. -/
structure IsFramed (t : Traffic) : Prop where
  numbered : t.connection.nextId = t.begun.length + 1
  whole : t.connection.writing = false →
    t.written = lineBytes t.requests ∧ ∀ h ∈ t.holding, h.progress = .reading
  torn : t.connection.writing = true →
    ∃ left, Lacks t.requests t.written left ∧ ∀ h ∈ t.holding, h.progress = .writing left

variable {t t' : Traffic}

theorem Lacks.put {requests : List Line} {written left : List UInt8}
    (h : Lacks requests written left) (count : Nat) :
    Lacks requests (written ++ left.take count) (left.drop count) := by
  obtain ⟨earlier, line, part, hrequests, rfl, hpart⟩ := h
  refine ⟨earlier, line, part ++ left.take count, hrequests, List.append_assoc .., ?_⟩
  rw [List.append_assoc, List.take_append_drop, hpart]

theorem Lacks.eq_of_nil {requests : List Line} {written : List UInt8}
    (h : Lacks requests written []) : written = lineBytes requests := by
  obtain ⟨earlier, line, part, rfl, rfl, hpart⟩ := h
  rw [List.append_nil] at hpart
  rw [lineBytes_append, lineBytes_singleton, hpart]

/-- A request that was only partly written is a line cut short, perhaps before its first byte. -/
theorem Lacks.cases {requests : List Line} {written left : List UInt8}
    (h : Lacks requests written left) : written = lineBytes requests ∨
      ∃ earlier line part, requests = earlier ++ [line] ∧ written = lineBytes earlier ++ part ∧
        part <+: line := by
  rcases List.eq_nil_or_concat left with rfl | ⟨left, last, rfl⟩
  · exact .inl h.eq_of_nil
  · obtain ⟨earlier, line, part, hrequests, hwritten, hpart⟩ := h
    rw [List.concat_eq_append, ← List.append_assoc] at hpart
    exact .inr ⟨earlier, line, part, hrequests, hwritten, left, (List.append_inj' hpart rfl).1⟩

/-- What matters to the framing stays as it is, but for a call that may go away. -/
theorem IsFramed.of_fields (h : t.IsFramed) (hid : t'.connection.nextId = t.connection.nextId)
    (hwriting : t'.connection.writing = t.connection.writing) (hbegun : t'.begun = t.begun)
    (hwritten : t'.written = t.written) (hholding : ∀ h ∈ t'.holding, h ∈ t.holding) :
    t'.IsFramed := by
  have hrequests : t'.requests = t.requests := by rw [requests, requests, hbegun]
  refine ⟨?_, ?_, ?_⟩
  · rw [hid, hbegun, h.numbered]
  · intro hidle
    rw [hwritten, hrequests]
    obtain ⟨hwhole, hreading⟩ := h.whole (hwriting ▸ hidle)
    exact ⟨hwhole, fun x hx => hreading x (hholding x hx)⟩
  · intro hbusy
    rw [hwritten, hrequests]
    obtain ⟨left, hlacks, hleft⟩ := h.torn (hwriting ▸ hbusy)
    exact ⟨left, hlacks, fun x hx => hleft x (hholding x hx)⟩

theorem requests_concat (t : Traffic) (call : Call) :
    requests { t with begun := t.begun ++ [call] } =
      t.requests ++ [Text.bytes (requestLine (t.begun.length + 1) call.program)] :=
  List.mapIdx_concat

theorem take_of_writing (h : t.connection.writing = true) (call : Call) :
    t.take call = { t with
      waiting := t.waiting.erase call
      ended := t.ended ++ [(call, .error .closed)] } := by
  simp only [Traffic.take, Connection.begin, h, if_true]

theorem take_of_idle (h : t.connection.writing = false) (call : Call) :
    t.take call = { t with
      connection := { t.connection with nextId := t.connection.nextId + 1, writing := true }
      waiting := t.waiting.erase call
      holding := some ⟨call, t.connection.nextId,
        .writing (Text.bytes (requestLine t.connection.nextId call.program) ++ [lineBreak])⟩
      begun := t.begun ++ [call] } := by
  simp only [Traffic.take, Connection.begin, h, Bool.false_eq_true, if_false]

theorem IsFramed.take (h : t.IsFramed) (call : Call) : (t.take call).IsFramed := by
  cases hwriting : t.connection.writing with
  | true =>
    rw [take_of_writing hwriting]
    exact h.of_fields rfl rfl rfl rfl fun _ hx => hx
  | false =>
    rw [take_of_idle hwriting, h.numbered]
    -- the new request lacks its whole line, and all earlier ones are complete
    refine ⟨?_, nofun, fun _ => ⟨_, ⟨t.requests, _, [], requests_concat t call, ?_, rfl⟩, ?_⟩⟩
    · exact List.length_append ▸ rfl
    · rw [List.append_nil]
      exact (h.whole hwriting).1
    · rintro _ ⟨⟩
      rfl

theorem IsFramed.act (h : t.IsFramed) (move : TrafficMove) : (t.act move).IsFramed := by
  cases move with
  | call program => exact h.of_fields rfl rfl rfl rfl fun _ hx => hx
  | take call =>
    rw [Traffic.act]
    split_ifs with hcan
    · exact h.take call
    · exact h
  | put count =>
    rw [Traffic.act]
    split
    next call id left hholding =>
      refine ⟨h.numbered, ?_, ?_⟩
      · intro hidle
        exact absurd ((h.whole hidle).2 _ hholding) nofun
      · intro hbusy
        obtain ⟨left', hlacks, hleft⟩ := h.torn hbusy
        obtain rfl : left = left' := Progress.writing.inj (hleft _ hholding)
        refine ⟨_, hlacks.put count, ?_⟩
        rintro _ ⟨⟩
        rfl
    · exact h
  | flush =>
    rw [Traffic.act]
    split
    next call id hholding =>
      cases hwriting : t.connection.writing with
      | false => exact absurd ((h.whole hwriting).2 _ hholding) nofun
      | true =>
        obtain ⟨left, hlacks, hleft⟩ := h.torn hwriting
        obtain rfl : [] = left := Progress.writing.inj (hleft _ hholding)
        refine ⟨h.numbered, fun _ => ⟨hlacks.eq_of_nil, ?_⟩, nofun⟩
        rintro _ ⟨⟩
        rfl
    · exact h
  | read =>
    rw [Traffic.act]
    split
    next call id hholding =>
      obtain ⟨hid, hwriting⟩ := t.connection.awaitWith_fields id (t.connection.received.length + 2)
      change (t.connection.await id).2.nextId = _ at hid
      change (t.connection.await id).2.writing = _ at hwriting
      split
      next hawait =>
        rw [hawait] at hid hwriting
        exact h.of_fields hid hwriting rfl rfl fun _ hx => hx
      next hawait =>
        rw [hawait] at hid hwriting
        exact h.of_fields hid hwriting rfl rfl nofun
    · exact h
  | fail fault =>
    rw [Traffic.act]
    split
    · exact h.of_fields rfl rfl rfl rfl nofun
    · exact h
  | abandon call =>
    rw [Traffic.act]
    split_ifs
    · exact h.of_fields rfl rfl rfl rfl nofun
    · exact h.of_fields rfl rfl rfl rfl fun _ hx => hx
  | arrive bytes => exact h.of_fields rfl rfl rfl rfl fun _ hx => hx
  | hangUp => exact h.of_fields rfl rfl rfl rfl fun _ hx => hx

theorem IsFramed.run (h : t.IsFramed) (moves : List TrafficMove) : (t.run moves).IsFramed := by
  induction moves generalizing t with
  | nil => exact h
  | cons move moves ih => exact ih (h.act move)

theorem isFramed_run (moves : List TrafficMove) : (run {} moves).IsFramed := by
  refine IsFramed.run ⟨rfl, fun _ => ⟨rfl, ?_⟩, ?_⟩ moves
  · rintro _ ⟨⟩
  · rintro ⟨⟩

/-! ## Calls -/

/-- The programs of the calls that are made. -/
def programs (moves : List TrafficMove) : List String :=
  moves.filterMap fun
    | .call program => some program
    | _ => none

/-- The calls have the given programs, and get as far as writing at most once. -/
structure AreMade (programs : List String) (t : Traffic) : Prop where
  made : t.made = programs.length
  sends : ∀ call ∈ t.waiting ++ t.begun, programs[call.number]? = some call.program
  once : (t.waiting ++ t.begun).Nodup

theorem AreMade.of_subperm {programs : List String} (h : AreMade programs t)
    (hmade : t'.made = t.made)
    (hcalls : (t'.waiting ++ t'.begun).Subperm (t.waiting ++ t.begun)) : AreMade programs t' := by
  have honce : (t'.waiting ++ t'.begun).Nodup := by
    obtain ⟨calls, hperm, hsublist⟩ := hcalls
    exact hperm.nodup_iff.mp (h.once.sublist hsublist)
  exact ⟨hmade.trans h.made, fun call hcall => h.sends call (hcalls.subset hcall), honce⟩

theorem erase_waiting (t : Traffic) (call : Call) :
    (t.waiting.erase call ++ t.begun).Subperm (t.waiting ++ t.begun) :=
  (List.erase_sublist.append_right t.begun).subperm

theorem AreMade.call {programs : List String} (h : AreMade programs t) (program : String) :
    AreMade (programs ++ [program]) (t.act (.call program)) := by
  let new : Call := ⟨t.made, program⟩
  have hperm : (t.waiting ++ [new] ++ t.begun).Perm (new :: (t.waiting ++ t.begun)) := by
    rw [List.append_assoc]
    exact List.perm_middle
  refine ⟨?_, ?_, hperm.nodup_iff.mpr (List.nodup_cons.mpr ⟨?_, h.once⟩)⟩
  · rw [List.length_append, ← h.made]
    rfl
  · intro call hcall
    rcases List.mem_cons.mp (hperm.subset hcall) with rfl | hcall
    · change (programs ++ [program])[t.made]? = some program
      rw [h.made, List.getElem?_concat_length]
    · have hsends := h.sends call hcall
      have hlt : call.number < programs.length := (List.getElem?_eq_some_iff.mp hsends).1
      rw [List.getElem?_append_left hlt, hsends]
  · intro hmem
    have hlt : t.made < programs.length := (List.getElem?_eq_some_iff.mp (h.sends new hmem)).1
    rw [h.made] at hlt
    exact Nat.lt_irrefl _ hlt

theorem AreMade.take {programs : List String} (h : AreMade programs t) {call : Call}
    (hcall : call ∈ t.waiting) : AreMade programs (t.take call) := by
  cases hwriting : t.connection.writing with
  | true =>
    rw [take_of_writing hwriting]
    exact h.of_subperm rfl (erase_waiting t call)
  | false =>
    rw [take_of_idle hwriting]
    have hperm : (t.waiting.erase call ++ (t.begun ++ [call])).Perm (t.waiting ++ t.begun) := by
      rw [← List.append_assoc]
      refine List.perm_append_comm.trans ?_
      exact (List.perm_cons_erase hcall).symm.append_right t.begun
    exact h.of_subperm rfl hperm.subperm

theorem AreMade.act {made : List String} (h : AreMade made t) (move : TrafficMove) :
    AreMade (made ++ programs [move]) (t.act move) := by
  have same : ∀ {t' : Traffic}, t'.made = t.made → t'.waiting = t.waiting → t'.begun = t.begun →
      AreMade (made ++ []) t' := fun hm hw hb =>
    (List.append_nil made).symm ▸ h.of_subperm hm (by rw [hw, hb])
  cases move with
  | call program => exact h.call program
  | take call =>
    have hnone : made ++ programs [.take call] = made := List.append_nil made
    rw [Traffic.act, hnone]
    split_ifs with hcan
    · exact h.take hcan.1
    · exact h
  | abandon call =>
    have hnone : made ++ programs [.abandon call] = made := List.append_nil made
    rw [Traffic.act, hnone]
    split_ifs
    · exact h.of_subperm rfl (List.Subperm.refl _)
    · exact h.of_subperm rfl (erase_waiting t call)
  | read =>
    rw [Traffic.act]
    split
    · split <;> exact same rfl rfl rfl
    · exact same rfl rfl rfl
  | put | flush | fail =>
    rw [Traffic.act]
    split <;> exact same rfl rfl rfl
  | arrive | hangUp => exact same rfl rfl rfl

theorem AreMade.run {made : List String} (h : AreMade made t) (moves : List TrafficMove) :
    AreMade (made ++ programs moves) (t.run moves) := by
  induction moves generalizing t made with
  | nil =>
    rw [programs, List.filterMap_nil, List.append_nil]
    exact h
  | cons move moves ih =>
    have hsplit : programs (move :: moves) = programs [move] ++ programs moves :=
      List.filterMap_append (l := [move]) ..
    rw [hsplit, ← List.append_assoc]
    exact ih (h.act move)

theorem areMade_run (moves : List TrafficMove) : AreMade (programs moves) (run {} moves) := by
  have hstart : AreMade [] {} :=
    ⟨rfl, fun _ hcall => absurd hcall List.not_mem_nil, List.nodup_nil⟩
  exact hstart.run moves

/-! ## Torn requests -/

/-- A request was given up while it was being written. -/
def IsTorn (t : Traffic) : Prop := t.holding = none ∧ t.connection.writing = true

/-- Nothing was written any more, and all that ended of the calls was refused. -/
structure Refuses (t t' : Traffic) : Prop where
  torn : t'.IsTorn
  written : t'.written = t.written
  begun : t'.begun = t.begun
  ended : ∃ calls : List Call, t'.ended = t.ended ++ calls.map fun call => (call, .error .closed)

theorem IsTorn.refuses_act (h : t.IsTorn) (move : TrafficMove) : t.Refuses (t.act move) := by
  obtain ⟨hholding, hwriting⟩ := h
  have same : ∀ {t' : Traffic}, t'.holding = t.holding →
      t'.connection.writing = t.connection.writing → t'.written = t.written → t'.begun = t.begun →
        t'.ended = t.ended → t.Refuses t' :=
    fun hh hc hw hb he => ⟨⟨hh.trans hholding, hc.trans hwriting⟩, hw, hb, [], by simp [he]⟩
  cases move with
  | take call =>
    rw [Traffic.act, take_of_writing hwriting]
    split_ifs
    · exact ⟨⟨hholding, hwriting⟩, rfl, rfl, [call], rfl⟩
    · exact same rfl rfl rfl rfl rfl
  | put | flush | read | fail =>
    simp only [Traffic.act, hholding]
    exact same rfl rfl rfl rfl rfl
  | abandon call =>
    simp only [Traffic.act, hholding, Option.any_none, Bool.false_eq_true, if_false]
    exact same hholding.symm rfl rfl rfl rfl
  | call | arrive | hangUp => exact same rfl rfl rfl rfl rfl

theorem Refuses.trans {t'' : Traffic} (h : t.Refuses t') (h' : t'.Refuses t'') : t.Refuses t'' := by
  obtain ⟨calls, hended⟩ := h.ended
  obtain ⟨calls', hended'⟩ := h'.ended
  refine ⟨h'.torn, h'.written.trans h.written, h'.begun.trans h.begun, calls ++ calls', ?_⟩
  rw [hended', hended, List.map_append, List.append_assoc]

theorem IsTorn.refuses_run (h : t.IsTorn) (moves : List TrafficMove) : t.Refuses (t.run moves) := by
  induction moves generalizing t with
  | nil => exact ⟨h, rfl, rfl, [], (List.append_nil _).symm⟩
  | cons move moves ih =>
    have hact := h.refuses_act move
    exact hact.trans (ih hact.torn)

/-! ## Hosts on a wire -/

/-- A call that gets the connection at once. -/
theorem run_call_take (hholding : t.holding = none) (program : String) (moves : List TrafficMove) :
    t.run (.call program :: .take ⟨t.made, program⟩ :: moves) =
      ((t.act (.call program)).take ⟨t.made, program⟩).run moves := by
  have hcan : (⟨t.made, program⟩ : Call) ∈ (t.act (.call program)).waiting ∧
      (t.act (.call program)).holding.isNone :=
    ⟨List.mem_append_right _ (List.mem_singleton_self _), by rw [Traffic.act, hholding]; rfl⟩
  rw [run, List.foldl_cons, List.foldl_cons]
  exact congrArg (List.foldl Traffic.act · moves) (if_pos hcan)

/-- A host writes a request in one go: it puts all bytes of the line and of its break. -/
theorem write_eq_run (h : WiredHost) (hconnection : t.connection = h.connection)
    (hholding : t.holding = none) (hidle : h.connection.writing = false)
    (hopen : h.connection.ended = false) (program : String) :
    let line := requestLine h.connection.nextId program
    let count := (Text.bytes line).length + 1
    let t' := t.run [.call program, .take ⟨t.made, program⟩, .put count, .flush]
    h.write program =
      (.ok (h.connection.nextId, some line), { h with connection := t'.connection }.react) ∧
    t'.written = t.written ++ Text.bytes line ++ [lineBreak] := by
  intro line count t'
  have hwriting : (t.act (.call program)).connection.writing = false := by
    rw [← hidle, ← hconnection]
    rfl
  have hid : (t.act (.call program)).connection.nextId = h.connection.nextId := by
    rw [← hconnection]
    rfl
  have hcount : (Text.bytes line ++ [lineBreak]).length = count := by simp [count]
  have hput : (Text.bytes line ++ [lineBreak]).take count = Text.bytes line ++ [lineBreak] :=
    List.take_of_length_le (Nat.le_of_eq hcount)
  have hleft : (Text.bytes line ++ [lineBreak]).drop count = [] :=
    List.drop_of_length_le (Nat.le_of_eq hcount)
  have hrun : t'.connection = { h.connection with nextId := h.connection.nextId + 1 } ∧
      t'.written = t.written ++ (Text.bytes line ++ [lineBreak]) := by
    have hstart : t' = ((t.act (.call program)).take ⟨t.made, program⟩).run [.put count, .flush] :=
      run_call_take hholding program _
    rw [hstart, take_of_idle hwriting, hid]
    simp only [run, List.foldl_cons, List.foldl_nil, act]
    rw [hleft]
    refine ⟨?_, congrArg (t.written ++ ·) hput⟩
    simp [Connection.finish, hconnection, hidle]
  constructor
  · rw [hrun.1]
    simp [WiredHost.write, Connection.begin, Connection.finish, hidle, hopen, line]
  · rw [hrun.2, List.append_assoc]

/-- A host that stops halfway through a request is left as a call leaves the connection that is
given up within it. -/
theorem writePart_eq_run (h : WiredHost) (hconnection : t.connection = h.connection)
    (hholding : t.holding = none) (program : String) (count : Nat) :
    h.writePart program = { h with
      connection := (t.run [.call program, .take ⟨t.made, program⟩, .put count,
        .abandon ⟨t.made, program⟩]).connection } := by
  rw [run_call_take hholding, WiredHost.writePart]
  cases hwriting : h.connection.writing with
  | true =>
    have hbusy : (t.act (.call program)).connection.writing = true := by
      rw [← hwriting, ← hconnection]
      rfl
    rw [take_of_writing hbusy]
    simp only [Connection.begin, hwriting, if_true]
    simp [run, act, hholding, hconnection]
  | false =>
    have hidle : (t.act (.call program)).connection.writing = false := by
      rw [← hwriting, ← hconnection]
      rfl
    rw [take_of_idle hidle]
    simp only [Connection.begin, hwriting, Bool.false_eq_true, if_false]
    simp [run, act, hconnection]

theorem requests_eq_some {k : Nat} {call : Call} (h : t.begun[k]? = some call) :
    t.requests[k]? = some (Text.bytes (requestLine (k + 1) call.program)) := by
  rw [requests, List.getElem?_mapIdx, h, Option.map_some]

/-- What is written is whole request lines, one for each call that got as far as writing, of which
the last one may be cut short. The lines decode to the numbers of the requests, counted from one on,
and the programs of the calls. Once a line was left that is cut short, nothing more is written, and
every call that gets the connection is refused. -/
theorem requests_framed (moves : List TrafficMove) :
    let t := run {} moves
    (t.written = lineBytes t.requests ∨ ∃ earlier line part, t.requests = earlier ++ [line] ∧
      t.written = lineBytes earlier ++ part ∧ part <+: line) ∧
    t.begun.Nodup ∧
    (∀ k call, t.begun[k]? = some call → (programs moves)[call.number]? = some call.program ∧
      ∃ line, t.requests[k]? = some line ∧ lineBreak ∉ line ∧
        (k + 1 < Nat.pow 2 64 → (Text.decode? line).map Json.parse =
          some (.ok (.object [("id", .ofNat (k + 1)), ("source", .string call.program)])))) ∧
    (t.holding = none → t.written ≠ lineBytes t.requests → ∀ later,
      let t' := t.run later
      t'.written = t.written ∧ t'.begun = t.begun ∧
      (∃ calls : List Call, t'.ended = t.ended ++ calls.map fun call => (call, .error .closed)) ∧
      ∀ call ∈ t'.waiting, (t'.act (.take call)).ended = t'.ended ++ [(call, .error .closed)]) := by
  intro t
  have hframed : t.IsFramed := isFramed_run moves
  have hmade : AreMade (programs moves) t := areMade_run moves
  refine ⟨?_, ?_, ?_, ?_⟩
  · cases hwriting : t.connection.writing with
    | false => exact .inl (hframed.whole hwriting).1
    | true =>
      obtain ⟨left, hlacks, -⟩ := hframed.torn hwriting
      exact hlacks.cases
  · exact (List.nodup_append.mp hmade.once).2.1
  · intro k call hcall
    have hmem : call ∈ t.waiting ++ t.begun :=
      List.mem_append_right _ (List.mem_of_getElem? hcall)
    refine ⟨hmade.sends call hmem, _, requests_eq_some hcall, lineBreak_notMem_requestLine _ _, ?_⟩
    intro hk
    rw [Text.decode?_bytes, Option.map_some, parse_requestLine hk]
  · intro hholding hcut later t'
    have htorn : t.IsTorn := by
      refine ⟨hholding, ?_⟩
      by_contra hidle
      exact hcut (hframed.whole (Bool.eq_false_iff.mpr hidle)).1
    have hrefuses : t.Refuses t' := htorn.refuses_run later
    refine ⟨hrefuses.written, hrefuses.begun, hrefuses.ended, fun call hcall => ?_⟩
    have hcan : call ∈ t'.waiting ∧ t'.holding.isNone :=
      ⟨hcall, Option.isNone_iff_eq_none.mpr hrefuses.torn.1⟩
    rw [Traffic.act, if_pos hcan, take_of_writing hrefuses.torn.2]

/-- A call that is given up within its request, while another one waits. -/
def cutShort : List TrafficMove :=
  [.call "a\nb", .call "c", .take ⟨0, "a\nb"⟩, .put 5, .abandon ⟨0, "a\nb"⟩]

theorem cutShort_framed :
    (run {} cutShort).written ≠ lineBytes (run {} cutShort).requests ∧
    (∃ line, (run {} cutShort).requests[0]? = some line ∧ (Text.decode? line).map Json.parse =
      some (.ok (.object [("id", .ofNat 1), ("source", .string "a\nb")]))) ∧
    ((run {} cutShort).run [.take ⟨1, "c"⟩, .put 9]).written = (run {} cutShort).written := by
  obtain ⟨-, -, hlines, htorn⟩ := requests_framed cutShort
  have hcut : (run {} cutShort).written ≠ lineBytes (run {} cutShort).requests := by decide
  obtain ⟨-, line, hline, -, hparse⟩ := hlines 0 ⟨0, "a\nb"⟩ rfl
  exact ⟨hcut, ⟨line, hline, hparse (by decide)⟩, (htorn rfl hcut [.take ⟨1, "c"⟩, .put 9]).1⟩

end Traffic

end RemoteHost.Wire
