import Mathlib.Tactic.SplitIfs
import RemoteHost.Wire.Connection

/-!
# Replies line by line

What a waiting request does with whole lines: it reads them in the order in which they came, passes
over those that answer earlier requests, and stops at the first other one, which settles it.
-/

namespace RemoteHost.Wire

abbrev Line := List UInt8

/-- The bytes of some lines, each with the break that it ends in. -/
def lineBytes (lines : List Line) : List UInt8 := lines.flatMap (· ++ [lineBreak])

/-- Lines without a break of their own. -/
def AreWhole (lines : List Line) : Prop := ∀ line ∈ lines, lineBreak ∉ line

/-- What a whole line means to the request that waits with a number. -/
def judgeWhole (id : Nat) (line : Line) : Judgement := judgeLine id (line ++ [lineBreak])

/-- The reply that a whole line is, if it is JSON. -/
def replyOf (line : Line) : Option Json :=
  (Text.decode? (line ++ [lineBreak])).bind fun text => (Json.parse text).toOption

/-- The number of the request that a line is a reply to, if the line is a well-formed reply. -/
def numberOf (line : Line) : Option Nat :=
  (replyOf line).bind fun reply => (reply.field? "id").bind Json.nat?

/-- The result of the request that waits with a number, if one of some lines settles it, and the
lines that it does not read. -/
def attend (id : Nat) : List Line → Option (Except TransportFault Json) × List Line
  | [] => (none, [])
  | line :: rest =>
    match judgeWhole id line with
    | .stale => attend id rest
    | .settled result => (some result, rest)

/-- The lines that the request with a number reads. -/
def attended (id : Nat) (lines : List Line) : List Line :=
  lines.take (lines.length - (attend id lines).2.length)

/-- What a request has made of the lines it read: it passed over all of them, but for the last one
if that settled it. -/
def Reads (id : Nat) (lines : List Line) : Option (Except TransportFault Json) → Prop
  | none => ∀ line ∈ lines, judgeWhole id line = .stale
  | some result => ∃ passed last, lines = passed ++ [last] ∧
      (∀ line ∈ passed, judgeWhole id line = .stale) ∧ judgeWhole id last = .settled result

/-! ## Whole lines -/

theorem splitLine_whole {line : Line} (h : lineBreak ∉ line) (rest : List UInt8) :
    splitLine (line ++ lineBreak :: rest) = some (line, rest) := by
  induction line with
  | nil => simp [splitLine]
  | cons b line ih =>
    have hb : b ≠ lineBreak := fun heq => h (heq ▸ List.mem_cons_self)
    simp [splitLine, hb, ih fun hmem => h (List.mem_cons_of_mem b hmem)]

theorem lineBytes_cons (line : Line) (lines : List Line) :
    lineBytes (line :: lines) = line ++ lineBreak :: lineBytes lines := by
  simp [lineBytes]

theorem length_le_lineBytes (lines : List Line) : lines.length ≤ (lineBytes lines).length := by
  induction lines with
  | nil => exact Nat.le_refl 0
  | cons line lines ih =>
    rw [lineBytes_cons, List.length_append, List.length_cons, List.length_cons]
    omega

/-- Whole lines are found again where they are cut. -/
theorem cutLines_lineBytes {lines : List Line} (h : AreWhole lines) :
    cutLines (lineBytes lines) = (lines, []) := by
  have cut : ∀ {line : Line} {rest : List UInt8} {found : List Line}, lineBreak ∉ line →
      cutLines rest = (found, []) → cutLines (line ++ lineBreak :: rest) = (line :: found, []) := by
    intro line rest found hline hrest
    induction line with
    | nil => simp [cutLines, hrest]
    | cons b line ih =>
      have hb : b ≠ lineBreak := fun heq => hline (heq ▸ List.mem_cons_self)
      have hline := ih fun hmem => hline (List.mem_cons_of_mem b hmem)
      simp [cutLines, hline, hb]
  induction lines with
  | nil => rfl
  | cons line lines ih =>
    rw [lineBytes_cons]
    exact cut (h line List.mem_cons_self) (ih fun l hl => h l (List.mem_cons_of_mem line hl))

/-! ## Reading -/

theorem attended_append {id : Nat} {read lines : List Line}
    (h : lines = read ++ (attend id lines).2) : attended id lines = read := by
  unfold attended
  generalize (attend id lines).2 = left at h ⊢
  subst h
  have hcount : (read ++ left).length - left.length = read.length := by simp
  rw [hcount]
  exact List.take_left

theorem attend_reads (id : Nat) (lines : List Line) :
    lines = attended id lines ++ (attend id lines).2 ∧
      Reads id (attended id lines) (attend id lines).1 ∧
      ((attend id lines).1 = none → (attend id lines).2 = []) := by
  have reads : ∃ read, lines = read ++ (attend id lines).2 ∧ Reads id read (attend id lines).1 ∧
      ((attend id lines).1 = none → (attend id lines).2 = []) := by
    induction lines with
    | nil => exact ⟨[], rfl, nofun, fun _ => rfl⟩
    | cons line lines ih =>
      cases hjudged : judgeWhole id line with
      | stale =>
        obtain ⟨read, hsplit, hreads, hleft⟩ := ih
        have hattend : attend id (line :: lines) = attend id lines := by simp [attend, hjudged]
        rw [hattend]
        refine ⟨line :: read, congrArg (line :: ·) hsplit, ?_, hleft⟩
        generalize (attend id lines).1 = result at hreads
        cases result with
        | none => exact List.forall_mem_cons.mpr ⟨hjudged, hreads⟩
        | some result =>
          obtain ⟨passed, last, rfl, hpassed, hlast⟩ := hreads
          exact ⟨line :: passed, last, rfl, List.forall_mem_cons.mpr ⟨hjudged, hpassed⟩, hlast⟩
      | settled result =>
        have hattend : attend id (line :: lines) = (some result, lines) := by
          simp [attend, hjudged]
        rw [hattend]
        exact ⟨[line], rfl, ⟨[], line, rfl, nofun, hjudged⟩, nofun⟩
  obtain ⟨read, hsplit, hreads, hleft⟩ := reads
  rw [attended_append hsplit]
  exact ⟨hsplit, hreads, hleft⟩

/-- A request that reads all of some lines goes on with those after them. -/
theorem attend_append_of_none {id : Nat} {lines : List Line} (h : (attend id lines).1 = none)
    (more : List Line) : attend id (lines ++ more) = attend id more := by
  induction lines with
  | nil => rfl
  | cons line lines ih =>
    cases hjudged : judgeWhole id line with
    | stale =>
      simp only [attend, hjudged, List.cons_append] at h ⊢
      exact ih h
    | settled result => simp [attend, hjudged] at h

/-- Lines after the one that settles a request are left as they are. -/
theorem attend_append_of_some {id : Nat} {lines : List Line} {result : Except TransportFault Json}
    (h : (attend id lines).1 = some result) (more : List Line) :
    attend id (lines ++ more) = (some result, (attend id lines).2 ++ more) := by
  induction lines with
  | nil => cases h
  | cons line lines ih =>
    cases hjudged : judgeWhole id line with
    | stale =>
      simp only [attend, hjudged, List.cons_append] at h ⊢
      exact ih h
    | settled other =>
      simp only [attend, hjudged, List.cons_append] at h ⊢
      rw [h]

theorem nextLine_whole {c : Connection} {line : Line} {lines : List Line} (h : lineBreak ∉ line)
    (hreceived : c.received = lineBytes (line :: lines)) :
    c.nextLine = some (some (line ++ [lineBreak]), { c with received := lineBytes lines }) := by
  rw [lineBytes_cons] at hreceived
  simp [Connection.nextLine, hreceived, splitLine_whole h]

/-- Where whole lines have arrived and the host has not hung up, a waiting request attends to the
lines. -/
theorem await_whole {c : Connection} {lines : List Line} (hended : c.ended = false)
    (hwhole : AreWhole lines) (hreceived : c.received = lineBytes lines) (id : Nat) :
    c.await id = ((attend id lines).1, { c with received := lineBytes (attend id lines).2 }) := by
  have reads : ∀ fuel, lines.length < fuel → c.awaitWith id fuel =
      ((attend id lines).1, { c with received := lineBytes (attend id lines).2 }) := by
    intro fuel hfuel
    induction lines generalizing c fuel with
    | nil =>
      obtain ⟨fuel, rfl⟩ := Nat.exists_eq_add_one_of_ne_zero (Nat.ne_of_gt hfuel)
      have hempty : c.received = [] := hreceived
      have hnone : c.nextLine = none := by
        simp [Connection.nextLine, hempty, splitLine, hended]
      have hsame : { c with received := [] } = c := by rw [← hempty]
      simp [Connection.awaitWith, hnone, attend, lineBytes, hsame]
    | cons line lines ih =>
      obtain ⟨fuel, rfl⟩ :=
        Nat.exists_eq_add_one_of_ne_zero (Nat.ne_of_gt (Nat.zero_lt_of_lt hfuel))
      have hnext := nextLine_whole (hwhole line List.mem_cons_self) hreceived
      have hrest := ih (c := { c with received := lineBytes lines }) hended
        (fun l hl => hwhole l (List.mem_cons_of_mem line hl)) rfl fuel
        (Nat.lt_of_succ_lt_succ hfuel)
      simp only [Connection.awaitWith, hnext]
      cases hjudged : judgeWhole id line with
      | stale =>
        have hjudged' : judgeLine id (line ++ [lineBreak]) = .stale := hjudged
        simp only [hjudged', hrest, attend, hjudged]
      | settled result =>
        have hjudged' : judgeLine id (line ++ [lineBreak]) = .settled result := hjudged
        simp only [hjudged', attend, hjudged]
  refine reads (c.received.length + 2) ?_
  rw [hreceived]
  have := length_le_lineBytes lines
  omega

/-! ## What settles a request -/

/-- What a reply says about its request: the value, or the error of the host. -/
def answerOf (line : Line) : Option (Except TransportFault Json) :=
  (replyOf line).bind fun reply =>
    match reply.field? "error", reply.field? "result" with
    | some error, _ => some (.error (.host (errorMessage error)))
    | none, some result => some (.ok result)
    | none, none => none

/-- Results that are the host's own. All others are complaints about what the host sent. -/
def IsAnswer : Except TransportFault Json → Prop
  | .ok _ | .error (.host _) => True
  | .error _ => False

theorem judgeWhole_of_reply {line : Line} {reply : Json} (h : replyOf line = some reply)
    (id : Nat) : judgeWhole id line = judge id reply := by
  obtain ⟨text, htext, hreply⟩ := Option.bind_eq_some_iff.mp h
  cases hparsed : Json.parse text with
  | error fault => simp [hparsed, Except.toOption] at hreply
  | ok parsed =>
    have heq : parsed = reply := by simpa [hparsed, Except.toOption] using hreply
    simp [judgeWhole, judgeLine, htext, hparsed, heq]

/-- What is no JSON settles the request, with an error that is not the host's. -/
theorem judgeWhole_of_none {line : Line} (h : replyOf line = none) (id : Nat) :
    ∃ fault, judgeWhole id line = .settled (.error fault) ∧ ¬IsAnswer (.error fault) := by
  unfold judgeWhole judgeLine
  cases htext : Text.decode? (line ++ [lineBreak]) with
  | none => exact ⟨_, rfl, not_false⟩
  | some text =>
    dsimp only
    cases hparsed : Json.parse text with
    | error fault => exact ⟨_, rfl, not_false⟩
    | ok parsed => simp [replyOf, htext, hparsed, Except.toOption] at h

theorem judgeWhole_of_number {id got : Nat} {line : Line} (h : numberOf line = some got) :
    judgeWhole id line =
      if got < id then .stale
      else if got ≠ id then .settled (.error (.responseMismatch id got))
      else .settled ((answerOf line).getD (.error (.malformed .missingResult))) := by
  obtain ⟨reply, hreply, hgot⟩ := Option.bind_eq_some_iff.mp h
  have hanswer : answerOf line = match reply.field? "error", reply.field? "result" with
      | some error, _ => some (.error (.host (errorMessage error)))
      | none, some result => some (.ok result)
      | none, none => none := by rw [answerOf, hreply, Option.bind_some]
  rw [judgeWhole_of_reply hreply, judge, hgot, hanswer]
  dsimp only
  cases reply.field? "error" with
  | some error => rfl
  | none => cases reply.field? "result" <;> rfl

/-- A line that tells no number settles the request, with an error that is not the host's. -/
theorem judgeWhole_of_no_number {line : Line} (h : numberOf line = none) (id : Nat) :
    ∃ fault, judgeWhole id line = .settled (.error fault) ∧ ¬IsAnswer (.error fault) := by
  cases hreply : replyOf line with
  | none => exact judgeWhole_of_none hreply id
  | some reply =>
    rw [numberOf, hreply, Option.bind_some] at h
    rw [judgeWhole_of_reply hreply, judge, h]
    exact ⟨_, rfl, not_false⟩

/-- A line is passed over exactly if it is a well-formed reply with a smaller number. -/
theorem judgeWhole_eq_stale {id : Nat} {line : Line} :
    judgeWhole id line = .stale ↔ ∃ number, numberOf line = some number ∧ number < id := by
  cases hnumber : numberOf line with
  | none =>
    obtain ⟨fault, hjudged, -⟩ := judgeWhole_of_no_number hnumber id
    simp [hjudged]
  | some got =>
    rw [judgeWhole_of_number hnumber]
    by_cases hlt : got < id
    · simp [hlt]
    · by_cases hne : got = id <;> simp [hlt, hne]

/-- Where lines are replies to successive requests, a request reads up to its own reply. -/
theorem attend_numbered {id before : Nat} {lines : List Line} (hbefore : before < id)
    (hnumbered : ∀ n line, lines[n]? = some line → numberOf line = some (before + n + 1)) :
    match (attend id lines).1 with
    | none => before + lines.length < id
    | some result => before + (attended id lines).length = id ∧
        ∃ line, lines[id - 1 - before]? = some line ∧ judgeWhole id line = .settled result := by
  have passed_below : ∀ {passed rest : List Line}, lines = passed ++ rest →
      (∀ line ∈ passed, judgeWhole id line = .stale) → before + passed.length < id := by
    intro passed rest hlines hstale
    cases hlast : passed.getLast? with
    | none =>
      rw [List.getLast?_eq_none_iff.mp hlast]
      exact hbefore
    | some last =>
      obtain ⟨front, rfl⟩ := List.getLast?_eq_some_iff.mp hlast
      obtain ⟨number, hnumber, hlt⟩ := judgeWhole_eq_stale.mp (hstale last (by simp))
      have hown := hnumbered front.length last (by rw [hlines]; simp)
      rw [hnumber] at hown
      have := Option.some.inj hown
      rw [List.length_append, List.length_singleton]
      omega
  obtain ⟨hsplit, hreads, hleft⟩ := attend_reads id lines
  cases hresult : (attend id lines).1 with
  | none =>
    rw [hresult] at hreads
    rw [hleft hresult, List.append_nil] at hsplit
    have hbelow := passed_below (List.append_nil lines).symm (by rw [hsplit]; exact hreads)
    exact hbelow
  | some result =>
    rw [hresult] at hreads
    obtain ⟨passed, last, hread, hpassed, hlast⟩ := hreads
    have hlines : lines = passed ++ (last :: (attend id lines).2) := by
      rw [hread, List.append_assoc, List.singleton_append] at hsplit
      exact hsplit
    have hbelow := passed_below hlines hpassed
    have hat : lines[passed.length]? = some last := by
      rw [hlines]
      simp
    have hown := hnumbered passed.length last hat
    have hreached : ¬before + passed.length + 1 < id := by
      intro hlt
      rw [judgeWhole_eq_stale.mpr ⟨_, hown, hlt⟩] at hlast
      cases hlast
    have hplace : id - 1 - before = passed.length := by omega
    rw [hread, List.length_append, List.length_singleton, hplace]
    exact ⟨by omega, last, hat, hlast⟩

end RemoteHost.Wire
