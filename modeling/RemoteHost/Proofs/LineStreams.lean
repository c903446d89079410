import RemoteHost.Proofs.TextValidity
import RemoteHost.Wire.Lines

/-!
# What a stream of lines delivers

The lines of a stream are what stands between its line breaks, with what comes after the last one
once the stream is over. Those before the first that is no text deliver the values that they are
JSON for. However the stream is cut into chunks, an inlet delivers these values.
-/

namespace RemoteHost.Wire

/-! ## Streams -/

/-- What comes after the last line break. -/
def unfinishedLine (bytes : List UInt8) : List UInt8 := (bytes.splitOn lineBreak).getLastD []

/-- The lines of a stream. The last one needs no line break once the stream is over. -/
def streamLines (bytes : List UInt8) (ended : Bool) : List (List UInt8) :=
  (bytes.splitOn lineBreak).dropLast ++
    if ended && unfinishedLine bytes != [] then [unfinishedLine bytes] else []

def isText (line : List UInt8) : Bool := (Text.decode? line).isSome

/-- The value of a line that is JSON. A blank line is none. -/
def lineValue? (line : List UInt8) : Option Json :=
  (Text.decode? line).bind fun text =>
    if Text.isBlankText text then none else (Json.parse text).toOption

/-- The values of some lines, up to the first line that is no text. -/
def lineValues (lines : List (List UInt8)) : List Json :=
  (lines.takeWhile isText).filterMap lineValue?

def streamValues (bytes : List UInt8) (ended : Bool) : List Json :=
  lineValues (streamLines bytes ended)

theorem isText_iff {line : List UInt8} : isText line = true ↔ ∃ text, Text.bytes text = line := by
  rw [isText, Option.isSome_iff_exists]
  exact exists_congr fun text => Text.decode?_eq_some_iff

theorem lineValue?_bytes (text : String) : lineValue? (Text.bytes text) =
    if Text.isBlankText text then none else (Json.parse text).toOption := by
  rw [lineValue?, Text.decode?_bytes]
  rfl

/-- Lines go on delivering as long as all of them are text. -/
theorem lineValues_append (lines more : List (List UInt8)) : lineValues (lines ++ more) =
    lineValues lines ++ if lines.all isText then lineValues more else [] := by
  induction lines with
  | nil => rfl
  | cons line rest ih =>
    by_cases htext : isText line = true
    · have hone : ∀ others, lineValues (line :: others) =
          (lineValue? line).toList ++ lineValues others := fun others => by
        rw [lineValues, List.takeWhile_cons_of_pos htext]
        cases hvalue : lineValue? line <;> simp [hvalue, lineValues]
      rw [List.cons_append, hone, hone, ih, List.all_cons, htext, Bool.true_and,
        List.append_assoc]
    · simp [lineValues, htext]

/-! ## Cutting -/

theorem cutLines_eq (bytes : List UInt8) :
    cutLines bytes = ((bytes.splitOn lineBreak).dropLast, unfinishedLine bytes) := by
  unfold unfinishedLine
  induction bytes with
  | nil => simp [cutLines]
  | cons b rest ih =>
    have hsplit : (b :: rest).splitOn lineBreak = if b = lineBreak then
        [] :: rest.splitOn lineBreak else (rest.splitOn lineBreak).modifyHead (b :: ·) := by
      simp only [List.splitOn_eq_splitOnP, List.splitOnP_cons_eq_if_modifyHead, beq_iff_eq]
    have hne : rest.splitOn lineBreak ≠ [] := by
      rw [List.splitOn_eq_splitOnP]
      exact List.splitOnP_ne_nil _ _
    rw [cutLines, ih, hsplit]
    cases hpieces : rest.splitOn lineBreak with
    | nil => exact absurd hpieces hne
    | cons first others =>
      by_cases hb : b = lineBreak
      · simp [hb]
      · cases others <;> simp [hb]

theorem cutLines_append (bytes more : List UInt8) : cutLines (bytes ++ more) =
    ((cutLines bytes).1 ++ (cutLines ((cutLines bytes).2 ++ more)).1,
      (cutLines ((cutLines bytes).2 ++ more)).2) := by
  induction bytes with
  | nil => rfl
  | cons b rest ih =>
    rw [List.cons_append, cutLines, ih, cutLines]
    cases cutLines rest with
    | mk lines last =>
      by_cases hb : b = lineBreak
      · simp [hb]
      · cases lines <;> simp [hb, cutLines]

theorem streamValues_false (bytes : List UInt8) :
    streamValues bytes false = lineValues (cutLines bytes).1 := by
  simp [streamValues, streamLines, cutLines_eq]

/-! ## Inlets -/

namespace Inlet

/-- An inlet takes what the lines deliver, unless a broken one came before. -/
theorem take_eq (broken : Bool) (lines : List (List UInt8)) : take broken lines =
    (if broken then [] else lineValues lines, broken || !lines.all isText) := by
  induction lines generalizing broken with
  | nil => cases broken <;> rfl
  | cons line rest ih =>
    cases broken with
    | true => rfl
    | false =>
      rw [take, if_neg Bool.false_ne_true, LineContent.ofBytes]
      cases hread : Text.decode? line with
      | none => simp [isText, hread, lineValues]
      | some text =>
        have htext : isText line = true := by simp [isText, hread]
        have hvalue : lineValue? line =
            if Text.isBlankText text then none else (Json.parse text).toOption := by
          simp [lineValue?, hread]
        rw [lineValues, List.takeWhile_cons_of_pos htext, List.all_cons, htext]
        dsimp only
        by_cases hblank : Text.isBlankText text = true
        · simp [hblank, hvalue, ih, lineValues]
        · cases hparse : Json.parse text <;>
            simp [hblank, hvalue, hparse, ih, lineValues, Except.toOption]

/-- An inlet to which these bytes have come. -/
structure Holds (inlet : Inlet) (bytes : List UInt8) : Prop where
  partialLine : inlet.partialLine = (cutLines bytes).2
  broken : inlet.broken = !(cutLines bytes).1.all isText

variable {inlet : Inlet} {bytes : List UInt8}

theorem holds_nothing : Holds {} [] := ⟨rfl, rfl⟩

/-- A chunk goes on where the last one ended. -/
theorem Holds.feed (h : inlet.Holds bytes) (chunk : List UInt8) :
    (inlet.feed chunk).2.Holds (bytes ++ chunk) ∧
      streamValues (bytes ++ chunk) false = streamValues bytes false ++ (inlet.feed chunk).1 := by
  have hcut := cutLines_append bytes chunk
  have hfeed : inlet.feed chunk =
      ((take inlet.broken (cutLines ((cutLines bytes).2 ++ chunk)).1).1,
        ⟨(cutLines ((cutLines bytes).2 ++ chunk)).2,
          (take inlet.broken (cutLines ((cutLines bytes).2 ++ chunk)).1).2⟩) := by
    rw [Inlet.feed, h.partialLine]
  rw [hfeed, take_eq, h.broken]
  refine ⟨⟨by rw [hcut], ?_⟩, ?_⟩
  · rw [hcut, List.all_append, Bool.not_and]
  · rw [streamValues_false, streamValues_false, hcut, lineValues_append]
    cases (cutLines bytes).1.all isText <;> rfl

/-- At the end an unfinished line counts, if there is one. -/
theorem Holds.finish (h : inlet.Holds bytes) :
    streamValues bytes true = streamValues bytes false ++ inlet.finish := by
  have hlast : unfinishedLine bytes = inlet.partialLine := by
    rw [h.partialLine, cutLines_eq]
  rw [streamValues, streamLines, lineValues_append, hlast, Inlet.finish, take_eq, h.broken,
    cutLines_eq, streamValues, streamLines]
  cases inlet.partialLine with
  | nil => simp [lineValues]
  | cons b rest => cases ((bytes.splitOn lineBreak).dropLast).all isText <;> simp

end Inlet

/-- What a stream has delivered stays delivered. -/
theorem streamValues_prefix (bytes more : List UInt8) (ended : Bool) :
    streamValues bytes false <+: streamValues (bytes ++ more) ended := by
  have hholds : Inlet.Holds ⟨(cutLines bytes).2, !(cutLines bytes).1.all isText⟩ bytes := ⟨rfl, rfl⟩
  obtain ⟨hmore, hvalues⟩ := hholds.feed more
  have hprefix : streamValues bytes false <+: streamValues (bytes ++ more) false :=
    ⟨_, hvalues.symm⟩
  cases ended with
  | false => exact hprefix
  | true => exact hprefix.trans ⟨_, hmore.finish.symm⟩

end RemoteHost.Wire
