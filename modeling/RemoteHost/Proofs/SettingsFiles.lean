import RemoteHost.CommandLine.Run
import RemoteHost.Proofs.JsonMembers
import RemoteHost.Proofs.TextBytes

/-!
# Settings files are read back

A file with some fields of a record of settings, in any order and among any other keys, loads as
those fields over the defaults, provided that the result passes its check. A file that was saved has
all fields, so that it loads as the settings it was saved from.
-/

namespace RemoteHost

open Text (Glyph)

namespace SettingsField

/-- The value of a field in a file. -/
def json (s : Settings) : SettingsField → Json
  | .handleTable => .string s.handleTable
  | .resultSlot => .string s.resultSlot
  | .envelopeHelper => .string s.envelopeHelper
  | .callbackHelper => .string s.callbackHelper
  | .hostModule => .string s.hostModule
  | .callbackHost => .string s.callbackHost
  | .maxChainLength => (s.maxChainLength.map Json.ofNat).getD .null
  | .stepConflict => .string s.stepConflict.name
  | .debug => .bool s.debug

theorem json_isScalar (s : Settings) (f : SettingsField) : (f.json s).IsScalar := by
  cases f with
  | maxChainLength =>
    unfold json
    cases s.maxChainLength <;> trivial
  | _ => trivial

theorem ofName?_name (f : SettingsField) : ofName? f.name = some f := by cases f <;> decide

/-- Takes one field over from other settings. -/
def copy (c s : Settings) : SettingsField → Settings
  | .handleTable => { s with handleTable := c.handleTable }
  | .resultSlot => { s with resultSlot := c.resultSlot }
  | .envelopeHelper => { s with envelopeHelper := c.envelopeHelper }
  | .callbackHelper => { s with callbackHelper := c.callbackHelper }
  | .hostModule => { s with hostModule := c.hostModule }
  | .callbackHost => { s with callbackHost := c.callbackHost }
  | .maxChainLength => { s with maxChainLength := c.maxChainLength }
  | .stepConflict => { s with stepConflict := c.stepConflict }
  | .debug => { s with debug := c.debug }

theorem set_json (c s : Settings) (f : SettingsField) : f.set s (f.json c) = .ok (f.copy c s) := by
  cases f with
  | maxChainLength =>
    cases hlimit : c.maxChainLength with
    | none => simp [set, json, copy, hlimit, Json.asOptionalCount, bind, Except.bind]
    | some n =>
      simp [set, json, copy, hlimit, Json.ofNat, Json.asOptionalCount, Json.countOf, Except.map,
        bind, Except.bind]
  | stepConflict =>
    cases hpolicy : c.stepConflict <;> simp only [set, json, copy, hpolicy] <;> rfl
  | _ => rfl

end SettingsField

namespace Settings

theorem fields_eq (s : Settings) : s.fields = SettingsField.all.map fun f => (f.name, f.json s) :=
  rfl

/-- The defaults with some fields of other settings. -/
def overridden (c : Settings) (fs : List SettingsField) : Settings :=
  let d : Settings := {}
  { handleTable := if .handleTable ∈ fs then c.handleTable else d.handleTable
    resultSlot := if .resultSlot ∈ fs then c.resultSlot else d.resultSlot
    envelopeHelper := if .envelopeHelper ∈ fs then c.envelopeHelper else d.envelopeHelper
    callbackHelper := if .callbackHelper ∈ fs then c.callbackHelper else d.callbackHelper
    hostModule := if .hostModule ∈ fs then c.hostModule else d.hostModule
    callbackHost := if .callbackHost ∈ fs then c.callbackHost else d.callbackHost
    maxChainLength := if .maxChainLength ∈ fs then c.maxChainLength else d.maxChainLength
    stepConflict := if .stepConflict ∈ fs then c.stepConflict else d.stepConflict
    debug := if .debug ∈ fs then c.debug else d.debug }

variable {c : Settings}

theorem overridden_all : c.overridden SettingsField.all = c := rfl

theorem overridden_concat (fs : List SettingsField) (f : SettingsField) :
    c.overridden (fs ++ [f]) = f.copy c (c.overridden fs) := by
  cases f <;> simp [overridden, SettingsField.copy]

theorem foldl_copy (fs : List SettingsField) :
    fs.foldl (fun s f => f.copy c s) {} = c.overridden fs := by
  induction fs using List.reverseRecOn with
  | nil => rfl
  | append_singleton fs f ih =>
    rw [List.foldl_append, ih, overridden_concat]
    rfl

/-- Settings that pass their check, or what is wrong with them. -/
def accepted (s : Settings) : Except LoadFault Settings :=
  match s.check with
  | .error fault => .error (.invalid fault)
  | .ok () => .ok s

/-! ## Fields of a file -/

section Scalars

open Json (ScalarAt skipBlanks)

variable {text rest : List Glyph}

theorem readText_eq {expected value : String}
    (h : ScalarAt (.string value) (skipBlanks text) rest) :
    File.readText expected (skipBlanks text) = .ok (value, rest) := by
  rw [File.readText, Json.skipBlanks_skipBlanks]
  generalize skipBlanks text = start at h
  cases h with
  | string h => exact h

theorem readScalar_debug {b : Bool} (h : ScalarAt (.bool b) (skipBlanks text) rest) :
    File.readScalar .debug text = .ok (.bool b, rest) := by
  rw [File.readScalar]
  generalize skipBlanks text = start at h
  cases h with
  | true h | false h => exact Json.readWord_of_unit h

theorem readScalar_null (h : ScalarAt .null (skipBlanks text) rest) :
    File.readScalar .maxChainLength text = .ok (.null, rest) := by
  rw [File.readScalar]
  generalize skipBlanks text = start at h
  cases h with
  | null h => exact Json.readWord_of_unit h

theorem readScalar_number {n : JsonNumber} (h : ScalarAt (.number n) (skipBlanks text) rest) :
    File.readScalar .maxChainLength text = .ok (.number n, rest) := by
  rw [File.readScalar]
  generalize skipBlanks text = start at h
  cases h with
  | @negative n text _ h =>
    change (Json.readNumber true text).map _ = _
    rw [h]
    rfl
  | @digit c n text _ hdigit h =>
    dsimp only
    split
    case h_1 heq | h_2 heq =>
      cases heq
      exact absurd hdigit (by decide)
    case h_3 heq =>
      obtain ⟨rfl, rfl⟩ := List.cons.inj heq
      rw [if_pos (by rw [Json.digitValue?_of_isDigit hdigit]; rfl), h]
      rfl
    case h_4 heq => cases heq

theorem variantNamed_name (policy : ConflictPolicy) :
    Json.variantNamed (named ConflictPolicy.name ConflictPolicy.all) policy.name = .ok policy := by
  cases policy <;> rfl

theorem readScalar_policy {policy : ConflictPolicy}
    (h : ScalarAt (.string policy.name) (skipBlanks text) rest) :
    File.readScalar .stepConflict text = .ok (.string policy.name, rest) := by
  have htext : File.readText "variant identifier" (skipBlanks text) = .ok (policy.name, rest) :=
    readText_eq h
  have hvariant : File.readVariant (named ConflictPolicy.name ConflictPolicy.all)
      (skipBlanks text) = .ok (policy, rest) := by
    rw [File.readVariant, Json.skipBlanks_skipBlanks]
    generalize skipBlanks text = start at h htext
    cases h with
    | @string _ text _ h =>
      change (File.readText "variant identifier" (.char '"' :: text) >>= _) = _
      rw [htext]
      simp only [bind, Except.bind, variantNamed_name]
  rw [File.readScalar, hvariant]
  rfl

/-- A field is read off its value. -/
theorem readField_eq {s : Settings} {f : SettingsField}
    (h : ScalarAt (f.json c) (skipBlanks text) rest) :
    File.readField s f text = .ok (f.copy c s, rest) := by
  have hscalar : File.readScalar f text = .ok (f.json c, rest) := by
    cases f with
    | debug => exact readScalar_debug h
    | maxChainLength =>
      unfold SettingsField.json at h ⊢
      cases hlimit : c.maxChainLength with
      | none => exact readScalar_null (by rwa [hlimit] at h)
      | some n => exact readScalar_number (by rwa [hlimit] at h)
    | stepConflict => exact readScalar_policy h
    | _ =>
      rw [File.readScalar]
      · dsimp only
        rw [readText_eq h]
        rfl
      all_goals nofun
  rw [File.readField, hscalar]
  simp only [bind, Except.bind, SettingsField.set_json]

end Scalars

/-! ## Files -/

/-- The known fields among the members of an object. -/
def knownFields {α : Type} (members : List (String × α)) : List SettingsField :=
  members.filterMap fun member => SettingsField.ofName? member.1

/-- An object that has just the given fields of some settings, once each, and any unknown keys. -/
structure Lists (c : Settings) (fs : List SettingsField) (members : List (String × List Glyph)) :
    Prop where
  known : knownFields members = fs
  once : fs.Nodup
  values : ∀ member ∈ members, ∀ f, SettingsField.ofName? member.1 = some f →
    ∃ rest, Json.readValue member.2 = .ok (f.json c, rest)

theorem readFields_eq {first : Bool} {text rest : List Glyph} {members : List (String × List Glyph)}
    (h : Json.Members first text members rest)
    (hvalues : ∀ member ∈ members, ∀ f, SettingsField.ofName? member.1 = some f →
      ∃ rest, Json.readValue member.2 = .ok (f.json c, rest))
    {seen : List SettingsField} (honce : (seen ++ knownFields members).Nodup)
    {fuel : Nat} (hfuel : members.length < fuel) (s : Settings) :
    File.readFields fuel seen s first text =
      .ok ((knownFields members).foldl (fun s f => f.copy c s) s, rest) := by
  induction h generalizing seen fuel s with
  | none hend =>
    obtain ⟨fuel, rfl⟩ := Nat.exists_eq_add_of_le' (Nat.zero_lt_of_lt hfuel)
    rw [File.readFields, hend]
    rfl
  | @more first text inner inner' key afterKey start afterValue members rest hnext hkey hcolon
      hvalue _ ih =>
    obtain ⟨fuel, rfl⟩ := Nat.exists_eq_add_of_le' (Nat.zero_lt_of_lt hfuel)
    have hmore : members.length < fuel := by simpa using hfuel
    have hrest := List.forall_mem_of_forall_mem_cons hvalues
    rw [File.readFields, hnext]
    simp only [bind, Except.bind, hkey]
    cases hname : SettingsField.ofName? key with
    | none =>
      have hknown : knownFields ((key, start) :: members) = knownFields members := by
        simp [knownFields, hname]
      rw [hknown] at honce ⊢
      simp only [hcolon, hvalue]
      exact ih hrest honce hmore s
    | some f =>
      have hknown : knownFields ((key, start) :: members) = f :: knownFields members := by
        simp [knownFields, hname]
      rw [hknown] at honce ⊢
      obtain ⟨after, hread⟩ := hvalues _ List.mem_cons_self f hname
      have hscalar := Json.scalarAt_of_readValueWith hread (f.json_isScalar c)
      obtain rfl : after = afterValue := Except.ok.inj (hscalar.skipValue_eq.symm.trans hvalue)
      have hfresh : seen.contains f = false := by
        rw [List.contains_eq_mem, decide_eq_false_iff_not]
        exact fun hf => (List.nodup_append.mp honce).2.2 f hf f List.mem_cons_self rfl
      have honce' : ((f :: seen) ++ knownFields members).Nodup :=
        (List.perm_middle.nodup_iff).mp honce
      simp only [hfresh, Bool.false_eq_true, if_false, hcolon, readField_eq hscalar]
      exact ih hrest honce' hmore _

theorem Lists.load_eq {fs : List SettingsField} {text : List Glyph}
    {members : List (String × List Glyph)} (hobject : Json.IsObject text members)
    (h : c.Lists fs members) : load text = (c.overridden fs).accepted := by
  obtain ⟨inner, rest, htext, hmembers, hend⟩ := hobject
  have hfuel : members.length < text.length + 1 :=
    Nat.lt_succ_of_lt (hmembers.length_lt htext)
  have honce : ([] ++ knownFields members).Nodup := by
    rw [List.nil_append, h.known]
    exact h.once
  have hread : File.readAll text = .ok (c.overridden fs) := by
    rw [File.readAll, htext]
    simp only [readFields_eq hmembers h.values honce hfuel, bind, Except.bind, hend, h.known,
      foldl_copy]
  rw [load, hread]
  rfl

/-! ## Saved files -/

/-- Settings whose chain length has at most 64 bits. -/
def IsSized (c : Settings) : Prop := ∀ n ∈ c.maxChainLength, n < Nat.pow 2 64

theorem IsSized.json_isPlain (h : c.IsSized) (f : SettingsField) : (f.json c).IsPlain := by
  cases f with
  | maxChainLength =>
    unfold SettingsField.json
    cases hlimit : c.maxChainLength with
    | none => exact .null
    | some n => exact .count (h n hlimit)
  | debug => exact .bool _
  | _ => exact .string _

/-- Fields that were written are listed, and so are those among other keys. -/
theorem lists_of_spells {fields : List (String × Json)} (honce : (knownFields fields).Nodup)
    (hvalues : ∀ field ∈ fields, ∀ f, SettingsField.ofName? field.1 = some f →
      field.2 = f.json c)
    {members : List (String × List Glyph)} (h : List.Forall₂ Json.Spells members fields) :
    c.Lists (knownFields fields) members := by
  refine ⟨?_, honce, ?_⟩
  · clear honce hvalues
    induction h with
    | nil => rfl
    | cons hmember _ ih =>
      unfold knownFields at ih ⊢
      rw [List.filterMap_cons, List.filterMap_cons, hmember.1, ih]
  · clear honce
    induction h with
    | nil => exact nofun
    | cons hmember _ ih =>
      refine List.forall_mem_cons.mpr ⟨?_, ih (List.forall_mem_of_forall_mem_cons hvalues)⟩
      intro f hf
      obtain ⟨hname, rest, hscalar⟩ := hmember
      have hvalue := hvalues _ List.mem_cons_self f (hname ▸ hf)
      exact ⟨rest, (hvalue ▸ hscalar).readValueWith_eq _ _⟩

/-- The files of a system once settings are saved at a path. -/
def saved (c : Settings) (path : String) (files : String → Except IoFault (List Glyph)) :
    String → Except IoFault (List Glyph) :=
  fun p => if p = path then .ok (Text.decode (Text.bytes c.fileText)) else files p

theorem load_fileText (h : c.IsSized) : load (Text.glyphs c.fileText) = c.accepted := by
  have hplain : ∀ field ∈ c.fields, field.2.IsPlain := by
    rw [fields_eq]
    exact List.forall_mem_map.mpr fun f _ => h.json_isPlain f
  have hvalues : ∀ field ∈ c.fields, ∀ f, SettingsField.ofName? field.1 = some f →
      field.2 = f.json c := by
    rw [fields_eq]
    refine List.forall_mem_map.mpr fun f _ f' hf' => ?_
    rw [SettingsField.ofName?_name] at hf'
    rw [Option.some.inj hf']
  have hknown : knownFields c.fields = SettingsField.all := by
    simp [fields_eq, knownFields, List.filterMap_map, SettingsField.ofName?_name]
  have honce : (knownFields c.fields).Nodup := by
    rw [hknown]
    decide
  obtain ⟨members, hobject, hspells⟩ := Json.isObject_pretty hplain
  rw [fileText, (lists_of_spells honce hvalues hspells).load_eq hobject, hknown, overridden_all]

/-- Settings that were saved are loaded as they were, or refused for what their check says; and a
file with some of their fields loads as these fields over the defaults, whatever their order and the
other keys in the file. -/
theorem load_saved_and_listed :
    (∀ (c : Settings) (files : String → Except IoFault (List Glyph)) (path : String), c.IsSized →
      CommandLine.loadSettings (c.saved path files) (some path) = c.accepted) ∧
    ∀ (c : Settings) (fs : List SettingsField) (files : String → Except IoFault (List Glyph))
      (path : String) (text : List Glyph) (members : List (String × List Glyph)),
      files path = .ok text → Json.IsObject text members → c.Lists fs members →
        CommandLine.loadSettings files (some path) = (c.overridden fs).accepted := by
  constructor
  · intro c files path hsized
    rw [CommandLine.loadSettings, saved, if_pos rfl, Text.decode_bytes]
    exact load_fileText hsized
  · intro c fs files path text members hfile hobject hlists
    rw [CommandLine.loadSettings, hfile]
    exact hlists.load_eq hobject

/-- Settings of a host on all interfaces. -/
def exposed : Settings :=
  { callbackHost := "0.0.0.0", maxChainLength := some 7, debug := true }

/-- A file with two of their fields and a key of another program. -/
def shortFile : List (String × Json) :=
  [("debug", .bool true), ("theme", .string "dark\n"), ("callback_host", .string "0.0.0.0")]

theorem load_exposed :
    CommandLine.loadSettings (exposed.saved "settings.json" fun _ => .error .notFound)
      (some "settings.json") = .ok exposed ∧
    CommandLine.loadSettings (fun _ => .ok (Text.glyphs (Json.object shortFile).compact))
      (some "settings.json") = .ok { callbackHost := "0.0.0.0", debug := true } := by
  have hplain : ∀ field ∈ shortFile, field.2.IsPlain := by
    simp only [shortFile, List.forall_mem_cons]
    exact ⟨.bool _, .string _, .string _, nofun⟩
  have honce : (knownFields shortFile).Nodup := by decide
  have hvalues : ∀ field ∈ shortFile, ∀ f, SettingsField.ofName? field.1 = some f →
      field.2 = f.json exposed := by
    simp only [shortFile, List.forall_mem_cons]
    refine ⟨fun f hf => ?_, nofun, fun f hf => ?_, nofun⟩
    · obtain rfl : .debug = f := Option.some.inj hf
      rfl
    · obtain rfl : .callbackHost = f := Option.some.inj hf
      rfl
  obtain ⟨members, hobject, hspells⟩ := Json.isObject_compact hplain
  constructor
  · have hsized : exposed.IsSized := by
      rintro n ⟨⟩
      decide
    rw [load_saved_and_listed.1 exposed _ _ hsized]
    rfl
  · rw [load_saved_and_listed.2 exposed _ _ _ _ members rfl hobject
      (lists_of_spells honce hvalues hspells)]
    rfl

end Settings

end RemoteHost
