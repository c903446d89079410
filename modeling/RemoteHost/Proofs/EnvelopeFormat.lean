import Mathlib.Data.List.Forall2
import RemoteHost.Evaluation

/-!
# The envelope format

Which JSON values spell which envelopes, apart from how they are read. The reader accepts these
and nothing else, and an envelope is read back from what it is written as. A list gives keys if all
of its items are strings.
-/

namespace RemoteHost

/-- The first field of that name has that value. -/
inductive HasField (name : String) (value : Json) : List (String × Json) → Prop
  | first (rest) : HasField name value ((name, value) :: rest)
  | later {other content rest} (differs : other ≠ name) (found : HasField name value rest) :
    HasField name value ((other, content) :: rest)

namespace HasField

variable {name : String} {value content : Json} {other : String} {rest : List (String × Json)}

@[simp] theorem not_nil : ¬ HasField name value [] := nofun

theorem cons_self : HasField name value ((name, content) :: rest) ↔ content = value := by
  constructor
  · rintro (_ | ⟨differs, _⟩)
    · rfl
    · exact absurd rfl differs
  · rintro rfl
    exact first rest

theorem cons_of_ne (differs : other ≠ name) :
    HasField name value ((other, content) :: rest) ↔ HasField name value rest := by
  constructor
  · rintro (_ | ⟨_, found⟩)
    · exact absurd rfl differs
    · exact found
  · exact later differs

end HasField

/-- The fields of an envelope besides its kind. -/
def Kind.fieldNames : Kind → List String
  | .primitive => ["value"]
  | .handle => ["key"]
  | .none => []
  | .error => ["message"]

/-- The envelope that a kind and the values of its fields determine. Keys and messages are strings;
a primitive is any value. -/
inductive Kind.Determines : Kind → List Json → Envelope → Prop
  | primitive (value) : Determines .primitive [value] (.primitive value)
  | handle (key) : Determines .handle [.string key] (.handle key)
  | none : Determines .none [] .none
  | error (message) : Determines .error [.string message] (.error message)

namespace Kind

variable {contents : List Json} {e : Envelope}

theorem determines_primitive :
    Determines .primitive contents e ↔ ∃ value, contents = [value] ∧ .primitive value = e :=
  ⟨fun | .primitive value => ⟨value, rfl, rfl⟩, by rintro ⟨value, rfl, rfl⟩; exact .primitive value⟩

theorem determines_handle :
    Determines .handle contents e ↔ ∃ key, contents = [.string key] ∧ .handle key = e :=
  ⟨fun | .handle key => ⟨key, rfl, rfl⟩, by rintro ⟨key, rfl, rfl⟩; exact .handle key⟩

theorem determines_none : Determines .none contents e ↔ contents = [] ∧ .none = e :=
  ⟨fun | .none => ⟨rfl, rfl⟩, by rintro ⟨rfl, rfl⟩; exact .none⟩

theorem determines_error :
    Determines .error contents e ↔
      ∃ message, contents = [.string message] ∧ .error message = e :=
  ⟨fun | .error message => ⟨message, rfl, rfl⟩,
    by rintro ⟨message, rfl, rfl⟩; exact .error message⟩

end Kind

/-- The values that spell an envelope: an object with its kind and its fields and whatever else, or
an array of its kind and its fields and nothing else. -/
inductive Spells : Json → Envelope → Prop
  | object {fields : List (String × Json)} {kind : Kind} {contents : List Json} {e : Envelope}
    (named : HasField "kind" (.string kind.name) fields)
    (present : List.Forall₂ (fun name content => HasField name content fields)
      kind.fieldNames contents)
    (determined : kind.Determines contents e) : Spells (.object fields) e
  | array {kind : Kind} {contents : List Json} {e : Envelope}
    (determined : kind.Determines contents e) : Spells (.array (.string kind.name :: contents)) e

theorem findField_eq_some {name : String} {value : Json} {fields : List (String × Json)} :
    Json.findField name fields = some value ↔ HasField name value fields := by
  induction fields with
  | nil => simp [Json.findField]
  | cons field rest ih =>
    obtain ⟨other, content⟩ := field
    by_cases h : other = name
    · subst h
      rw [HasField.cons_self]
      simp [Json.findField]
    · rw [HasField.cons_of_ne h, ← ih]
      simp [Json.findField, h]

namespace Envelope

theorem needed_eq_ok {name : String} {value : Json} {fields : List (String × Json)} :
    needed name fields = .ok value ↔ HasField name value fields := by
  rw [← findField_eq_some, needed]
  cases Json.findField name fields <;> simp

theorem asString_eq_ok {v : Json} {text : String} :
    Json.asString v = .ok text ↔ v = .string text := by
  cases v <;> simp [Json.asString]

theorem bind_eq_ok {ε α β : Type} {x : Except ε α} {f : α → Except ε β} {b : β} :
    x >>= f = .ok b ↔ ∃ a, x = .ok a ∧ f a = .ok b := by
  cases x <;> simp [bind, Except.bind]

theorem map_eq_ok {ε α β : Type} {x : Except ε α} {f : α → β} {b : β} :
    x.map f = .ok b ↔ ∃ a, x = .ok a ∧ f a = b := by
  cases x <;> simp [Except.map]

theorem kindOfJson_string {name : String} {kind : Kind} :
    kindOfJson (.string name) = .ok kind ↔ name = kind.name := by
  constructor
  · intro h
    by_cases hp : name = "primitive"
    · subst hp; cases h; rfl
    by_cases hh : name = "handle"
    · subst hh; cases h; rfl
    by_cases hn : name = "none"
    · subst hn; cases h; rfl
    by_cases he : name = "error"
    · subst he; cases h; rfl
    have hunknown : (named Kind.name Kind.all).find? (·.1 == name) = Option.none := by
      simp [named, Kind.all, Kind.name, Ne.symm hp, Ne.symm hh, Ne.symm hn, Ne.symm he]
    simp [kindOfJson, Json.variantNamed, hunknown] at h
  · rintro rfl
    cases kind <;> rfl

theorem kindOfJson_eq_ok {v : Json} {kind : Kind} :
    kindOfJson v = .ok kind ↔ v = .string kind.name := by
  cases v with
  | string name => simp [kindOfJson_string]
  | _ => simp [kindOfJson]

theorem single_eq_ok {variant : String} {items : List Json} {item : Json} :
    single variant items = .ok item ↔ items.head? = some item := by
  cases items <;> simp [single]

theorem noMore_eq_ok {items : List Json} {expected : Nat} {text : String} {u : Unit} :
    noMore items expected text = .ok u ↔ items.length = expected := by
  by_cases h : items.length = expected <;> simp [noMore, h]

/-- The only item of a list is its head, and nothing comes after it. -/
theorem head_and_length_one {items : List Json} {item : Json} :
    items.head? = some item ∧ items.length = 1 ↔ items = [item] := by
  cases items <;> simp

theorem ofItems_eq_ok {items : List Json} {kind : Kind} {e : Envelope} :
    ofItems items kind = .ok e ↔ kind.Determines items e := by
  have hone (item : Json) : items = [item] ↔ items.head? = some item ∧ items.length = 1 :=
    head_and_length_one.symm
  cases kind with
  | primitive =>
    simp only [ofItems, bind_eq_ok, single_eq_ok, noMore_eq_ok, Except.ok.injEq,
      Kind.determines_primitive, hone]
    grind
  | handle =>
    simp only [ofItems, bind_eq_ok, single_eq_ok, asString_eq_ok, noMore_eq_ok, Except.ok.injEq,
      Kind.determines_handle, hone]
    grind
  | none =>
    simp only [ofItems, bind_eq_ok, noMore_eq_ok, Except.ok.injEq, Kind.determines_none,
      List.length_eq_zero_iff]
    grind
  | error =>
    simp only [ofItems, bind_eq_ok, single_eq_ok, asString_eq_ok, noMore_eq_ok, Except.ok.injEq,
      Kind.determines_error, hone]
    grind

/-- An object that has the one field `name` has it with some content. -/
theorem present_one {name : String} {fields : List (String × Json)} {P : List Json → Prop} :
    (∃ contents, List.Forall₂ (fun name content => HasField name content fields)
        [name] contents ∧ P contents) ↔ ∃ content, HasField name content fields ∧ P [content] := by
  simp [List.forall₂_cons_left_iff]

theorem ofFields_eq_ok {fields : List (String × Json)} {kind : Kind} {e : Envelope} :
    ofFields fields kind = .ok e ↔
      ∃ contents, List.Forall₂ (fun name content => HasField name content fields)
        kind.fieldNames contents ∧ kind.Determines contents e := by
  cases kind with
  | primitive =>
    simp [ofFields, map_eq_ok, needed_eq_ok, Kind.fieldNames, present_one,
      Kind.determines_primitive]
  | handle =>
    simp [ofFields, bind_eq_ok, needed_eq_ok, asString_eq_ok, Kind.fieldNames, present_one,
      Kind.determines_handle]
  | none => simp [ofFields, Kind.fieldNames, Kind.determines_none]
  | error =>
    simp [ofFields, bind_eq_ok, needed_eq_ok, asString_eq_ok, Kind.fieldNames, present_one,
      Kind.determines_error]

theorem ofJson_eq_ok {v : Json} {e : Envelope} : ofJson v = .ok e ↔ Spells v e := by
  constructor
  · intro h
    match v with
    | .object fields =>
      obtain ⟨tag, htag, htagged⟩ := bind_eq_ok.1 h
      obtain ⟨kind, hkind, hfields⟩ := bind_eq_ok.1 htagged
      obtain rfl := kindOfJson_eq_ok.1 hkind
      obtain ⟨contents, hpresent, hdetermined⟩ := ofFields_eq_ok.1 hfields
      exact .object (needed_eq_ok.1 htag) hpresent hdetermined
    | .array (first :: items) =>
      obtain ⟨kind, hkind, hitems⟩ := bind_eq_ok.1 h
      obtain rfl := kindOfJson_eq_ok.1 hkind
      exact .array (ofItems_eq_ok.1 hitems)
  · intro h
    cases h with
    | object named present determined =>
      exact bind_eq_ok.2 ⟨_, needed_eq_ok.2 named, bind_eq_ok.2 ⟨_, kindOfJson_eq_ok.2 rfl,
        ofFields_eq_ok.2 ⟨_, present, determined⟩⟩⟩
    | array determined =>
      exact bind_eq_ok.2 ⟨_, kindOfJson_eq_ok.2 rfl, ofItems_eq_ok.2 determined⟩

/-- What an envelope is written as spells it. -/
theorem spells_toJson (e : Envelope) : Spells e.toJson e := by
  cases e with
  | primitive value =>
    exact @Spells.object _ .primitive _ _ (.first _)
      (.cons (.later (by decide) (.first _)) .nil) (.primitive value)
  | handle key =>
    exact @Spells.object _ .handle _ _ (.later (by decide) (.first _))
      (.cons (.first _) .nil) (.handle key)
  | none => exact @Spells.object _ .none _ _ (.first _) .nil .none
  | error message =>
    exact @Spells.object _ .error _ _ (.first _)
      (.cons (.later (by decide) (.first _)) .nil) (.error message)

theorem outcome_eq_ok {e : Envelope} {o : Outcome} : e.outcome = .ok o ↔ e = ofOutcome o := by
  constructor
  · intro h
    cases e <;> cases h <;> rfl
  · rintro rfl
    exact outcome_ofOutcome o

end Envelope

/-- A reply has an outcome exactly when it spells that outcome's envelope. -/
theorem outcomeOfReply_eq_ok {v : Json} {o : Outcome} :
    outcomeOfReply v = .ok o ↔ Spells v (.ofOutcome o) := by
  rw [← Envelope.ofJson_eq_ok, outcomeOfReply]
  cases Envelope.ofJson v with
  | error mismatch => simp
  | ok e =>
    simp only [Except.ok.injEq, ← Envelope.outcome_eq_ok]
    cases e.outcome <;> simp

/-- A reply is malformed exactly when it spells no envelope. -/
theorem outcomeOfReply_malformed {v : Json} :
    (∃ mismatch, Envelope.ofJson v = .error mismatch ∧
      outcomeOfReply v = .error (.transport (.malformed (.envelope mismatch)))) ↔
      ∀ e, ¬ Spells v e := by
  simp only [← Envelope.ofJson_eq_ok, outcomeOfReply]
  cases Envelope.ofJson v <;> simp

/-- Envelopes are read from the values that spell them and from no others, every other value is
malformed, and writing and reading, or taking the outcome out and putting it back, changes nothing.
In particular a null is never taken for nothing at all. -/
theorem envelopes_read_as_spelled :
    (∀ v e, Envelope.ofJson v = .ok e ↔ Spells v e) ∧
    (∀ v, (∃ mismatch, Envelope.ofJson v = .error mismatch ∧
      outcomeOfReply v = .error (.transport (.malformed (.envelope mismatch)))) ↔
        ∀ e, ¬ Spells v e) ∧
    (∀ e : Envelope, Envelope.ofJson e.toJson = .ok e) ∧
    (∀ (e : Envelope) o, e.outcome = .ok o ↔ .ofOutcome o = e) ∧
    (∀ v o, outcomeOfReply v = .ok o ↔ Spells v (.ofOutcome o)) ∧
    ∀ v, ¬ (Spells v (.primitive .null) ∧ Spells v .none) := by
  refine ⟨fun _ _ => Envelope.ofJson_eq_ok, fun _ => outcomeOfReply_malformed,
    fun e => Envelope.ofJson_eq_ok.2 (Envelope.spells_toJson e),
    fun _ _ => Envelope.outcome_eq_ok.trans eq_comm, fun _ _ => outcomeOfReply_eq_ok, ?_⟩
  rintro v ⟨hnull, hnone⟩
  -- Reading is a function, so one value spells one envelope only.
  have hread := (Envelope.ofJson_eq_ok.2 hnull).symm.trans (Envelope.ofJson_eq_ok.2 hnone)
  cases hread

/-! ## Lists of keys -/

section HandleKeys

variable {keys : List String} {items rest : List Json} {item : Json}

/-- Whether a value is no text. -/
def Json.IsNoKey (item : Json) : Prop := ∀ key, item ≠ .string key

theorem handleKeys_cons_string (key : String) (items : List Json) :
    handleKeys (.array (.string key :: items)) = (handleKeys (.array items)).map (key :: ·) := by
  simp only [handleKeys, List.mapM_cons]
  cases List.mapM (m := Except TransportFault) _ items <;> rfl

theorem handleKeys_cons_other (h : item.IsNoKey) (items : List Json) :
    handleKeys (.array (item :: items)) = .error (.malformed (.listEntry item)) := by
  simp only [handleKeys, List.mapM_cons]
  cases item with
  | string key => exact absurd rfl (h key)
  | _ => rfl

/-- The keys of a list are its items, if all of them are strings. -/
theorem handleKeys_eq_ok {v : Json} :
    handleKeys v = .ok keys ↔ v = .array (keys.map .string) := by
  constructor
  · intro h
    cases v with
    | array items =>
      induction items generalizing keys with
      | nil =>
        cases h
        rfl
      | cons item items ih =>
        cases item with
        | string key =>
          rw [handleKeys_cons_string] at h
          obtain ⟨later, hlater, rfl⟩ := Envelope.map_eq_ok.mp h
          cases ih hlater
          rfl
        | _ =>
          rw [handleKeys_cons_other (by rintro key ⟨⟩)] at h
          cases h
    | _ => cases h
  · rintro rfl
    induction keys with
    | nil => rfl
    | cons key keys ih =>
      rw [List.map_cons, handleKeys_cons_string, ih]
      rfl

/-- The first item that is no string is reported. -/
theorem handleKeys_listEntry (h : item.IsNoKey) (keys : List String) (rest : List Json) :
    handleKeys (.array (keys.map .string ++ item :: rest)) =
      .error (.malformed (.listEntry item)) := by
  induction keys with
  | nil => exact handleKeys_cons_other h rest
  | cons key keys ih =>
    rw [List.map_cons, List.cons_append, handleKeys_cons_string, ih]
    rfl

end HandleKeys

end RemoteHost
