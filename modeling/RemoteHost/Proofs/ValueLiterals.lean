import RemoteHost.Proofs.NumberTexts
import RemoteHost.Proofs.Quoting
import RemoteHost.Proxy

/-!
# Values are read back

Every literal begins with a character that neither ends a value nor is a space, and takes no
character of what follows it. By induction on a value, with its items and its fields, the literal
is read back to the value and ends where it ends.
-/

namespace RemoteHost

namespace Json

mutual

/-- Every number in a value is finite. -/
def isFinite : Json → Bool
  | .number n => n.isFinite
  | .array items => areFinite items
  | .object fields => fieldsAreFinite fields
  | _ => true

def areFinite : List Json → Bool
  | [] => true
  | item :: rest => item.isFinite && areFinite rest

def fieldsAreFinite : List (String × Json) → Bool
  | [] => true
  | (_, value) :: rest => value.isFinite && fieldsAreFinite rest

end

end Json

namespace Literal

/-! ## How literals begin -/

/-- A text that begins neither with a space nor with what ends a value. -/
def Opens (text : List Char) : Prop := ∃ c rest, text = c :: rest ∧ c ∉ ' ' :: closers

section Opening

variable {text rest : List Char}

theorem Opens.append (h : Opens text) (rest : List Char) : Opens (text ++ rest) := by
  obtain ⟨c, text, rfl, hc⟩ := h
  exact ⟨c, text ++ rest, rfl, hc⟩

theorem Opens.ne_closer {c close : Char} (h : Opens (c :: rest)) (hclose : close ∈ closers) :
    c ≠ close := by
  obtain ⟨d, text, heq, hd⟩ := h
  rintro rfl
  rw [(List.cons.inj heq).1] at hclose
  exact hd (List.mem_cons_of_mem _ hclose)

theorem skipSpaces_opens (h : Opens text) : skipSpaces (' ' :: text) = text := by
  obtain ⟨c, text, rfl, hc⟩ := h
  have hspace : c ≠ ' ' := fun heq => hc (heq ▸ List.mem_cons_self)
  simp [skipSpaces, hspace]

theorem opens_numberChars {x : JsonNumber} (hx : x.isFinite = true) : Opens (numberChars x) := by
  obtain ⟨c, text, htext, hc⟩ := exists_head_numberChars hx
  refine ⟨c, text, htext, ?_⟩
  rcases hc with rfl | hc
  · decide
  · intro hmem
    have hall : (' ' :: closers).any Char.isDigit = false := by decide
    exact List.any_eq_false.mp hall c hmem hc

theorem opens_chars {v : Json} (hv : v.isFinite = true) : Opens (chars v) := by
  cases v with
  | null => exact ⟨'N', _, rfl, by decide⟩
  | bool b => cases b <;> exact ⟨_, _, rfl, by decide⟩
  | number n => exact opens_numberChars (by simpa [Json.isFinite] using hv)
  | string text => exact ⟨'\'', _, rfl, by decide⟩
  | array items => exact ⟨'[', _, rfl, by decide⟩
  | object fields => exact ⟨'\x7b', _, rfl, by decide⟩

theorem opens_separated {item : List Char} (h : Opens item) (more : List (List Char)) :
    Opens (separated (item :: more)) := by
  cases more with
  | nil => exact h
  | cons next more => exact h.append _

end Opening

/-! ## What the reader does with what it meets -/

section Reading

variable {text rest more : List Char}

theorem readValue_quote (t : List Char) :
    readValue (quotedChars t ++ rest) = some (.string (String.ofList t), rest) := by
  have hread := readQuoted_quotedChars t rest
  rw [quotedChars, List.cons_append, List.cons_append] at hread ⊢
  rw [readValue, hread]
  rfl

theorem readValue_number {c : Char} (hc : c = '-' ∨ c.isDigit = true) :
    readValue (c :: text) = (readNumber (c :: text)).map fun (n, rest) => (.number n, rest) := by
  have hother : ∀ d, d ≠ '-' → d.isDigit = false → c ≠ d := by
    rintro d hminus hd rfl
    rcases hc with rfl | hc
    · exact hminus rfl
    · exact ne_of_isDigit hc hd rfl
  unfold readValue
  split
  · cases ‹_›
  · exact absurd (List.cons.inj ‹_›).1 (hother _ (by decide) rfl)
  · exact absurd (List.cons.inj ‹_›).1 (hother _ (by decide) rfl)
  · exact absurd (List.cons.inj ‹_›).1 (hother _ (by decide) rfl)
  · obtain ⟨rfl, rfl⟩ := List.cons.inj ‹_›
    rw [if_pos hc]

theorem readValue_name {name : List Char} (hletter : ∃ c ∈ ['N', 'T', 'F'], name.head? = some c) :
    readValue (name ++ rest) = readName (name ++ rest) := by
  obtain ⟨c, hc, hhead⟩ := hletter
  obtain ⟨more, rfl⟩ := List.head?_eq_some_iff.mp hhead
  simp only [List.mem_cons, List.not_mem_nil, or_false] at hc
  rcases hc with rfl | rfl | rfl <;> simp [readValue]

theorem readName_run {name : List Char} (hname : name.all isNameChar = true)
    (hrest : EndsValue rest) : readName (name ++ rest) =
      if name = noneChars then some (.null, rest)
      else if name = booleanChars true then some (.bool true, rest)
      else if name = booleanChars false then some (.bool false, rest)
      else none := by
  have hstops : Stops isNameChar rest := hrest.stops (by decide)
  have hrun : ∀ c ∈ name, isNameChar c = true := List.all_eq_true.mp hname
  rw [readName, takeWhile_run hrun hstops, dropWhile_run hrun hstops]

theorem readItems_last {close : Char} {item : Json} (hopen : Opens text) (hclose : close ∈ closers)
    (hcomma : close ≠ ',') (h : readValue text = some (item, close :: rest)) :
    readItems close text = some ([item], rest) := by
  obtain ⟨c, text, rfl, -⟩ := id hopen
  rw [readItems, if_neg (hopen.ne_closer hclose), h]
  split
  · rename_i heq
    exact absurd (List.cons.inj (Prod.mk.inj (Option.some.inj heq)).2).1 hcomma
  · rename_i heq
    obtain ⟨rfl, htail⟩ := Prod.mk.inj (Option.some.inj heq)
    obtain ⟨rfl, rfl⟩ := List.cons.inj htail
    rw [if_pos rfl]
  · rename_i hlast
    exact absurd rfl (hlast item close rest)

theorem readItems_more {close : Char} {item : Json} (hopen : Opens text) (hclose : close ∈ closers)
    (hmore : Opens more) (hlength : more.length + 1 < text.length)
    (h : readValue text = some (item, ',' :: ' ' :: more)) : readItems close text =
      (readItems close more).map fun (items, rest) => (item :: items, rest) := by
  obtain ⟨c, text, rfl, -⟩ := id hopen
  rw [readItems, if_neg (hopen.ne_closer hclose), h]
  refine (if_pos hlength).trans ?_
  rw [skipSpaces_opens hmore]

theorem readFields_last {key : List Char} {item : Json} (hvalue : Opens text)
    (h : readValue text = some (item, '\x7d' :: rest)) :
    readFields (quotedChars key ++ ':' :: ' ' :: text) =
      some ([(String.ofList key, item)], rest) := by
  have hread := readQuoted_quotedChars key (':' :: ' ' :: text)
  rw [quotedChars, List.cons_append, List.cons_append] at hread ⊢
  rw [readFields, if_neg (by decide), hread]
  refine (if_pos (by simp; omega)).trans ?_
  rw [skipSpaces_opens hvalue, h]
  rfl

theorem readFields_more {key : List Char} {item : Json} (hvalue : Opens text) (hmore : Opens more)
    (hlength : more.length < text.length) (h : readValue text = some (item, ',' :: ' ' :: more)) :
    readFields (quotedChars key ++ ':' :: ' ' :: text) =
      (readFields more).map fun (fields, rest) => ((String.ofList key, item) :: fields, rest) := by
  have hread := readQuoted_quotedChars key (':' :: ' ' :: text)
  rw [quotedChars, List.cons_append, List.cons_append] at hread ⊢
  rw [readFields, if_neg (by decide), hread]
  refine (if_pos (by simp; omega)).trans ?_
  rw [skipSpaces_opens hvalue, h]
  refine (if_pos (by simp; omega)).trans ?_
  rw [skipSpaces_opens hmore]

end Reading

/-! ## Reading values back -/

mutual

theorem readValue_chars : ∀ v : Json, v.isFinite = true → ∀ rest, EndsValue rest →
    readValue (chars v ++ rest) = some (v, rest)
  | .null, _, rest, hrest => by
    rw [chars, readValue_name ⟨'N', by decide, rfl⟩, readName_run (by decide) hrest, if_pos rfl]
  | .bool b, _, rest, hrest => by
    cases b with
    | true =>
      rw [chars, readValue_name ⟨'T', by decide, rfl⟩, readName_run (by decide) hrest,
        if_neg (by decide), if_pos rfl]
    | false =>
      rw [chars, readValue_name ⟨'F', by decide, rfl⟩, readName_run (by decide) hrest,
        if_neg (by decide), if_neg (by decide), if_pos rfl]
  | .number n, hv, rest, hrest => by
    rw [Json.isFinite] at hv
    obtain ⟨c, text, htext, hc⟩ := exists_head_numberChars hv
    have hread := readNumber_numberChars hv hrest
    rw [chars]
    rw [htext, List.cons_append] at hread ⊢
    rw [readValue_number hc, hread]
    rfl
  | .string text, _, rest, _ => by
    rw [chars, readValue_quote, String.ofList_toList]
  | .array items, hv, rest, _ => by
    have hread := readItems_itemChars items (by simpa [Json.isFinite] using hv) ']' rest
      (by decide) (by decide)
    rw [chars, listChars, List.cons_append, List.cons_append, List.append_assoc, readValue]
    change (readItems ']' (separated (itemChars items) ++ ']' :: rest)).map _ = _
    rw [hread]
    rfl
  | .object fields, hv, rest, _ => by
    have hread := readFields_fieldChars fields (by simpa [Json.isFinite] using hv) rest
    rw [chars, List.cons_append, List.cons_append, List.append_assoc, readValue]
    change (readFields (separated (fieldChars fields) ++ '\x7d' :: rest)).map _ = _
    rw [hread]
    rfl

theorem readItems_itemChars : ∀ items : List Json, Json.areFinite items = true →
    ∀ (close : Char) (rest : List Char), close ∈ closers → close ≠ ',' →
    readItems close (separated (itemChars items) ++ close :: rest) = some (items, rest)
  | [], _, close, rest, _, _ => by
    simp [itemChars, separated, readItems]
  | [item], h, close, rest, hclose, hcomma => by
    obtain ⟨hitem, -⟩ := Bool.and_eq_true_iff.mp h
    have hends : EndsValue (close :: rest) := by simpa [EndsValue] using hclose
    exact readItems_last ((opens_chars hitem).append _) hclose hcomma
      (readValue_chars item hitem _ hends)
  | item :: next :: more, h, close, rest, hclose, hcomma => by
    obtain ⟨hitem, hothers⟩ := Bool.and_eq_true_iff.mp h
    have hnext := (Bool.and_eq_true_iff.mp hothers).1
    have hread := readItems_itemChars (next :: more) hothers close rest hclose hcomma
    have hopens : Opens (separated (itemChars (next :: more)) ++ close :: rest) :=
      (opens_separated (opens_chars hnext) _).append _
    have hends : EndsValue
        (',' :: ' ' :: (separated (itemChars (next :: more)) ++ close :: rest)) := by
      simp [EndsValue, closers]
    have hvalue := readValue_chars item hitem _ hends
    have htext : separated (itemChars (item :: next :: more)) ++ close :: rest =
        chars item ++ ',' :: ' ' :: (separated (itemChars (next :: more)) ++ close :: rest) := by
      simp [itemChars, separated]
    rw [htext, readItems_more ((opens_chars hitem).append _) hclose hopens (by simp; omega) hvalue,
      hread]
    rfl

theorem readFields_fieldChars : ∀ fields : List (String × Json),
    Json.fieldsAreFinite fields = true → ∀ rest : List Char,
    readFields (separated (fieldChars fields) ++ '\x7d' :: rest) = some (fields, rest)
  | [], _, rest => by
    simp [fieldChars, separated, readFields]
  | [(key, value)], h, rest => by
    obtain ⟨hitem, -⟩ := Bool.and_eq_true_iff.mp h
    have hends : EndsValue ('\x7d' :: rest) := by simp [EndsValue, closers]
    have htext : separated (fieldChars [(key, value)]) ++ '\x7d' :: rest =
        quotedChars key.toList ++ ':' :: ' ' :: (chars value ++ '\x7d' :: rest) := by
      simp [fieldChars, separated]
    rw [htext, readFields_last ((opens_chars hitem).append _) (readValue_chars value hitem _ hends),
      String.ofList_toList]
  | (key, value) :: (nextKey, next) :: more, h, rest => by
    obtain ⟨hitem, hothers⟩ := Bool.and_eq_true_iff.mp h
    have hread := readFields_fieldChars ((nextKey, next) :: more) hothers rest
    have hopens : Opens (separated (fieldChars ((nextKey, next) :: more)) ++ '\x7d' :: rest) :=
      (opens_separated ⟨'\'', _, rfl, by decide⟩ _).append _
    have hends : EndsValue
        (',' :: ' ' :: (separated (fieldChars ((nextKey, next) :: more)) ++ '\x7d' :: rest)) := by
      simp [EndsValue, closers]
    have htext :
        separated (fieldChars ((key, value) :: (nextKey, next) :: more)) ++ '\x7d' :: rest =
        quotedChars key.toList ++ ':' :: ' ' :: (chars value ++
          ',' :: ' ' :: (separated (fieldChars ((nextKey, next) :: more)) ++ '\x7d' :: rest)) := by
      simp [fieldChars, separated]
    rw [htext, readFields_more ((opens_chars hitem).append _) hopens (by simp; omega)
      (readValue_chars value hitem _ hends), hread, String.ofList_toList]
    rfl

end

theorem readValue_ofJson {v : Json} (hv : v.isFinite = true) {rest : String}
    (hrest : EndsValue rest.toList) :
    readValue (ofJson v ++ rest).toList = some (v, rest.toList) := by
  rw [String.toList_append, ofJson, String.toList_ofList]
  exact readValue_chars v hv _ hrest

theorem ofJson_injective {v w : Json} (hv : v.isFinite = true) (hw : w.isFinite = true)
    (h : ofJson v = ofJson w) : v = w := by
  have hends : EndsValue "".toList := by simp [EndsValue]
  have hread := readValue_ofJson hv hends
  rw [h, readValue_ofJson hw hends] at hread
  exact (Prod.mk.inj (Option.some.inj hread)).1.symm

theorem itemChars_eq (items : List Json) : itemChars items = items.map chars := by
  induction items with
  | nil => rfl
  | cons item items ih => rw [itemChars, ih, List.map_cons]

theorem readCall_method {arguments : List Json} (h : Json.areFinite arguments = true)
    (name : String) (shape : ResultShape) (rest : String) :
    readCall name ((Operation.method name (arguments.map ofJson) shape).suffix ++ rest).toList =
      some (arguments, rest.toList) := by
  have harguments : (arguments.map ofJson).map String.toList = itemChars arguments := by
    rw [itemChars_eq, List.map_map]
    exact List.map_congr_left fun v _ => String.toList_ofList
  have htext : ((Operation.method name (arguments.map ofJson) shape).suffix ++ rest).toList =
      ("." ++ name ++ "(").toList ++ (separated (itemChars arguments) ++ ')' :: rest.toList) := by
    rw [separated_eq, ← harguments]
    simp [Operation.method, String.toList_intercalate]
  rw [htext, readCall, if_pos (List.isPrefixOf_iff_prefix.mpr (List.prefix_append _ _)),
    List.drop_left]
  exact readItems_itemChars arguments h ')' _ (by decide) (by decide)

/-- A value is read back from its literal, which ends where it ends; different values have
different literals; and the call of a method is read back to its arguments. -/
theorem values_survive_quoting :
    (∀ (v : Json) (rest : String), v.isFinite = true → EndsValue rest.toList →
      readValue (ofJson v ++ rest).toList = some (v, rest.toList)) ∧
    (∀ v w : Json, v.isFinite = true → w.isFinite = true → ofJson v = ofJson w → v = w) ∧
    (∀ (name : String) (arguments : List Json) (shape : ResultShape) (rest : String),
      Json.areFinite arguments = true →
      readCall name ((Operation.method name (arguments.map ofJson) shape).suffix ++ rest).toList =
        some (arguments, rest.toList)) :=
  ⟨fun _ _ hv hrest => readValue_ofJson hv hrest, fun _ _ => ofJson_injective,
    fun name _ shape rest h => readCall_method h name shape rest⟩

/-- A mapping with separators in its texts, and two numbers of one value. -/
def nestedValue : Json :=
  .object [("a', [1", .array [.null, .bool true, .number (.integer (-1)), .string "\x7d, \x7b$"]),
    ("b", .array [.number (.integer 1), .number (.float 0x3FF0000000000000)])]

theorem values_survive_quoting_nested :
    (nestedValue.isFinite = true ∧ EndsValue "): 1".toList ∧
      Json.areFinite [nestedValue, .null] = true) ∧
    readValue (ofJson nestedValue ++ "): 1").toList = some (nestedValue, "): 1".toList) ∧
    ofJson (.number (.integer 1)) ≠ ofJson (.number (.float 0x3FF0000000000000)) ∧
    readCall "run" ((Operation.method "run" ([nestedValue, .null].map ofJson) .value).suffix ++
      ".name()").toList = some ([nestedValue, .null], ".name()".toList) := by
  have hvalue : nestedValue.isFinite = true := by decide
  have hends : EndsValue "): 1".toList := by simp [EndsValue, closers]
  have hvalues : Json.areFinite [nestedValue, .null] = true := by decide
  refine ⟨⟨hvalue, hends, hvalues⟩, values_survive_quoting.1 _ _ hvalue hends, fun h => ?_,
    values_survive_quoting.2.2 "run" _ .value ".name()" hvalues⟩
  have heq := values_survive_quoting.2.1 _ _ (by decide) (by decide) h
  cases heq

end Literal

end RemoteHost
