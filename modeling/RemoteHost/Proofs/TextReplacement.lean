import Mathlib.Data.List.Find
import RemoteHost.Text.Pieces

/-!
# Replacing several marks at once

A text is read once, from left to right. Where it goes on with a mark, the mark gives way to its
value, and the value is not looked at. Replacing all occurrences of one mark is the case of one.
-/

namespace RemoteHost.Text

/-! ## Pieces -/

theorem fillIn_extendFirst (c : Char) {ps : List (List Char)} (hps : ps ≠ [])
    (fillings : List (List Char)) :
    fillIn (extendFirst c ps) fillings = c :: fillIn ps fillings := by
  match ps, fillings with
  | [piece], _ => rfl
  | piece :: next :: more, [] => rfl
  | piece :: next :: more, filling :: fillings => rfl

theorem length_extendFirst (c : Char) {ps : List (List Char)} (hps : ps ≠ []) :
    (extendFirst c ps).length = ps.length := by
  cases ps with
  | nil => exact absurd rfl hps
  | cons piece more => rfl

theorem fillIn_cons (piece filling : List Char) {ps : List (List Char)} (hps : ps ≠ [])
    (fillings : List (List Char)) :
    fillIn (piece :: ps) (filling :: fillings) = piece ++ filling ++ fillIn ps fillings := by
  cases ps with
  | nil => exact absurd rfl hps
  | cons next more => rfl

/-- Puts the same filling between all neighbouring pieces. -/
def refill (filling : List Char) (ps : List (List Char)) : List Char :=
  fillIn ps (List.replicate (ps.length - 1) filling)

theorem refill_cons (filling : List Char) {ps : List (List Char)} (hps : ps ≠ []) :
    refill filling ([] :: ps) = filling ++ refill filling ps := by
  obtain ⟨piece, more, rfl⟩ := List.exists_cons_of_ne_nil hps
  rfl

theorem refill_extendFirst (c : Char) (filling : List Char) {ps : List (List Char)}
    (hps : ps ≠ []) : refill filling (extendFirst c ps) = c :: refill filling ps := by
  rw [refill, fillIn_extendFirst c hps, length_extendFirst c hps]
  rfl

/-- To fill a mark in between the pieces gives the text back. -/
theorem fillIn_piecesAfter (mark : List Char) (skip : Nat) (text : List Char) :
    fillIn (piecesAfter mark skip text)
      (List.replicate ((piecesAfter mark skip text).length - 1) mark) = text.drop skip := by
  fun_induction piecesAfter mark skip text with
  | case1 skip => simp [fillIn]
  | case2 skip c rest ih => exact ih
  | case3 c rest hfound ih =>
    change refill mark _ = _
    rw [refill_cons _ (piecesAfter_ne_nil _ _ _), refill, ih]
    obtain ⟨hstarts, hsome⟩ := Bool.and_eq_true_iff.mp hfound
    obtain ⟨later, hlater⟩ := List.isPrefixOf_iff_prefix.mp hstarts
    cases mark with
    | nil => cases hsome
    | cons first mark =>
      obtain ⟨rfl, rfl⟩ := List.cons.inj hlater
      simp
  | case4 c rest hmissing ih =>
    change refill mark _ = _
    rw [refill_extendFirst c _ (piecesAfter_ne_nil _ _ _), refill, ih]
    rfl

theorem fillIn_pieces (mark text : List Char) :
    fillIn (pieces mark text) (List.replicate (occurrences mark text) mark) = text :=
  fillIn_piecesAfter mark 0 text

theorem pieces_ne_nil (mark text : List Char) : pieces mark text ≠ [] := piecesAfter_ne_nil _ _ _

theorem piecesAfter_skip (mark taken rest : List Char) :
    piecesAfter mark taken.length (taken ++ rest) = piecesAfter mark 0 rest := by
  induction taken with
  | nil => rfl
  | cons c taken ih => exact ih

variable {mark rest : List Char} {c : Char}

/-- A text that begins with a mark has nothing before it. -/
theorem pieces_mark (hmark : mark ≠ []) (rest : List Char) :
    pieces mark (mark ++ rest) = [] :: pieces mark rest := by
  obtain ⟨m, ms, rfl⟩ := List.exists_cons_of_ne_nil hmark
  have hfound : ((m :: ms).isPrefixOf (m :: (ms ++ rest)) && !(m :: ms).isEmpty) = true := by
    simp
  rw [pieces, List.cons_append, piecesAfter, if_pos hfound]
  exact congrArg _ (piecesAfter_skip _ ms rest)

/-- A character at which the mark does not begin belongs to the first piece. -/
theorem pieces_cons (h : mark.isPrefixOf (c :: rest) = false) :
    pieces mark (c :: rest) = extendFirst c (pieces mark rest) := by
  rw [pieces, piecesAfter, h]
  rfl

/-! ## Marks -/

/-- Whether a text begins with a mark. An empty mark never occurs. -/
def beginsWith (text : List Char) (mark : String) : Bool :=
  mark.toList.isPrefixOf text && !mark.toList.isEmpty

/-- Replaces marks by their values in what is left after `skip` characters, which belong to a mark
already found. -/
def replaceEachAfter (values : List (String × String)) : Nat → List Char → List Char
  | _, [] => []
  | skip + 1, _ :: rest => replaceEachAfter values skip rest
  | 0, c :: rest =>
    match values.find? fun v => beginsWith (c :: rest) v.1 with
    | some (mark, value) =>
      value.toList ++ replaceEachAfter values (mark.toList.length - 1) rest
    | none => c :: replaceEachAfter values 0 rest

/-- Replaces marks by their values, all at once. -/
def replaceEach (values : List (String × String)) (text : List Char) : List Char :=
  replaceEachAfter values 0 text

/-- To look for one mark alone is to cut the text around it. -/
theorem refill_piecesAfter (mark value : String) (skip : Nat) (text : List Char) :
    refill value.toList (piecesAfter mark.toList skip text) =
      replaceEachAfter [(mark, value)] skip text := by
  induction text generalizing skip with
  | nil => cases skip <;> rfl
  | cons c rest ih =>
    cases skip with
    | succ skip => exact ih skip
    | zero =>
      have hfind : [(mark, value)].find? (fun v => beginsWith (c :: rest) v.1) =
          if beginsWith (c :: rest) mark then some (mark, value) else none := by
        rw [List.find?_cons]
        cases beginsWith (c :: rest) mark <;> rfl
      rw [piecesAfter, replaceEachAfter, hfind, ← beginsWith]
      split
      · rw [refill_cons _ (piecesAfter_ne_nil _ _ _), ih]
      · rw [refill_extendFirst c _ (piecesAfter_ne_nil _ _ _), ih]

theorem replaceAll_eq_replaceEach (mark value : String) (text : List Char) :
    replaceAll mark.toList value.toList text = replaceEach [(mark, value)] text :=
  refill_piecesAfter mark value 0 text

variable {values : List (String × String)} {text xs ys : List Char}

theorem replaceEach_nil (values : List (String × String)) : replaceEach values [] = [] := rfl

theorem replaceEachAfter_skip (values : List (String × String)) (taken rest : List Char) :
    replaceEachAfter values taken.length (taken ++ rest) = replaceEach values rest := by
  induction taken with
  | nil => rfl
  | cons c taken ih => exact ih

/-- The value of the first mark that a text begins with takes its place. -/
theorem replaceEach_mark {v : String × String}
    (h : values.find? (fun w => beginsWith (v.1.toList ++ rest) w.1) = some v) :
    replaceEach values (v.1.toList ++ rest) = v.2.toList ++ replaceEach values rest := by
  have hfound : beginsWith (v.1.toList ++ rest) v.1 = true :=
    List.find?_some (p := fun w : String × String => beginsWith (v.1.toList ++ rest) w.1) h
  cases hmark : v.1.toList with
  | nil => simp [beginsWith, hmark] at hfound
  | cons m ms =>
    rw [hmark] at h
    rw [replaceEach, List.cons_append, replaceEachAfter, ← List.cons_append, h]
    change v.2.toList ++ replaceEachAfter values (v.1.toList.length - 1) (ms ++ rest) = _
    rw [hmark]
    exact congrArg _ (replaceEachAfter_skip values ms rest)

/-- Two marks of which none begins the other. -/
def AreApart (a b : String) : Prop := beginsWith a.toList b = false ∧ beginsWith b.toList a = false

instance (a b : String) : Decidable (AreApart a b) := inferInstanceAs (Decidable (_ ∧ _))

theorem replaceEach_self (hvalues : (values.map (·.1)).Pairwise AreApart) {v : String × String}
    (hv : v ∈ values) (hmark : v.1.toList ≠ []) : replaceEach values v.1.toList = v.2.toList := by
  have hself : beginsWith v.1.toList v.1 = true := by simpa [beginsWith] using hmark
  have hfind : values.find? (fun w => beginsWith v.1.toList w.1) = some v := by
    induction values with
    | nil => cases hv
    | cons w values ih =>
      obtain ⟨hapart, hrest⟩ := List.pairwise_cons.mp hvalues
      rcases List.mem_cons.mp hv with rfl | hv
      · exact List.find?_cons_of_pos hself
      · have hother := (hapart v.1 (List.mem_map_of_mem hv)).2
        rw [List.find?_cons_of_neg (by simp [hother])]
        exact ih hrest hv
  have hreplaced : replaceEach values (v.1.toList ++ []) = v.2.toList ++ replaceEach values [] :=
    replaceEach_mark ((List.append_nil v.1.toList).symm ▸ hfind)
  rwa [List.append_nil, replaceEach_nil, List.append_nil] at hreplaced

/-- A character at which no mark begins stays. -/
theorem replaceEach_cons (h : ∀ v ∈ values, beginsWith (c :: rest) v.1 = false) :
    replaceEach values (c :: rest) = c :: replaceEach values rest := by
  have hnone : values.find? (fun v => beginsWith (c :: rest) v.1) = none := by
    apply List.find?_eq_none.mpr
    intro v hv
    simp [h v hv]
  rw [replaceEach, replaceEachAfter, hnone]
  rfl

/-- Nothing comes out but what was in the text or in the values. -/
theorem mem_replaceEachAfter {c : Char} {skip : Nat} (h : c ∈ replaceEachAfter values skip text) :
    c ∈ text ∨ ∃ v ∈ values, c ∈ v.2.toList := by
  induction text generalizing skip with
  | nil => cases skip <;> cases h
  | cons first rest ih =>
    have later : ∀ {skip}, c ∈ replaceEachAfter values skip rest →
        c ∈ first :: rest ∨ ∃ v ∈ values, c ∈ v.2.toList :=
      fun hc => (ih hc).imp_left (List.mem_cons_of_mem first)
    cases skip with
    | succ skip => exact later h
    | zero =>
      rw [replaceEachAfter] at h
      split at h
      · rename_i mark value hfound
        rcases List.mem_append.mp h with hc | hc
        · exact .inr ⟨_, List.mem_of_find?_eq_some hfound, hc⟩
        · exact later hc
      · rcases List.mem_cons.mp h with rfl | hc
        · exact .inl List.mem_cons_self
        · exact later hc

theorem mem_replaceEach {c : Char} (h : c ∈ replaceEach values text) :
    c ∈ text ∨ ∃ v ∈ values, c ∈ v.2.toList :=
  mem_replaceEachAfter h

/-! ## Signs

All marks begin with the same sign. -/

/-- A text that does not hold the sign at which marks begin stays as it is. -/
theorem replaceEach_plain {sign : Char} (hvalues : ∀ v ∈ values, v.1.toList.head? = some sign)
    (htext : sign ∉ text) (rest : List Char) :
    replaceEach values (text ++ rest) = text ++ replaceEach values rest := by
  induction text with
  | nil => rfl
  | cons c text ih =>
    have hne : sign ≠ c := fun h => htext (h ▸ List.mem_cons_self)
    rw [List.cons_append, replaceEach_cons, ih (List.not_mem_of_not_mem_cons htext)]
    · rfl
    · intro v hv
      have hhead := hvalues v hv
      cases hmark : v.1.toList with
      | nil =>
        rw [hmark] at hhead
        cases hhead
      | cons m ms =>
        rw [hmark] at hhead
        obtain rfl : m = sign := Option.some.inj hhead
        simp [beginsWith, hmark, List.isPrefixOf, hne]

/-! ## Stops -/

theorem isPrefixOf_append_cons (hmark : c ∉ mark) (xs ys : List Char) :
    mark.isPrefixOf (xs ++ c :: ys) = mark.isPrefixOf xs := by
  induction mark generalizing xs with
  | nil => rfl
  | cons m mark ih =>
    cases xs with
    | nil =>
      have hne : (m == c) = false := beq_false_of_ne fun h => hmark (h ▸ List.mem_cons_self)
      simp [List.isPrefixOf, hne]
    | cons x xs => simp [List.isPrefixOf, ih (List.not_mem_of_not_mem_cons hmark)]

theorem beginsWith_append_cons {m : String} (hc : c ∉ m.toList) (xs ys : List Char) :
    beginsWith (xs ++ c :: ys) m = beginsWith xs m :=
  congrArg (· && _) (isPrefixOf_append_cons hc xs ys)

theorem length_le_of_beginsWith {m : String} (h : beginsWith text m = true) :
    m.toList.length ≤ text.length :=
  (List.isPrefixOf_iff_prefix.mp (Bool.and_eq_true_iff.mp h).1).length_le

/-- What stands before a character that no mark holds is replaced by itself, and so is what stands
after it. -/
theorem replaceEach_stop (hvalues : ∀ v ∈ values, c ∉ v.1.toList) (xs ys : List Char) :
    replaceEach values (xs ++ c :: ys) = replaceEach values xs ++ c :: replaceEach values ys := by
  have hfind : ∀ xs : List Char, values.find? (fun v => beginsWith (xs ++ c :: ys) v.1) =
      values.find? (fun v => beginsWith xs v.1) := by
    intro xs
    apply List.find?_congr
    intro v hv
    exact beginsWith_append_cons (hvalues v hv) xs ys
  have hafter : ∀ (xs : List Char) (skip : Nat), skip ≤ xs.length →
      replaceEachAfter values skip (xs ++ c :: ys) =
        replaceEachAfter values skip xs ++ c :: replaceEach values ys := by
    intro xs
    induction xs with
    | nil =>
      intro skip hskip
      obtain rfl : skip = 0 := Nat.le_zero.mp hskip
      apply replaceEach_cons
      intro v hv
      rw [← List.nil_append (c :: ys), beginsWith_append_cons (hvalues v hv)]
      cases hmark : v.1.toList <;> simp [beginsWith, hmark]
    | cons x xs ih =>
      intro skip hskip
      cases skip with
      | succ skip => exact ih skip (Nat.le_of_succ_le_succ hskip)
      | zero =>
        have hsame := hfind (x :: xs)
        rw [List.cons_append] at hsame
        rw [List.cons_append, replaceEachAfter, replaceEachAfter, hsame]
        cases hfound : values.find? (fun v => beginsWith (x :: xs) v.1) with
        | none => exact congrArg (x :: ·) (ih 0 (Nat.zero_le _))
        | some v =>
          -- The mark ends before the stop.
          have hfits : beginsWith (x :: xs) v.1 = true :=
            List.find?_some (p := fun v : String × String => beginsWith (x :: xs) v.1) hfound
          have hlength := length_le_of_beginsWith hfits
          have hskip : v.1.toList.length - 1 ≤ xs.length := by
            rw [List.length_cons] at hlength
            omega
          dsimp only
          rw [ih _ hskip, List.append_assoc]
  exact hafter xs 0 (Nat.zero_le _)

/-! ## Templates -/

def isMarkChar (c : Char) : Bool := c == '@' || c.isUpper

/-- The marks of templates begin with the sign `@`. -/
structure IsMark (mark : List Char) : Prop where
  sign : mark.head? = some '@'
  chars : ∀ c ∈ mark, isMarkChar c = true

theorem IsMark.ne_nil (h : IsMark mark) : mark ≠ [] := by
  rintro rfl
  cases h.sign

/-- A place for a value, and the text after it. The stop keeps the mark from running into it. -/
structure Place where
  mark : List Char
  stop : Char
  after : List Char

/-- A text with places for values, in which marks stand nowhere else. -/
structure Template where
  lead : List Char
  places : List Place
  lead_plain : '@' ∉ lead
  stops : ∀ p ∈ places, isMarkChar p.stop = false
  after_plain : ∀ p ∈ places, '@' ∉ p.after

/-- Puts something in each place, by its mark. -/
def fillPlaces (f : List Char → List Char) (places : List Place) : List Char :=
  places.flatMap fun p => f p.mark ++ p.stop :: p.after

theorem fillPlaces_congr {f g : List Char → List Char} {places : List Place}
    (h : ∀ p ∈ places, f p.mark = g p.mark) : fillPlaces f places = fillPlaces g places := by
  unfold fillPlaces
  rw [List.flatMap_def, List.flatMap_def]
  apply congrArg List.flatten
  apply List.map_congr_left
  intro p hp
  rw [h p hp]

namespace Template

def fill (t : Template) (f : List Char → List Char) : List Char := t.lead ++ fillPlaces f t.places

variable {t : Template} {f g : List Char → List Char}

theorem fill_congr (h : ∀ p ∈ t.places, f p.mark = g p.mark) : t.fill f = t.fill g :=
  congrArg (t.lead ++ ·) (fillPlaces_congr h)

/-- Marks are replaced place by place, whatever stands in the places. -/
theorem replaceEach_fill (hvalues : ∀ v ∈ values, IsMark v.1.toList) (t : Template)
    (f : List Char → List Char) :
    replaceEach values (t.fill f) = t.fill fun mark => replaceEach values (f mark) := by
  have hsigns : ∀ v ∈ values, v.1.toList.head? = some '@' := fun v hv => (hvalues v hv).sign
  have hplaces : ∀ places : List Place, (∀ p ∈ places, isMarkChar p.stop = false) →
      (∀ p ∈ places, '@' ∉ p.after) → replaceEach values (fillPlaces f places) =
        fillPlaces (fun mark => replaceEach values (f mark)) places := by
    intro places hstops hplain
    induction places with
    | nil => rfl
    | cons p places ih =>
      obtain ⟨hstop, hstops⟩ := List.forall_mem_cons.mp hstops
      obtain ⟨hafter, hplain⟩ := List.forall_mem_cons.mp hplain
      have hapart : ∀ v ∈ values, p.stop ∉ v.1.toList := by
        intro v hv hin
        rw [(hvalues v hv).chars _ hin] at hstop
        cases hstop
      unfold fillPlaces at ih ⊢
      rw [List.flatMap_cons, List.flatMap_cons, List.append_assoc, List.cons_append,
        replaceEach_stop hapart, replaceEach_plain hsigns hafter, ih hstops hplain,
        List.append_assoc, List.cons_append]
  rw [fill, replaceEach_plain hsigns t.lead_plain, hplaces t.places t.stops t.after_plain]
  rfl

/-- What a template is filled with tells what is in the only place for a mark. -/
theorem eq_of_fill {mark : List Char} (honce : (t.places.map (·.mark)).count mark = 1)
    (hothers : ∀ p ∈ t.places, p.mark ≠ mark → f p.mark = g p.mark) (h : t.fill f = t.fill g) :
    f mark = g mark := by
  have hplaces : ∀ places : List Place, (places.map (·.mark)).count mark = 1 →
      (∀ p ∈ places, p.mark ≠ mark → f p.mark = g p.mark) →
        fillPlaces f places = fillPlaces g places → f mark = g mark := by
    intro places honce hothers h
    induction places with
    | nil => cases honce
    | cons p places ih =>
      obtain ⟨hfirst, hothers⟩ := List.forall_mem_cons.mp hothers
      change (f p.mark ++ p.stop :: p.after) ++ fillPlaces f places =
        (g p.mark ++ p.stop :: p.after) ++ fillPlaces g places at h
      by_cases hp : p.mark = mark
      · subst hp
        rw [List.map_cons, List.count_cons_self] at honce
        have hnone : p.mark ∉ places.map (·.mark) := List.count_eq_zero.mp (Nat.succ.inj honce)
        have hrest : fillPlaces f places = fillPlaces g places := by
          apply fillPlaces_congr
          intro q hq
          apply hothers q hq
          intro hmark
          exact hnone (hmark ▸ List.mem_map_of_mem hq)
        rw [hrest] at h
        exact List.append_cancel_right (List.append_cancel_right h)
      · rw [List.map_cons, List.count_cons_of_ne hp] at honce
        rw [hfirst hp] at h
        exact ih honce hothers (List.append_cancel_left h)
  exact hplaces t.places honce hothers (List.append_cancel_left h)

end Template

/-! ## Texts as templates -/

/-- The places of a text, by what stands between its signs. -/
def placesBetween : List (List Char) → List Place
  | name :: (stop :: after) :: more => ⟨'@' :: name ++ ['@'], stop, after⟩ :: placesBetween more
  | _ => []

def leadOf (text : List Char) : List Char := (pieces ['@'] text).headD []

def placesOf (text : List Char) : List Place := placesBetween (pieces ['@'] text).tail

/-- Whether a text is a template for some marks. -/
def isTemplate (marks : List (List Char)) (text : List Char) : Bool :=
  '@' ∉ leadOf text &&
    (placesOf text).all (fun p => !isMarkChar p.stop && '@' ∉ p.after && p.mark ∈ marks) &&
    leadOf text ++ fillPlaces id (placesOf text) == text

namespace Template

variable {marks : List (List Char)}

theorem place_of_isTemplate (h : isTemplate marks text = true) :
    ∀ p ∈ placesOf text, isMarkChar p.stop = false ∧ '@' ∉ p.after ∧ p.mark ∈ marks := by
  simp only [isTemplate, Bool.and_eq_true, List.all_eq_true] at h
  intro p hp
  simpa [and_assoc] using h.1.2 p hp

def ofText (h : isTemplate marks text = true) : Template where
  lead := leadOf text
  places := placesOf text
  lead_plain := by
    simp only [isTemplate, Bool.and_eq_true, decide_eq_true_eq] at h
    exact h.1.1
  stops p hp := (place_of_isTemplate h p hp).1
  after_plain p hp := (place_of_isTemplate h p hp).2.1

theorem fill_ofText (h : isTemplate marks text = true) : (ofText h).fill id = text := by
  have hwhole := (Bool.and_eq_true_iff.mp h).2
  exact beq_iff_eq.mp hwhole

theorem mark_ofText (h : isTemplate marks text = true) :
    ∀ p ∈ (ofText h).places, p.mark ∈ marks :=
  fun p hp => (place_of_isTemplate h p hp).2.2

end Template

end RemoteHost.Text
