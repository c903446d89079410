import Mathlib.Algebra.GroupWithZero.Nat
import RemoteHost.Literal.Value
import RemoteHost.Proofs.SourceSymbols

/-!
# Rows of symbols

Symbols that can be told apart each on their own can be told apart together if what stands between
them keeps them apart. Names that settings may hold, and numbers, are spelled without quotes.
-/

namespace RemoteHost

variable {s : Settings}

/-! ## Symbols that go together -/

namespace Symbol

variable {xs ys zs : List Symbol}

/-- Symbols that can follow anything that a literal can follow. -/
def Fits (xs : List Symbol) : Prop := ∃ after, Before.nothing.along xs = some after

/-- Symbols that can follow anything. -/
def Passes (xs : List Symbol) : Prop := ∀ before : Before, ∃ after, before.along xs = some after

/-- Symbols that can follow anything, and that anything can follow. -/
def Free (xs : List Symbol) : Prop := ∀ before : Before, before.along xs = some .nothing

instance (xs : List Symbol) : Decidable (Free xs) :=
  decidable_of_iff (Before.nothing.along xs = some .nothing ∧
      Before.name.along xs = some .nothing ∧ Before.literal.along xs = some .nothing)
    ⟨fun h before => match before with
      | .nothing => h.1
      | .name => h.2.1
      | .literal => h.2.2,
    fun h => ⟨h .nothing, h .name, h .literal⟩⟩

theorem Passes.fits (h : Passes xs) : Fits xs := h .nothing

theorem Free.passes (h : Free xs) : Passes xs := fun before => ⟨_, h before⟩

theorem Passes.free_append (hxs : Passes xs) (hys : Free ys) : Free (xs ++ ys) := by
  intro before
  obtain ⟨after, hafter⟩ := hxs before
  rw [Before.along_append, hafter]
  exact hys after

theorem Free.append (hxs : Free xs) (hys : Free ys) : Free (xs ++ ys) :=
  hxs.passes.free_append hys

/-- A free part keeps its neighbours apart. -/
theorem Fits.append (hxs : Fits xs) (hys : Free ys) (hzs : Fits zs) : Fits (xs ++ ys ++ zs) := by
  obtain ⟨after, hafter⟩ := hxs
  obtain ⟨last, hlast⟩ := hzs
  refine ⟨last, ?_⟩
  rw [Before.along_append, Before.along_append, hafter]
  simp only [Option.bind_some, hys after]
  exact hlast

/-- What is put between two free parts need only fit. -/
theorem Free.enclose (hxs : Free xs) (hys : Fits ys) (hzs : Free zs) : Free (xs ++ ys ++ zs) := by
  intro before
  obtain ⟨after, hafter⟩ := hys
  rw [Before.along_append, Before.along_append, hxs]
  simp only [Option.bind_some, hafter]
  exact hzs after

theorem passes_bare {cs : List Char} (h : ∀ c ∈ cs, isBare c = true) : Passes (cs.map bare) := by
  induction cs with
  | nil => exact fun before => ⟨before, rfl⟩
  | cons c cs ih =>
    intro before
    have hfirst : before.after (.bare c) = some (.ofChar c) :=
      Before.after_bare.mpr ⟨h c List.mem_cons_self, rfl⟩
    obtain ⟨after, hafter⟩ := ih (fun d hd => h d (List.mem_cons_of_mem c hd)) (.ofChar c)
    refine ⟨after, ?_⟩
    rw [List.map_cons, Before.along, hfirst]
    exact hafter

theorem ofText_append (a b : String) : ofText (a ++ b) = ofText a ++ ofText b := by
  rw [ofText, String.toList_append, List.map_append]
  rfl

theorem spell_ofText (text : String) : spell (ofText text) = text.toList := by
  unfold ofText
  induction text.toList with
  | nil => rfl
  | cons c cs ih => exact congrArg (c :: ·) ih

theorem texts_ofText (text : String) : texts (ofText text) = [] := by
  unfold ofText texts
  induction text.toList with
  | nil => rfl
  | cons c cs ih => exact ih

theorem slot_not_mem_ofText (text : String) : slot ∉ ofText text := by
  simp [ofText]

/-- Parts with commas between them. -/
def joined (parts : List (List Symbol)) : List Symbol := (ofText ", ").intercalate parts

theorem Fits.joined {parts : List (List Symbol)} (h : ∀ xs ∈ parts, Fits xs) :
    Fits (joined parts) := by
  have hcomma : Free (ofText ", ") := by decide
  induction parts with
  | nil => exact ⟨.nothing, rfl⟩
  | cons xs parts ih =>
    have hfirst := h xs List.mem_cons_self
    have hrest := ih fun ys hys => h ys (List.mem_cons_of_mem xs hys)
    cases parts with
    | nil =>
      rw [Symbol.joined, List.intercalate_singleton]
      exact hfirst
    | cons ys parts =>
      rw [Symbol.joined, List.intercalate_cons_cons]
      exact hfirst.append hcomma hrest

/-- What is done to a row part by part is done to its parts and to what stands between them. -/
theorem intercalate_of_append {α β : Type} {f : List α → List β} (hnil : f [] = [])
    (happend : ∀ xs ys, f (xs ++ ys) = f xs ++ f ys) (sep : List α) (parts : List (List α)) :
    f (sep.intercalate parts) = (f sep).intercalate (parts.map f) := by
  induction parts with
  | nil => exact hnil
  | cons xs parts ih =>
    cases parts with
    | nil => rw [List.intercalate_singleton, List.map_singleton, List.intercalate_singleton]
    | cons ys parts =>
      rw [List.intercalate_cons_cons, happend, happend, ih, List.map_cons, List.map_cons,
        List.map_cons, List.intercalate_cons_cons]

theorem spell_joined (parts : List (List Symbol)) :
    spell (joined parts) = ", ".toList.intercalate (parts.map spell) := by
  rw [joined, intercalate_of_append rfl spell_append, spell_ofText]

theorem outline_joined (parts : List (List Symbol)) : (joined parts).map outline =
    ((ofText ", ").map outline).intercalate (parts.map (List.map outline)) :=
  intercalate_of_append rfl (fun _ _ => List.map_append) _ _

theorem texts_append (xs ys : List Symbol) : texts (xs ++ ys) = texts xs ++ texts ys :=
  List.filterMap_append

theorem intercalate_nil_left {α : Type} (parts : List (List α)) :
    ([] : List α).intercalate parts = parts.flatten := by
  induction parts with
  | nil => rfl
  | cons xs parts ih =>
    cases parts with
    | nil => simp
    | cons ys parts =>
      rw [List.intercalate_cons_cons, ih, List.append_nil]
      rfl

theorem texts_joined (parts : List (List Symbol)) : texts (joined parts) = parts.flatMap texts := by
  rw [joined, intercalate_of_append rfl texts_append, texts_ofText, intercalate_nil_left]
  rfl

theorem count_slot_joined (parts : List (List Symbol)) :
    (joined parts).count slot = (parts.map (List.count slot)).sum := by
  have hcomma : (ofText ", ").count slot = 0 := List.count_eq_zero.mpr (slot_not_mem_ofText _)
  induction parts with
  | nil => rfl
  | cons xs parts ih =>
    cases parts with
    | nil => simp [joined]
    | cons ys parts =>
      rw [joined, List.intercalate_cons_cons, List.count_append, List.count_append, hcomma,
        Nat.add_zero, List.map_cons, List.sum_cons, ← ih]
      rfl

/-- Literals come before the places for tokens. -/
def LiteralsFirst (symbols : List Symbol) : Prop :=
  ∃ xs ys, symbols = xs ++ ys ∧ slot ∉ xs ∧ texts ys = []

theorem LiteralsFirst.joined {before after : List (List Symbol)}
    (hbefore : ∀ xs ∈ before, slot ∉ xs) (hafter : ∀ xs ∈ after, texts xs = []) :
    LiteralsFirst (joined (before ++ after)) := by
  induction before with
  | nil =>
    have hnone : texts (Symbol.joined after) = [] := by
      rw [texts_joined, List.flatMap_eq_nil_iff]
      exact hafter
    exact ⟨[], Symbol.joined after, rfl, List.not_mem_nil, hnone⟩
  | cons part before ih =>
    have hpart := hbefore part List.mem_cons_self
    obtain ⟨xs, ys, hjoined, hxs, hys⟩ :=
      ih fun xs hxs => hbefore xs (List.mem_cons_of_mem part hxs)
    rw [List.cons_append]
    cases hrest : before ++ after with
    | nil =>
      refine ⟨part, [], ?_, hpart, rfl⟩
      rw [Symbol.joined, List.intercalate_singleton, List.append_nil]
    | cons next rest =>
      rw [hrest] at hjoined
      refine ⟨part ++ ofText ", " ++ xs, ys, ?_, ?_, hys⟩
      · rw [Symbol.joined, List.intercalate_cons_cons, List.append_assoc _ xs, ← hjoined]
        rfl
      · simp [hpart, slot_not_mem_ofText, hxs]

theorem LiteralsFirst.texts_fill {symbols : List Symbol} {tokens : List String}
    (h : LiteralsFirst symbols) (hcount : symbols.count slot = tokens.length) :
    texts (fill symbols tokens) = texts symbols ++ tokens := by
  obtain ⟨xs, ys, rfl, hxs, hys⟩ := h
  rw [List.count_append, List.count_eq_zero.mpr hxs, Nat.zero_add] at hcount
  rw [fill_append hxs, texts_append, texts_append, hys, List.append_nil,
    Symbol.texts_fill hys hcount]

end Symbol

/-! ## Bare text -/

/-- Text without quotes, comments and dollar signs. -/
def IsBareText (text : String) : Prop := ∀ c ∈ text.toList, isBare c = true

instance (text : String) : Decidable (IsBareText text) :=
  List.decidableBAll _ _

theorem isBareText_append {a b : String} (ha : IsBareText a) (hb : IsBareText b) :
    IsBareText (a ++ b) := by
  intro c hc
  rw [String.toList_append, List.mem_append] at hc
  exact hc.elim (ha c) (hb c)

theorem free_ofText {text last : String} (h : IsBareText text)
    (hlast : Symbol.Free (Symbol.ofText last)) : Symbol.Free (Symbol.ofText (text ++ last)) := by
  rw [Symbol.ofText_append]
  exact (Symbol.passes_bare h).free_append hlast

/-- A property that the characters do not have that are not bare. -/
theorem isBare_of {property : Char → Bool}
    (hnone : ['\'', '"', '#', '$'].all (fun c => !property c) = true) {c : Char}
    (h : property c = true) : isBare c = true := by
  have hne : c ∉ ['\'', '"', '#', '$'] := by
    intro hc
    have hnot := List.all_eq_true.mp hnone c hc
    rw [h] at hnot
    cases hnot
  simpa [isBare, and_assoc] using hne

theorem isBareText_ofInt (n : Int) : IsBareText (Literal.ofInt n) := by
  intro c hc
  rw [Literal.ofInt, String.toList_ofList, Decimal.wholeChars, List.mem_append] at hc
  rcases hc with hsign | hdigit
  · split at hsign
    · rw [List.mem_singleton.mp hsign]
      rfl
    · cases hsign
  · have hdigit := Nat.isDigit_of_mem_toDigits (by decide) (by decide) hdigit
    exact isBare_of rfl hdigit

/-- The names in the settings are bare text. -/
structure Settings.IsBare (s : Settings) : Prop where
  handleTable : IsBareText s.handleTable
  resultSlot : IsBareText s.resultSlot
  envelopeHelper : IsBareText s.envelopeHelper
  callbackHelper : IsBareText s.callbackHelper
  hostModule : IsBareText s.hostModule

theorem isBare_of_isNameChar {c : Char} (h : isNameChar c = true) : isBare c = true :=
  isBare_of rfl h

theorem isNameChar_of_isNameStart {c : Char} (h : isNameStart c = true) : isNameChar c = true := by
  simp only [isNameStart, isNameChar, Char.isAlphanum, Bool.or_eq_true] at h ⊢
  rcases h with h | h
  · exact .inl h
  · exact .inr (.inl h)

theorem isNameChar_of_isIdentifier {name : List Char} (h : isIdentifier name = true) :
    ∀ c ∈ name, isNameChar c = true := by
  cases name with
  | nil => cases h
  | cons first rest =>
    rw [isIdentifier, Bool.and_eq_true, List.all_eq_true] at h
    intro c hc
    rcases List.mem_cons.mp hc with rfl | hc
    · exact isNameChar_of_isNameStart h.1
    · exact h.2 c hc

theorem isBare_of_isIdentifier {name : List Char} (h : isIdentifier name = true) :
    ∀ c ∈ name, isBare c = true :=
  fun c hc => isBare_of_isNameChar (isNameChar_of_isIdentifier h c hc)

theorem mem_dotted {path : List Char} {c : Char} (hc : c ∈ path) :
    c = '.' ∨ ∃ part ∈ dotted path, c ∈ part := by
  induction path with
  | nil => cases hc
  | cons first rest ih =>
    simp only [dotted]
    split
    · rename_i hdot
      rcases List.mem_cons.mp hc with rfl | hc
      · exact .inl hdot
      · exact (ih hc).imp_right fun ⟨part, hpart, hc⟩ => ⟨part, List.mem_cons_of_mem _ hpart, hc⟩
    · rcases List.mem_cons.mp hc with rfl | hc
      · right
        split
        · exact ⟨_, List.mem_cons_self, List.mem_cons_self⟩
        · exact ⟨_, List.mem_cons_self, List.mem_cons_self⟩
      · refine (ih hc).imp_right fun ⟨part, hpart, hc⟩ => ?_
        split
        · rename_i hnone
          rw [hnone] at hpart
          cases hpart
        · rename_i head more hsome
          rw [hsome] at hpart
          rcases List.mem_cons.mp hpart with rfl | hpart
          · exact ⟨_, List.mem_cons_self, List.mem_cons_of_mem _ hc⟩
          · exact ⟨part, List.mem_cons_of_mem _ hpart, hc⟩

theorem isBare_of_isModulePath {path : List Char} (h : isModulePath path = true) :
    ∀ c ∈ path, isBare c = true := by
  intro c hc
  rcases mem_dotted hc with rfl | ⟨part, hpart, hc⟩
  · rfl
  · exact isBare_of_isIdentifier (List.all_eq_true.mp h part hpart) c hc

/-- Settings that may be loaded name globals by identifiers and the module by a path. -/
theorem Settings.names_of_check (h : s.check = .ok ()) :
    (∀ g ∈ s.globals, isIdentifier g.2.toList = true) ∧
      isModulePath s.hostModule.toList = true := by
  unfold Settings.check at h
  split at h
  · cases h
  · rename_i hglobals
    constructor
    · intro g hg
      simpa using List.find?_eq_none.mp hglobals g hg
    · cases hpath : isModulePath s.hostModule.toList with
      | true => rfl
      | false =>
        rw [hpath] at h
        cases h

/-- Settings that may be loaded name nothing that is not bare. -/
theorem Settings.isBare_of_check (h : s.check = .ok ()) : s.IsBare := by
  obtain ⟨hnames, hpath⟩ := names_of_check h
  simp only [globals, List.forall_mem_cons] at hnames
  exact {
    handleTable := isBare_of_isIdentifier hnames.1
    resultSlot := isBare_of_isIdentifier hnames.2.1
    envelopeHelper := isBare_of_isIdentifier hnames.2.2.1
    callbackHelper := isBare_of_isIdentifier hnames.2.2.2.1
    hostModule := isBare_of_isModulePath hpath }

end RemoteHost
