import RemoteHost.Proofs.JsonTexts

/-!
# The members of an object

The text of an object is cut into its keys and the places where their values start. Whatever reads
an object field by field goes by these, and an object that was written has its fields as members.
-/

namespace RemoteHost.Json

open Text (Glyph)

variable {text rest : List Glyph}

/-! ## Passing over scalars -/

theorem readExponent_atEnd {atEnd : ReadCause} {numeral : Numeral} {found : Found Numeral}
    (h : readExponent atEnd numeral text = .ok found) (atEnd' : ReadCause) :
    readExponent atEnd' numeral text = .ok found := by
  unfold readExponent at h ⊢
  grind

theorem readScale_atEnd {atEnd : ReadCause} {numeral : Numeral} {found : Found Numeral}
    (h : readScale atEnd numeral text = .ok found) (atEnd' : ReadCause) :
    readScale atEnd' numeral text = .ok found := by
  unfold readScale at h ⊢
  split at h
  · exact readExponent_atEnd h atEnd'
  · exact readExponent_atEnd h atEnd'
  · exact h

theorem readFraction_atEnd {atEnd : ReadCause} {whole : Digits} {found : Found Numeral}
    (h : readFraction atEnd whole text = .ok found) (atEnd' : ReadCause) :
    readFraction atEnd' whole text = .ok found := by
  unfold readFraction at h ⊢
  split at h
  · dsimp only at h ⊢
    split_ifs at h with hnone
    rw [if_neg hnone]
    exact readScale_atEnd h atEnd'
  · exact readScale_atEnd h atEnd'

/-- What a number is read as does not depend on the fault of a text that ends within it. -/
theorem readNumeral_atEnd {atEnd : ReadCause} {found : Found Numeral}
    (h : readNumeral atEnd text = .ok found) (atEnd' : ReadCause) :
    readNumeral atEnd' text = .ok found := by
  unfold readNumeral at h ⊢
  split at h
  · cases h
  · split_ifs at h with hdigit
    rw [if_neg hdigit]
    exact readFraction_atEnd h atEnd'
  · split at h
    · cases h
    · exact readFraction_atEnd h atEnd'

theorem readNumeral_of_readNumber {negative : Bool} {n : JsonNumber}
    (h : readNumber negative text = .ok (n, rest)) (atEnd : ReadCause) :
    ∃ numeral, readNumeral atEnd text = .ok (numeral, rest) := by
  obtain ⟨⟨numeral, more⟩, hread, h⟩ := Envelope.bind_eq_ok.mp h
  dsimp only at h
  split at h
  · cases h
    exact ⟨numeral, readNumeral_atEnd hread atEnd⟩
  · cases h

theorem skipStringFrom_drop (skip : Nat) (text : List Glyph) :
    skipStringFrom skip text = skipStringFrom 0 (text.drop skip) := by
  induction skip generalizing text with
  | zero => rfl
  | succ skip ih =>
    cases text with
    | nil => rfl
    | cons g text => exact ih text

theorem readStringFrom_drop (done : List Char) (doubtful : Option Nat) (skip : Nat)
    (text : List Glyph) :
    readStringFrom done doubtful skip text =
      readStringFrom done doubtful 0 (text.drop skip) := by
  induction skip generalizing text with
  | zero => rfl
  | succ skip ih =>
    cases text with
    | nil => rfl
    | cons g text => exact ih text

theorem expectPair_eq_ok {c : Char} : expectPair c text = .ok () ↔ text.head? = some (.char c) := by
  cases text with
  | nil => simp [expectPair]
  | cons g text => simp [expectPair]

/-- The second half of a surrogate pair is an escape of its own. -/
theorem unicodeEscape_halves {c : Char} {n : Nat} (h : unicodeEscape text = .ok (c, n)) :
    (∃ first, hexUnit text = .ok first) ∧ (n = 4 ∨ n = 10 ∧ ∃ more second,
      text.drop 4 = .char '\\' :: .char 'u' :: more ∧ hexUnit more = .ok second) := by
  obtain ⟨first, hfirst, h⟩ := Envelope.bind_eq_ok.mp h
  refine ⟨⟨first, hfirst⟩, ?_⟩
  dsimp only at h
  split_ifs at h
  · cases h
    exact .inl rfl
  · obtain ⟨_, hbackslash, h⟩ := Envelope.bind_eq_ok.mp h
    obtain ⟨_, hletter, h⟩ := Envelope.bind_eq_ok.mp h
    obtain ⟨second, hsecond, h⟩ := Envelope.bind_eq_ok.mp h
    split_ifs at h
    obtain ⟨-, rfl⟩ := Prod.mk.inj (Except.ok.inj h)
    obtain ⟨more, hmore⟩ := List.head?_eq_some_iff.mp (expectPair_eq_ok.mp hbackslash)
    rw [hmore, List.drop_one, List.tail_cons] at hletter
    obtain ⟨last, rfl⟩ := List.head?_eq_some_iff.mp (expectPair_eq_ok.mp hletter)
    rw [hmore] at hsecond
    exact .inr ⟨rfl, last, second, hmore, hsecond⟩

/-- An escape is passed over in one piece, or in two if it is a surrogate pair. -/
theorem escapeLength_of_escapeAt {c : Char} {n : Nat} (h : escapeAt text = .ok (c, n)) :
    escapeLength text = .ok n ∨ n = 11 ∧ escapeLength text = .ok 5 ∧ ∃ more,
      text.drop 5 = .char '\\' :: more ∧ escapeLength more = .ok 5 := by
  unfold escapeLength
  split
  case h_1 more =>
    rw [escapeAt, Envelope.map_eq_ok] at h
    obtain ⟨⟨c', k⟩, h, heq⟩ := h
    obtain ⟨⟨first, hfirst⟩, rfl | ⟨rfl, last, second, hdrop, hsecond⟩⟩ := unicodeEscape_halves h
    · cases heq
      exact .inl (by rw [hfirst]; rfl)
    · cases heq
      refine .inr ⟨rfl, by rw [hfirst]; rfl, .char 'u' :: last, hdrop, ?_⟩
      change (hexUnit last).map _ = _
      rw [hsecond]
      rfl
  case h_2 =>
    rw [h]
    exact .inl rfl

/-- A string that can be read can be passed over. -/
theorem skipStringFrom_of_readStringFrom {done : List Char} {doubtful : Option Nat} {value : String}
    (h : readStringFrom done doubtful 0 text = .ok (value, rest)) :
    skipStringFrom 0 text = .ok rest := by
  -- on the length, since an escape takes several glyphs at once
  induction hlength : text.length using Nat.strongRecOn generalizing text done doubtful with
  | _ length ih =>
    subst hlength
    cases text with
    | nil => cases h
    | cons g text =>
      have onward : ∀ {later : List Glyph} {done : List Char} {doubtful : Option Nat},
          later <:+ text → readStringFrom done doubtful 0 later = .ok (value, rest) →
            skipStringFrom 0 later = .ok rest := fun hlater h =>
        ih _ (Nat.lt_succ_of_le hlater.length_le) h rfl
      cases g with
      | stray b =>
        rw [readStringFrom] at h
        rw [skipStringFrom]
        exact onward (List.suffix_refl text) h
      | char c =>
        unfold readStringFrom at h
        rw [skipStringFrom]
        split_ifs at h with hquote hbackslash hcontrol
        · rw [if_pos hquote]
          cases doubtful with
          | none => cases h; rfl
          | some _ => cases h
        · rw [if_neg hquote, if_pos hbackslash]
          split at h
          · cases h
          next c' n hescape =>
            rw [readStringFrom_drop] at h
            rcases escapeLength_of_escapeAt hescape with hone | ⟨rfl, htwo, more, hmore, hlast⟩
            · rw [hone]
              dsimp only
              rw [skipStringFrom_drop]
              exact onward (List.drop_suffix _ _) h
            -- the reader takes both halves of a pair at once, where the skipper stops in between
            · have hdrop : text.drop 11 = more.drop 5 := by
                rw [show 11 = 5 + 6 from rfl, ← List.drop_drop, hmore]
                rfl
              rw [htwo]
              dsimp only
              rw [skipStringFrom_drop, hmore, skipStringFrom, if_neg (by decide), if_pos rfl, hlast]
              dsimp only
              rw [skipStringFrom_drop, ← hdrop]
              exact onward (List.drop_suffix _ _) h
        · rw [if_neg hquote, if_neg hbackslash, if_neg hcontrol]
          exact onward (List.suffix_refl _) h

theorem skipValueWith_digit {c : Char} (hc : c.isDigit = true) (fuel : Nat) (text : List Glyph) :
    skipValueWith (fuel + 1) (.char c :: text) =
      (readNumeral .invalidNumber (.char c :: text)).map (·.2) := by
  have hdigit : (digitValue? (.char c)).isSome = true := by rw [digitValue?_of_isDigit hc]; rfl
  rw [skipValueWith, skipBlanks_cons (isBlankGlyph_of_isDigit hc)]
  split
  case h_1 heq => cases heq
  case h_9 heq =>
    obtain ⟨rfl, rfl⟩ := List.cons.inj heq
    rw [if_pos hdigit]
  all_goals
    rename_i heq
    cases heq
    exact absurd hc (by decide)

theorem skipValueWith_skipBlanks (fuel : Nat) (text : List Glyph) :
    skipValueWith (fuel + 1) (skipBlanks text) = skipValueWith (fuel + 1) text := by
  rw [skipValueWith, skipValueWith, skipBlanks_skipBlanks]

/-- A scalar is passed over. -/
theorem ScalarAt.skipValueWith_eq {v : Json} (h : ScalarAt v (skipBlanks text) rest) (fuel : Nat) :
    skipValueWith (fuel + 1) text = .ok rest := by
  rw [← skipValueWith_skipBlanks]
  generalize skipBlanks text = start at h
  cases h with
  | @null text _ h | @true text _ h | @false text _ h =>
    change (readWord () _ text).map _ = _
    rw [h]
    rfl
  | string h => exact skipStringFrom_of_readStringFrom h
  | @negative n text _ h =>
    obtain ⟨numeral, hread⟩ := readNumeral_of_readNumber h .invalidNumber
    change (readNumeral .invalidNumber text).map _ = _
    rw [hread]
    rfl
  | digit hdigit h =>
    obtain ⟨numeral, hread⟩ := readNumeral_of_readNumber h .invalidNumber
    rw [skipValueWith_digit hdigit, hread]
    rfl

theorem ScalarAt.skipValue_eq {v : Json} (h : ScalarAt v (skipBlanks text) rest) :
    skipValue text = .ok rest := h.skipValueWith_eq _

/-! ## What readers leave -/

theorem skipBlanks_suffix (text : List Glyph) : skipBlanks text <:+ text := List.dropWhile_suffix _

theorem readWord_suffix {word : List Char} (h : readWord () word text = .ok ((), rest)) :
    rest <:+ text := by
  induction word generalizing text with
  | nil =>
    cases h
    exact List.suffix_refl _
  | cons c word ih =>
    cases text with
    | nil => cases h
    | cons g text =>
      rw [readWord] at h
      split_ifs at h
      exact (ih h).trans (List.suffix_cons g text)

theorem spanDigits_suffix (digits : Digits) (text : List Glyph) :
    (spanDigits digits text).2 <:+ text := by
  induction text generalizing digits with
  | nil => exact List.suffix_refl _
  | cons g text ih =>
    rw [spanDigits]
    split
    · exact (ih _).trans (List.suffix_cons g text)
    · exact List.suffix_refl _

theorem spanExponent_suffix (value : Nat) (overlong : Option (List Glyph)) (text : List Glyph) :
    (spanExponent value overlong text).2.2 <:+ text := by
  induction text generalizing value overlong with
  | nil => exact List.suffix_refl _
  | cons g text ih =>
    rw [spanExponent]
    split
    · exact (ih _ _).trans (List.suffix_cons g text)
    · exact List.suffix_refl _

theorem readExponent_suffix {atEnd : ReadCause} {numeral numeral' : Numeral}
    (h : readExponent atEnd numeral text = .ok (numeral', rest)) : rest <:+ text := by
  have digits : ∀ {after : List Glyph}, after <:+ text →
      (spanExponent 0 none after).2.2 <:+ text := (spanExponent_suffix 0 none _).trans
  unfold readExponent at h
  dsimp only at h
  split at h
  · cases h
  next hafter =>
    split at h
    · cases h
    · cases h
      refine digits ?_
      split
      · exact List.suffix_cons _ _
      · exact List.suffix_cons _ _
      · exact List.suffix_refl _

theorem readScale_suffix {atEnd : ReadCause} {numeral numeral' : Numeral}
    (h : readScale atEnd numeral text = .ok (numeral', rest)) : rest <:+ text := by
  unfold readScale at h
  split at h
  · exact (readExponent_suffix h).trans (List.suffix_cons _ _)
  · exact (readExponent_suffix h).trans (List.suffix_cons _ _)
  · cases h
    exact List.suffix_refl _

theorem readFraction_suffix {atEnd : ReadCause} {whole : Digits} {numeral : Numeral}
    (h : readFraction atEnd whole text = .ok (numeral, rest)) : rest <:+ text := by
  unfold readFraction at h
  split at h
  · dsimp only at h
    split_ifs at h
    exact (readScale_suffix h).trans
      ((spanDigits_suffix _ _).trans (List.suffix_cons _ _))
  · exact readScale_suffix h

theorem readNumeral_suffix {atEnd : ReadCause} {numeral : Numeral}
    (h : readNumeral atEnd text = .ok (numeral, rest)) : rest <:+ text := by
  unfold readNumeral at h
  split at h
  · cases h
  · split_ifs at h
    exact (readFraction_suffix h).trans (List.suffix_cons _ _)
  next g more _ =>
    split at h
    · cases h
    · exact (readFraction_suffix h).trans (spanDigits_suffix ⟨0, 0, 0⟩ (g :: more))

theorem skipStringFrom_suffix {skip : Nat} (h : skipStringFrom skip text = .ok rest) :
    rest <:+ text := by
  induction text generalizing skip with
  | nil => cases skip <;> cases h
  | cons g text ih =>
    have onward : ∀ {skip : Nat}, skipStringFrom skip text = .ok rest → rest <:+ g :: text :=
      fun h => (ih h).trans (List.suffix_cons g text)
    cases skip with
    | succ skip => exact onward h
    | zero =>
      cases g with
      | stray b => exact onward h
      | char c =>
        rw [skipStringFrom] at h
        split_ifs at h
        · cases h
          exact List.suffix_cons _ _
        · split at h
          · cases h
          · exact onward h
        · exact onward h

theorem afterColon_suffix (h : afterColon text = .ok rest) : rest <:+ text := by
  have hblanks := skipBlanks_suffix text
  unfold afterColon at h
  split at h
  · cases h
  next heq =>
    cases h
    exact (List.suffix_cons _ _).trans (heq ▸ hblanks)
  · cases h

/-- What is left once a value, the items of a list or the fields of an object are passed over. -/
theorem skipWith_suffix (fuel : Nat) :
    (∀ {text rest}, skipValueWith fuel text = .ok rest → rest <:+ text) ∧
    (∀ {text rest}, skipItemsWith fuel text = .ok rest → rest <:+ text) ∧
    (∀ {text rest}, skipFieldsWith fuel text = .ok rest → rest <:+ text) := by
  induction fuel with
  | zero => exact ⟨nofun, nofun, nofun⟩
  | succ fuel ih =>
    obtain ⟨hvalue, hitems, hfields⟩ := ih
    have onto : ∀ {text more rest : List Glyph} {g : Glyph}, skipBlanks text = g :: more →
        rest <:+ more → rest <:+ text := fun heq h =>
      h.trans ((List.suffix_cons _ _).trans (heq ▸ skipBlanks_suffix _))
    refine ⟨?_, ?_, ?_⟩
    · intro text rest h
      rw [skipValueWith] at h
      split at h
      case h_1 => cases h
      case h_2 heq | h_3 heq | h_4 heq =>
        obtain ⟨⟨⟨⟩, _⟩, hword, rfl⟩ := Envelope.map_eq_ok.mp h
        exact onto heq (readWord_suffix hword)
      case h_5 heq => exact onto heq (skipStringFrom_suffix h)
      case h_6 heq =>
        obtain ⟨_, hread, rfl⟩ := Envelope.map_eq_ok.mp h
        exact onto heq (readNumeral_suffix hread)
      case h_7 heq =>
        split at h
        next hend =>
          cases h
          exact onto heq (onto hend (List.suffix_refl _))
        · cases h
        · exact onto heq ((hitems h).trans (skipBlanks_suffix _))
      case h_8 heq =>
        split at h
        next hend =>
          cases h
          exact onto heq (onto hend (List.suffix_refl _))
        · cases h
        · exact onto heq ((hfields h).trans (skipBlanks_suffix _))
      case h_9 heq =>
        split_ifs at h
        obtain ⟨_, hread, rfl⟩ := Envelope.map_eq_ok.mp h
        exact (readNumeral_suffix hread).trans (heq ▸ skipBlanks_suffix _)
    · intro text rest h
      rw [skipItemsWith] at h
      obtain ⟨more, hskip, h⟩ := Envelope.bind_eq_ok.mp h
      refine List.IsSuffix.trans ?_ (hvalue hskip)
      split at h
      · cases h
      next hend =>
        cases h
        exact onto hend (List.suffix_refl _)
      next hcomma => exact onto hcomma (hitems h)
      · cases h
    · intro text rest h
      rw [skipFieldsWith] at h
      split at h
      · cases h
      next hquote =>
        obtain ⟨_, hkey, h⟩ := Envelope.bind_eq_ok.mp h
        obtain ⟨_, hcolon, h⟩ := Envelope.bind_eq_ok.mp h
        obtain ⟨_, hskip, h⟩ := Envelope.bind_eq_ok.mp h
        refine onto hquote (List.IsSuffix.trans ?_ ((hvalue hskip).trans
          ((afterColon_suffix hcolon).trans (skipStringFrom_suffix hkey))))
        split at h
        · cases h
        next hend =>
          cases h
          exact onto hend (List.suffix_refl _)
        next hcomma => exact onto hcomma (hfields h)
        · cases h
      · cases h

theorem skipValue_suffix (h : skipValue text = .ok rest) : rest <:+ text := (skipWith_suffix _).1 h

theorem readString_suffix {value : String} (h : readString text = .ok (value, rest)) :
    rest <:+ text := skipStringFrom_suffix (skipStringFrom_of_readStringFrom h)

theorem nextKey_suffix {first : Bool} {inner inner' : List Glyph}
    (h : nextKey first text = .ok (some inner, inner')) : ∃ g, g :: inner <:+ text := by
  have hblanks := skipBlanks_suffix text
  unfold nextKey at h
  split at h
  · cases h
  · cases h
  next more heq =>
    split_ifs at h
    split at h
    · cases h
    next hquote =>
      cases h
      exact ⟨_, (hquote ▸ skipBlanks_suffix _).trans
        ((List.suffix_cons _ _).trans (heq ▸ hblanks))⟩
    · cases h
    · cases h
  next heq =>
    split_ifs at h
    cases h
    exact ⟨_, heq ▸ hblanks⟩
  · split_ifs at h

/-! ## Members -/

/-- The keys of an object from its first or next one to its end, each with the text at which its
value starts. -/
inductive Members : Bool → List Glyph → List (String × List Glyph) → List Glyph → Prop where
  | none {first text rest} (hend : nextKey first text = .ok (none, rest)) :
      Members first text [] rest
  | more {first text inner inner' key afterKey start afterValue members rest}
      (hnext : nextKey first text = .ok (some inner, inner'))
      (hkey : readString inner = .ok (key, afterKey))
      (hcolon : afterColon afterKey = .ok start)
      (hvalue : skipValue start = .ok afterValue)
      (hmore : Members false afterValue members rest) :
      Members first text ((key, start) :: members) rest

theorem Members.length_le {first : Bool} {members : List (String × List Glyph)}
    (h : Members first text members rest) : members.length ≤ text.length := by
  induction h with
  | none => exact Nat.zero_le _
  | more hnext hkey hcolon hvalue _ ih =>
    obtain ⟨g, hinner⟩ := nextKey_suffix hnext
    have hlength := hinner.length_le
    have hafter := ((skipValue_suffix hvalue).trans
      ((afterColon_suffix hcolon).trans (readString_suffix hkey))).length_le
    rw [List.length_cons] at hlength ⊢
    omega

theorem Members.length_lt {g : Glyph} {inner : List Glyph} {first : Bool}
    {members : List (String × List Glyph)} (htext : skipBlanks text = g :: inner)
    (h : Members first inner members rest) : members.length < text.length := by
  have hinner : inner.length < text.length := by
    have hblanks := (skipBlanks_suffix text).length_le
    rwa [htext] at hblanks
  exact Nat.lt_of_le_of_lt h.length_le hinner

/-- The value of a member is a given scalar. -/
def Spells (member : String × List Glyph) (field : String × Json) : Prop :=
  member.1 = field.1 ∧ ∃ rest, ScalarAt field.2 (skipBlanks member.2) rest

/-- An object is read by its members. -/
theorem Members.readFieldsWith_eq {first : Bool} {members : List (String × List Glyph)}
    (h : Members first text members rest) {fields : List (String × Json)}
    (hfields : List.Forall₂ Spells members fields) {fuel : Nat} (hfuel : fields.length + 2 ≤ fuel)
    (depth : Nat) (done : List (String × Json)) :
    readFieldsWith fuel depth first done text =
      .ok (fields.foldl (fun sorted f => setField f.1 f.2 sorted) done, rest) := by
  induction h generalizing fields fuel done with
  | none hend =>
    cases hfields
    obtain ⟨fuel, rfl⟩ := Nat.exists_eq_add_of_le' (Nat.le_trans (by decide) hfuel : 1 ≤ fuel)
    rw [readFieldsWith, hend]
    rfl
  | @more first text inner inner' key afterKey start afterValue members rest hnext hkey hcolon
      hvalue _ ih =>
    obtain ⟨field, fields, ⟨rfl, after, hscalar⟩, hmembers, rfl⟩ :=
      List.forall₂_cons_left_iff.mp hfields
    obtain ⟨fuel, rfl⟩ := Nat.exists_eq_add_of_le' (Nat.le_trans (by simp) hfuel : 2 ≤ fuel)
    rw [List.length_cons] at hfuel
    obtain rfl : after = afterValue := Except.ok.inj (hscalar.skipValue_eq.symm.trans hvalue)
    rw [readFieldsWith, hnext]
    simp only [hkey, hcolon, hscalar.readValueWith_eq, bind, Except.bind, List.foldl_cons]
    refine ih hmembers ?_ _
    omega

/-! ## Objects that were written -/

/-- A field with some blanks before its key and before its value. -/
def fieldText (gap space : List Char) (field : String × Json) : List Char :=
  gap ++ stringChars field.1 ++ ':' :: (space ++ field.2.chars)

/-- The fields of an object from its first or next one on, all with the same blanks. -/
def fieldTexts (gap space : List Char) : Bool → List (String × Json) → List Char
  | _, [] => []
  | first, field :: rest =>
    (if first then [] else [',']) ++ fieldText gap space field ++ fieldTexts gap space false rest

theorem fieldChars_eq (fields : List (String × Json)) :
    fieldChars fields = fieldTexts [] [] true fields := by
  induction fields with
  | nil => rfl
  | cons field rest ih =>
    obtain ⟨key, value⟩ := field
    cases rest with
    | nil => simp [fieldChars, fieldTexts, fieldText]
    | cons next rest =>
      rw [fieldChars, ih]
      · simp [fieldTexts, fieldText]
      · exact List.cons_ne_nil _ _

theorem lineChars_plain {v : Json} (hv : v.IsPlain) (level : Nat) :
    lineChars level v = v.chars := by
  cases hv with
  | null | string | count => rfl
  | bool b => cases b <;> rfl

theorem lineFields_eq {fields : List (String × Json)} (hplain : ∀ f ∈ fields, f.2.IsPlain)
    (level : Nat) : lineFields level fields = fieldTexts (newLine level) [' '] true fields := by
  induction fields with
  | nil => rfl
  | cons field rest ih =>
    obtain ⟨key, value⟩ := field
    have hvalue := lineChars_plain (hplain _ List.mem_cons_self) level
    cases rest with
    | nil => simp [lineFields, fieldTexts, fieldText, hvalue]
    | cons next rest =>
      rw [lineFields, ih fun f hf => hplain f (List.mem_cons_of_mem _ hf), hvalue]
      · simp [fieldTexts, fieldText]
      · exact List.cons_ne_nil _ _

def AreBlank (cs : List Char) : Prop := ∀ c ∈ cs, isBlankGlyph (.char c) = true

theorem areBlank_nil : AreBlank [] := nofun

theorem areBlank_newLine (level : Nat) : AreBlank (newLine level) := by
  intro c hc
  rcases List.mem_cons.mp hc with rfl | hc
  · rfl
  · rw [List.eq_of_mem_replicate hc]
    rfl

theorem skipBlanks_run {cs : List Char} (h : AreBlank cs) (text : List Glyph) :
    skipBlanks (spelled cs ++ text) = skipBlanks text := by
  induction cs with
  | nil => rfl
  | cons c cs ih =>
    rw [spelled_cons, List.cons_append, skipBlanks, List.dropWhile_cons_of_pos (h c (by simp))]
    exact ih fun c hc => h c (List.mem_cons_of_mem _ hc)

section Written

variable {gap space close : List Char} (hgap : AreBlank gap) (hspace : AreBlank space)
  (hclose : AreBlank close)

include hclose in
theorem nextKey_end (first : Bool) :
    nextKey first (spelled (close ++ ['\x7d']) ++ rest) = .ok (none, rest) := by
  rw [spelled_append, List.append_assoc, nextKey, skipBlanks_run hclose]
  rfl

include hgap in
theorem nextKey_field (first : Bool) :
    nextKey first (spelled ((if first then [] else [',']) ++ gap ++ ['"']) ++ rest) =
      .ok (some rest, rest) := by
  cases first with
  | true =>
    rw [spelled_append, List.append_assoc, nextKey, if_pos rfl, List.nil_append,
      skipBlanks_run hgap]
    rfl
  | false =>
    rw [spelled_append, spelled_append, List.append_assoc, List.append_assoc, nextKey]
    have hcomma : skipBlanks (spelled [','] ++ (spelled gap ++ (spelled ['"'] ++ rest))) =
      .char ',' :: (spelled gap ++ (spelled ['"'] ++ rest)) := rfl
    simp only [Bool.false_eq_true, if_false, hcomma, skipBlanks_run hgap]
    rfl

theorem afterColon_colon (text : List Glyph) : afterColon (.char ':' :: text) = .ok text := rfl

include hclose in
theorem endsNumber_fieldTexts (fields : List (String × Json)) :
    EndsNumber (spelled (fieldTexts gap space false fields ++ close ++ ['\x7d']) ++ rest) := by
  cases fields with
  | cons field fields => exact endsNumber_cons rfl (by decide) _
  | nil =>
    cases close with
    | nil => exact endsNumber_cons rfl (by decide) _
    | cons c close =>
      have hc := hclose c List.mem_cons_self
      simp only [isBlankGlyph, Bool.or_eq_true, beq_iff_eq, Glyph.char.injEq] at hc
      rcases hc with ((rfl | rfl) | rfl) | rfl <;> exact endsNumber_cons rfl (by decide) _

include hgap hspace hclose in
/-- An object that was written has its fields as members. -/
theorem exists_members {fields : List (String × Json)} (hplain : ∀ f ∈ fields, f.2.IsPlain)
    (first : Bool) : ∃ members,
      Members first (spelled (fieldTexts gap space first fields ++ close ++ ['\x7d']) ++ rest)
        members rest ∧ List.Forall₂ Spells members fields := by
  induction fields generalizing first with
  | nil => exact ⟨[], .none (nextKey_end hclose first), .nil⟩
  | cons field fields ih =>
    obtain ⟨members, hmembers, hfields⟩ :=
      ih (fun f hf => hplain f (List.mem_cons_of_mem _ hf)) false
    let tail := spelled (fieldTexts gap space false fields ++ close ++ ['\x7d']) ++ rest
    have hends : EndsNumber tail := endsNumber_fieldTexts hclose fields
    have hscalar := scalarAt_chars (hplain field List.mem_cons_self) hends
    have hstart : skipBlanks (spelled space ++ (spelled field.2.chars ++ tail)) =
        spelled field.2.chars ++ tail := by
      rw [skipBlanks_run hspace, hscalar.skipBlanks_eq]
    rw [← hstart] at hscalar
    have htext :
        spelled (fieldTexts gap space first (field :: fields) ++ close ++ ['\x7d']) ++ rest =
          spelled ((if first then [] else [',']) ++ gap ++ ['"']) ++
          (spelled (field.1.toList.flatMap escapedChar ++ ['"']) ++
            .char ':' :: (spelled space ++ (spelled field.2.chars ++ tail))) := by
      simp [tail, fieldTexts, fieldText, stringChars]
    rw [htext]
    exact ⟨_, .more (nextKey_field hgap first) (readString_chars field.1) (afterColon_colon _)
      hscalar.skipValue_eq hmembers, .cons ⟨rfl, _, hscalar⟩ hfields⟩

end Written

/-- The text of an object, cut into its members. -/
def IsObject (text : List Glyph) (members : List (String × List Glyph)) : Prop :=
  ∃ inner rest, skipBlanks text = .char '\x7b' :: inner ∧ Members true inner members rest ∧
    expectEnd rest = .ok ()

theorem IsObject.read_eq {members : List (String × List Glyph)} (h : IsObject text members)
    {fields : List (String × Json)} (hfields : List.Forall₂ Spells members fields) :
    read text = .ok (ofFields fields) := by
  obtain ⟨inner, rest, htext, hmembers, hend⟩ := h
  have hfuel : fields.length + 2 ≤ 2 * text.length + 1 := by
    have hlength := hmembers.length_lt htext
    rw [hfields.length_eq] at hlength
    omega
  have hvalue : readValue text = .ok (ofFields fields, rest) := by
    rw [readValue, fuelFor, readValueWith, htext]
    simp only [depthLimit, hmembers.readFieldsWith_eq hfields hfuel, bind, Except.bind]
    rfl
  rw [read, hvalue]
  simp only [hend, bind, Except.bind]

theorem exists_isObject {gap space close : List Char} {fields : List (String × Json)}
    (hplain : ∀ f ∈ fields, f.2.IsPlain) (hgap : AreBlank gap) (hspace : AreBlank space)
    (hclose : AreBlank close) :
    let text := spelled ('\x7b' :: (fieldTexts gap space true fields ++ close ++ ['\x7d']))
    ∃ members, IsObject text members ∧ List.Forall₂ Spells members fields := by
  intro text
  obtain ⟨members, hmembers, hfields⟩ := @exists_members [] _ _ _ hgap hspace hclose _ hplain true
  rw [List.append_nil] at hmembers
  exact ⟨members, ⟨_, [], rfl, hmembers, rfl⟩, hfields⟩

theorem isObject_compact {fields : List (String × Json)} (hplain : ∀ f ∈ fields, f.2.IsPlain) :
    ∃ members, IsObject (Text.glyphs (object fields).compact) members ∧
      List.Forall₂ Spells members fields := by
  have htext : Text.glyphs (object fields).compact =
      spelled ('\x7b' :: (fieldTexts [] [] true fields ++ [] ++ ['\x7d'])) := by
    rw [Text.glyphs, compact, String.toList_ofList, chars, fieldChars_eq, List.append_nil]
    rfl
  rw [htext]
  exact exists_isObject hplain areBlank_nil areBlank_nil areBlank_nil

theorem isObject_pretty {fields : List (String × Json)} (hplain : ∀ f ∈ fields, f.2.IsPlain) :
    ∃ members, IsObject (Text.glyphs (object fields).pretty) members ∧
      List.Forall₂ Spells members fields := by
  cases fields with
  | nil =>
    have hsame : (object []).pretty = (object []).compact := by
      rw [pretty, compact, lineChars, chars, fieldChars]
      rfl
    rw [hsame]
    exact isObject_compact hplain
  | cons field fields =>
    have htext : Text.glyphs (object (field :: fields)).pretty =
        spelled ('\x7b' ::
          (fieldTexts (newLine 1) [' '] true (field :: fields) ++ newLine 0 ++ ['\x7d'])) := by
      rw [Text.glyphs, pretty, String.toList_ofList, lineChars, lineFields_eq hplain]
      · rfl
      · exact List.cons_ne_nil _ _
    rw [htext]
    exact exists_isObject hplain (areBlank_newLine 1) (List.forall_mem_singleton.mpr rfl)
      (areBlank_newLine 0)

/-- An object of scalars is read back from the line it is written on. -/
theorem parse_compact {fields : List (String × Json)} (hplain : ∀ f ∈ fields, f.2.IsPlain) :
    parse (object fields).compact = .ok (ofFields fields) := by
  obtain ⟨members, hmembers, hfields⟩ := isObject_compact hplain
  exact hmembers.read_eq hfields

end RemoteHost.Json
