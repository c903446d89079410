import RemoteHost.Proofs.CataloguePrograms
import RemoteHost.Proofs.GivenKeys
import RemoteHost.Proofs.HandleTables
import RemoteHost.Proofs.ReleaseDiscipline
import RemoteHost.Proofs.UndoneReleases

/-!
# What release programs do

The program of a release, read and carried out by the host, takes the drained keys out of the handle
table and leaves everything else in it. It answers with the number of the keys, which is the number
of the entries that it took out only if every key had one.
-/

namespace RemoteHost

variable {F Obj : Type} {s : Settings} {keys : List String}

/-! ## Tokens -/

namespace Token

theorem ofSymbols_nameChars {cs : List Char} (h : ∀ c ∈ cs, isNameChar c = true)
    (name : List Char) (rest : List Symbol) :
    ofSymbols name (cs.map .bare ++ rest) = ofSymbols (name ++ cs) rest := by
  induction cs generalizing name with
  | nil => rw [List.map_nil, List.nil_append, List.append_nil]
  | cons c cs ih =>
    have hlater := ih (fun d hd => h d (List.mem_cons_of_mem c hd)) (name ++ [c])
    rw [List.map_cons, List.cons_append, ofSymbols, if_pos (h c List.mem_cons_self), hlater,
      List.append_assoc]
    rfl

theorem isNameChar_of_isName {n : String} (hn : isName n = true) :
    ∀ c ∈ n.toList, isNameChar c = true := by
  obtain ⟨hidentifier, -⟩ := Bool.and_eq_true_iff.mp hn
  exact isNameChar_of_isIdentifier hidentifier

/-- A name ends where a character follows that is in no name. -/
theorem ofSymbols_name {n : String} (hn : isName n = true) {c : Char} (hc : isNameChar c = false)
    (rest : List Symbol) : ofSymbols [] (Symbol.ofText n ++ .bare c :: rest) =
      .name n :: ofSymbols [] (.bare c :: rest) := by
  have hne : n.toList.isEmpty = false := by
    cases hchars : n.toList with
    | nil => simp [isName, hchars, isIdentifier] at hn
    | cons => rfl
  have hname : ofName n.toList = [.name n] := by
    rw [ofName, hne, String.ofList_toList]
    rfl
  have hstop : ¬isNameChar c = true := by simp [hc]
  rw [Symbol.ofText, ofSymbols_nameChars (isNameChar_of_isName hn), List.nil_append, ofSymbols,
    ofSymbols, if_neg hstop, if_neg hstop, hname]
  split <;> rfl

/-- The literals of texts with commas between them. -/
theorem ofSymbols_joined (keys : List String) (rest : List Symbol) :
    ofSymbols [] (Symbol.joined (keys.map fun key => [.literal key.toList]) ++ .bare ']' :: rest) =
      HostExpression.itemTokens (keys.map .text) ++ ofSymbols [] (.bare ']' :: rest) := by
  induction keys with
  | nil => rfl
  | cons key keys ih =>
    have hliteral : ∀ later : List Symbol, ofSymbols [] (.literal key.toList :: later) =
        .text key :: ofSymbols [] later := by
      intro later
      rw [ofSymbols, String.ofList_toList]
      rfl
    have hcomma : ∀ later : List Symbol, ofSymbols [] (Symbol.ofText ", " ++ later) =
        .mark ',' :: ofSymbols [] later := fun _ => rfl
    cases keys with
    | nil => exact hliteral _
    | cons next keys =>
      rw [List.map_cons] at ih
      rw [List.map_cons, List.map_cons, Symbol.joined, List.intercalate_cons_cons, ← Symbol.joined,
        List.append_assoc, List.append_assoc, List.singleton_append, hliteral, hcomma, ih]
      rfl

/-- A name ends where a text begins with a character that is in no name. -/
theorem ofSymbols_name_text {n text : String} (hn : isName n = true) {c : Char} {cs : List Char}
    (htext : text.toList = c :: cs) (hc : isNameChar c = false) (rest : List Symbol) :
    ofSymbols [] (Symbol.ofText n ++ (Symbol.ofText text ++ rest)) =
      .name n :: ofSymbols [] (Symbol.ofText text ++ rest) := by
  rw [Symbol.ofText, Symbol.ofText, htext]
  exact ofSymbols_name hn hc (cs.map .bare ++ rest)

end Token

/-! ## Reading -/

/-- The symbols of the expression that drops keys. -/
def releaseSymbols (s : Settings) (keys : List String) : List Symbol :=
  Symbol.ofText ("len([" ++ s.handleTable ++ ".pop(k, None) for k in ") ++
    (Argument.texts keys).symbols s ++ Symbol.ofText "])"

/-- The expression that drops keys. -/
def HostExpression.release (s : Settings) (keys : List String) : HostExpression :=
  .call (.name "len") [.popEach s.handleTable keys]

/-- The host understands the names in the settings as the session does. The comprehension of a
release hides what the name of its variable meant before. -/
structure Settings.IsUnderstood (s : Settings) (globals : HostGlobals Obj) : Prop where
  resultSlot : isName s.resultSlot = true
  handleTable : isName s.handleTable = true
  envelopeHelper : isName s.envelopeHelper = true
  table : globals s.handleTable = some .table
  envelope : globals s.envelopeHelper = some .envelope
  len : globals "len" = some .len
  notHidden : s.handleTable ≠ "k"

theorem isBareText_of_isName {n : String} (hn : isName n = true) : IsBareText n :=
  fun c hc => isBare_of_isNameChar (Token.isNameChar_of_isName hn c hc)

theorem spell_releaseSymbols (s : Settings) (keys : List String) :
    String.ofList (Symbol.spell (releaseSymbols s keys)) = Program.releaseExpression s keys := by
  have hkeys : Symbol.spell ((Argument.texts keys).symbols s) = (Literal.ofStrings keys).toList :=
    Argument.spell_symbols s _
  rw [← String.toList_inj, String.toList_ofList]
  simp only [releaseSymbols, Symbol.spell_append, Symbol.spell_ofText, hkeys,
    Program.releaseExpression, String.toList_append]

section

variable {globals : HostGlobals Obj}

theorem readSymbols_releaseProgram (h : s.IsUnderstood globals) (keys : List String) :
    readSymbols .nothing (releaseProgram s keys).toList =
      some (envelopedSymbols s (releaseSymbols s keys) .value) := by
  have hopening : Symbol.Free
      (Symbol.ofText ("len([" ++ s.handleTable ++ ".pop(k, None) for k in ")) :=
    free_ofText (isBareText_append (by decide) (isBareText_of_isName h.handleTable)) (by decide)
  have hclosing : Symbol.Free (Symbol.ofText "])") := by decide
  have hnone : .slot ∉ (Argument.texts keys).symbols s :=
    List.count_eq_zero.mp (Argument.count_slot s (.texts keys))
  have hslots : .slot ∉ releaseSymbols s keys := by
    simp [releaseSymbols, hnone, Symbol.slot_not_mem_ofText]
  rw [releaseProgram, ← spell_releaseSymbols]
  exact readSymbols_enveloped (isBareText_of_isName h.resultSlot)
    (isBareText_of_isName h.envelopeHelper)
    (hopening.enclose (Argument.fits_texts s keys) hclosing) hslots .value

theorem ofSymbols_release (h : s.IsUnderstood globals) (keys : List String) :
    Token.ofSymbols [] (envelopedSymbols s (releaseSymbols s keys) .value) =
      .name s.resultSlot :: .mark '=' :: (HostExpression.call (.name s.envelopeHelper)
        [.thunk (.release s keys), .text "value"]).tokens := by
  have hslot : ∀ rest, Token.ofSymbols [] (Symbol.ofText s.resultSlot ++
      (Symbol.ofText " = " ++ rest)) = .name s.resultSlot :: .mark '=' :: Token.ofSymbols [] rest :=
    Token.ofSymbols_name_text h.resultSlot rfl rfl
  have hhelper : ∀ rest, Token.ofSymbols [] (Symbol.ofText s.envelopeHelper ++
      (Symbol.ofText "(lambda: (" ++ rest)) = .name s.envelopeHelper :: .mark '(' ::
        .name "lambda" :: .mark ':' :: .mark '(' :: Token.ofSymbols [] rest :=
    Token.ofSymbols_name_text h.envelopeHelper rfl rfl
  have hlen : ∀ rest, Token.ofSymbols [] (Symbol.ofText "len([" ++ rest) =
      .name "len" :: .mark '(' :: .mark '[' :: Token.ofSymbols [] rest := fun _ => rfl
  have htable : ∀ rest, Token.ofSymbols [] (Symbol.ofText s.handleTable ++
      (Symbol.ofText ".pop(k, None) for k in " ++ rest)) = .name s.handleTable :: .mark '.' ::
        .name "pop" :: .mark '(' :: .name "k" :: .mark ',' :: .name "None" :: .mark ')' ::
        .name "for" :: .name "k" :: .name "in" :: Token.ofSymbols [] rest :=
    Token.ofSymbols_name_text h.handleTable rfl rfl
  have hopening : ∀ rest, Token.ofSymbols [] (Symbol.ofText "[" ++ rest) =
      .mark '[' :: Token.ofSymbols [] rest := fun _ => rfl
  have hkeys : ∀ rest, Token.ofSymbols []
      (Symbol.joined (keys.map fun key => [.literal key.toList]) ++ (Symbol.ofText "]" ++ rest)) =
        HostExpression.itemTokens (keys.map .text) ++ .mark ']' :: Token.ofSymbols [] rest :=
    Token.ofSymbols_joined keys
  have hclosing : Token.ofSymbols [] (Symbol.ofText "])" ++ (Symbol.ofText "), " ++
      ([.literal ResultShape.value.name.toList] ++ Symbol.ofText ")"))) =
        [.mark ']', .mark ')', .mark ')', .mark ',', .text "value", .mark ')'] := rfl
  simp only [envelopedSymbols, releaseSymbols, Argument.symbols, Symbol.ofText_append,
    List.append_assoc, hslot, hhelper, hlen, htable, hopening, hkeys, hclosing]
  simp [HostExpression.tokens, HostExpression.itemTokens, HostExpression.release,
    HostExpression.popEach]

theorem areProper_texts (keys : List String) :
    HostExpression.areProper (keys.map .text) = true := by
  induction keys with
  | nil => rfl
  | cons key keys ih => exact ih

theorem readProgram_releaseProgram (h : s.IsUnderstood globals) (keys : List String) :
    readProgram (releaseProgram s keys) = some (s.resultSlot,
      .call (.name s.envelopeHelper) [.thunk (.release s keys), .text "value"]) := by
  have hread : Token.read (releaseProgram s keys) = some (.name s.resultSlot :: .mark '=' ::
      (HostExpression.call (.name s.envelopeHelper)
        [.thunk (.release s keys), .text "value"]).tokens) := by
    rw [Token.read, readSymbols_releaseProgram h]
    exact congrArg some (ofSymbols_release h keys)
  have hproper : (HostExpression.call (.name s.envelopeHelper)
      [.thunk (.release s keys), .text "value"]).isProper = true := by
    have hlen : isName "len" = true := by decide
    have hpop : isName "pop" = true := by decide
    have hk : isName "k" = true := by decide
    simp [HostExpression.isProper, HostExpression.areProper, HostExpression.isThunk,
      HostExpression.release, HostExpression.popEach, areProper_texts, h.handleTable,
      h.envelopeHelper, hlen, hpop, hk]
  rw [readProgram, hread]
  apply (if_pos h.resultSlot).trans
  rw [readExpression_tokens hproper]
  rfl

/-- The host takes the keys out of its table and answers with their number. -/
theorem execute_releaseProgram (h : s.IsUnderstood globals) (keys : List String)
    (t : HandleTable Obj) : executeProgram globals (releaseProgram s keys) t =
      some (⟨s.resultSlot, "value", some (.count keys.length)⟩, t.removeAll keys) := by
  have hvalue : ((HostExpression.release s keys).eval globals []).on t =
      (some (.count keys.length), t.removeAll keys) :=
    HostExpression.on_countPopped h.table h.len h.notHidden keys t
  simp only [executeProgram, readProgram_releaseProgram h, h.envelope, hvalue]

end

/-! ## What a release returns -/

/-- A release that failed puts its keys back. -/
def puttingBack (keys : List String) : Except Fault Nat → Talk F
  | .ok _ => []
  | .error _ => [⟨.restore keys, ()⟩]

/-- What a release asks for once it has drained keys, and what it returns. -/
inductive ReleaseTalk (s : Settings) (lineage : LineageId) (keys : List String) :
    Talk F → Except Fault Nat → Prop where
  | nothing (hkeys : keys = []) : ReleaseTalk s lineage keys [] (.ok 0)
  | refused (hkeys : keys ≠ []) (fault : UsageFault) : ReleaseTalk s lineage keys
      (⟨.enter lineage s.stepConflict, .error fault⟩ :: puttingBack keys (.error (.usage fault)))
      (.error (.usage fault))
  | replied (hkeys : keys ≠ []) (reply : Except TransportFault Json) :
      ReleaseTalk s lineage keys
        (⟨.enter lineage s.stepConflict, .ok ()⟩ :: ⟨.submit (releaseProgram s keys), ()⟩ ::
          ⟨.collect, reply⟩ :: ⟨.complete lineage, ()⟩ :: puttingBack keys (releasedCount reply))
        (releasedCount reply)

section Talks

variable {lineage : LineageId} {talk : Talk F} {result outcome : Except Fault Nat}

theorem leads_released :
    (released keys outcome : Routine F (Except Fault Nat)).Leads talk (.done result) ↔
      talk = puttingBack keys outcome ∧ result = outcome := by
  constructor
  · intro h
    cases outcome with
    | ok count =>
      cases h
      exact ⟨rfl, rfl⟩
    | error fault =>
      cases h with
      | ask reply h =>
        cases h
        exact ⟨rfl, rfl⟩
  · rintro ⟨rfl, rfl⟩
    cases result with
    | ok count => exact .here _
    | error fault => exact .ask _ (.here _)

theorem releaseTalk_of_leads
    (h : (releasing s lineage keys : Routine F (Except Fault Nat)).Leads talk (.done result)) :
    ReleaseTalk s lineage keys talk result := by
  by_cases hkeys : keys = []
  · subst hkeys
    cases h
    exact .nothing rfl
  · rw [releasing_eq s lineage hkeys] at h
    cases h with
    | ask entered h =>
      cases entered with
      | error fault =>
        obtain ⟨rfl, rfl⟩ := leads_released.1 h
        exact .refused hkeys fault
      | ok =>
        cases h with
        | ask _ h =>
          cases h with
          | ask reply h =>
            cases h with
            | ask _ h =>
              obtain ⟨rfl, rfl⟩ := leads_released.1 h
              exact .replied hkeys reply

theorem ReleaseTalk.leads (h : ReleaseTalk s lineage keys talk result) :
    (releasing s lineage keys : Routine F (Except Fault Nat)).Leads talk (.done result) := by
  cases h with
  | nothing hkeys =>
    subst hkeys
    exact .here _
  | refused hkeys fault =>
    rw [releasing_eq s lineage hkeys]
    exact .ask _ (leads_released.2 ⟨rfl, rfl⟩)
  | replied hkeys reply =>
    rw [releasing_eq s lineage hkeys]
    exact .ask _ (.ask _ (.ask _ (.ask _ (leads_released.2 ⟨rfl, rfl⟩))))

/-- A release that has drained keys talks in no other way. -/
theorem leads_releaseHandles :
    (releaseHandles s lineage : Job F Nat).run.Leads (⟨.drain, keys⟩ :: talk) (.done result) ↔
      ReleaseTalk s lineage keys talk result := by
  rw [run_releaseHandles]
  constructor
  · intro h
    cases h with
    | ask _ h => exact releaseTalk_of_leads h
  · intro h
    exact .ask _ h.leads

end Talks

/-- A number in the reply is the number that a release returns. -/
theorem releasedCount_of_spells {reply : Json} {n : Nat}
    (h : Spells reply (.primitive (.ofNat n))) : releasedCount (.ok reply) = .ok n := by
  have hvalue : Spells reply (.ofOutcome (.value (.ofNat n))) := h
  have hcount : readReleaseCount (.ofNat n) = .ok n := by
    simp [readReleaseCount, Json.ofNat, Json.nat?, JsonNumber.toNat?]
  rw [releasedCount, outcomeOfShape_of_spells hvalue rfl]
  exact hcount

theorem nodup_drain (a : Arena) : a.drain.1.Nodup := a.keys_ascending.imp ne_of_lt

/-- A release drains the live keys. Its program, read and executed by a host that understands the
settings, takes the entries of these keys out of the handle table and no others, and leaves the
number of the keys in the slot. When the host replies with that number the release returns it. It
is the number of the entries that were taken out if every live key had one, and only then. -/
theorem release_counts_live_keys {globals : HostGlobals Obj} (h : s.IsUnderstood globals)
    (t : HandleTable Obj) (a : Arena) (lineage : LineageId) :
    let keys := a.drain.1
    let left := t.removeAll keys
    (∀ key, key ∈ keys ↔ a.contains key = true) ∧
    executeProgram globals (releaseProgram s keys) t =
      some (⟨s.resultSlot, "value", some (.count keys.length)⟩, left) ∧
    left.entries = t.entries.filter (fun entry => !a.contains entry.1) ∧
    (∀ (talk : Talk F) (result : Except Fault Nat),
      (releaseHandles s lineage).run.Leads (⟨.drain, keys⟩ :: talk) (.done result) ↔
        ReleaseTalk s lineage keys talk result) ∧
    (∀ reply, Spells reply (.primitive (.ofNat keys.length)) →
      releasedCount (.ok reply) = .ok keys.length) ∧
    (t.size - left.size = keys.length ↔ ∀ key, a.contains key = true → t.has key = true) := by
  intro keys left
  have hlive : ∀ key, key ∈ keys ↔ a.contains key = true := fun _ => Arena.mem_drain
  refine ⟨hlive, execute_releaseProgram h keys t, ?others, fun _ _ => leads_releaseHandles,
    fun _ => releasedCount_of_spells, ?number⟩
  case others =>
    rw [HandleTable.entries_removeAll]
    apply List.filter_congr
    intro entry _
    simp [hlive]
  case number =>
    rw [t.size_removeAll_eq_iff (nodup_drain a)]
    exact forall_congr' fun key => imp_congr_left (hlive key)

/-- The host as its prelude leaves it under the default settings. -/
def preparedHost : HostGlobals Obj := fun name =>
  if name = "__hostlink_handles" then some .table
  else if name = "__hostlink_envelope" then some .envelope
  else if name = "len" then some .len
  else none

theorem isUnderstood_preparedHost : Settings.IsUnderstood {} (preparedHost : HostGlobals Obj) where
  resultSlot := by decide
  handleTable := by decide
  envelopeHelper := by decide
  table := rfl
  envelope := rfl
  len := rfl
  notHidden := by decide

def threeEntries : HandleTable Nat := ⟨[("a", 1), ("b", 2), ("c", 3)], by decide⟩

/-- Two of three entries belong to the session. They are taken out and counted. -/
theorem two_of_three_released :
    let left := threeEntries.removeAll ["a", "c"]
    executeProgram preparedHost (releaseProgram {} ["a", "c"]) threeEntries =
      some (⟨"__hostlink_result", "value", some (.count 2)⟩, left) ∧
    left.entries = [("b", 2)] ∧ threeEntries.size - left.size = 2 := by
  have hkeys : ((Arena.empty Arena.defaultLimit).restore ["c", "a"]).drain.1 = ["a", "c"] := by
    decide +kernel
  obtain ⟨-, hexecuted, hothers, -, -, hnumber⟩ := release_counts_live_keys (F := Unit)
    isUnderstood_preparedHost threeEntries
      ((Arena.empty Arena.defaultLimit).restore ["c", "a"]) 0
  rw [hkeys] at hexecuted hothers hnumber
  refine ⟨hexecuted, hothers.trans (by decide +kernel), hnumber.2 ?_⟩
  intro key hlive
  rw [← Arena.mem_drain, hkeys] at hlive
  revert key
  decide

/-- The key of an entry that is gone already is counted all the same. -/
theorem missing_entry_is_counted :
    let a := (Arena.empty Arena.defaultLimit).record "view"
    let t : HandleTable Unit := ⟨[], .nil⟩
    let left := t.removeAll ["view"]
    a.drain.1 = ["view"] ∧
    executeProgram preparedHost (releaseProgram {} ["view"]) t =
      some (⟨"__hostlink_result", "value", some (.count 1)⟩, left) ∧
    t.size - left.size = 0 ∧
    (releaseHandles {} 0 : Job Unit Nat).run.Leads
      [⟨.drain, ["view"]⟩, ⟨.enter 0 .queue, .ok ()⟩, ⟨.submit (releaseProgram {} ["view"]), ()⟩,
        ⟨.collect, .ok (Envelope.primitive (.ofNat 1)).toJson⟩, ⟨.complete 0, ()⟩]
      (.done (.ok 1)) := by
  intro a t left
  refine ⟨by decide +kernel, execute_releaseProgram isUnderstood_preparedHost ["view"] t, rfl, ?_⟩
  have htalk : ReleaseTalk (F := Unit) {} 0 ["view"] _ _ :=
    .replied (by decide) (.ok (Envelope.primitive (.ofNat 1)).toJson)
  rw [releasedCount_of_spells (Envelope.spells_toJson _)] at htalk
  exact leads_releaseHandles.2 htalk

end RemoteHost
