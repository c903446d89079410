import RemoteHost.Proofs.HostModules
import RemoteHost.Proofs.PreludeMarkers

/-!
# The names that the prelude binds

The prelude is a module. Its statements bind names of its own and the names in the settings.
-/

namespace RemoteHost

open Text (IsMark isMarkChar replaceEach)

/-! ## Lines -/

theorem splitOn_lines {lines : List (List Char)} (h : ∀ line ∈ lines, '\n' ∉ line) :
    (lines.flatMap (· ++ ['\n'])).splitOn '\n' = lines ++ [[]] := by
  induction lines with
  | nil => rfl
  | cons line lines ih =>
    obtain ⟨hline, hlines⟩ := List.forall_mem_cons.mp h
    have hother : ∀ c ∈ line, (c == '\n') = false := fun c hc =>
      beq_false_of_ne fun heq => hline (heq ▸ hc)
    rw [List.splitOn_eq_splitOnP] at ih ⊢
    rw [List.flatMap_cons, List.append_assoc, List.singleton_append,
      List.splitOnP_append_cons_of_forall_mem hother _ (beq_self_eq_true _), ih hlines]
    rfl

/-- Marks are replaced line by line. -/
theorem replaceEach_lines {values : List (String × String)}
    (hvalues : ∀ v ∈ values, '\n' ∉ v.1.toList) (lines : List (List Char)) :
    replaceEach values (lines.flatMap (· ++ ['\n'])) =
      (lines.map (replaceEach values)).flatMap (· ++ ['\n']) := by
  induction lines with
  | nil => rfl
  | cons line lines ih =>
    rw [List.flatMap_cons, List.append_assoc, List.singleton_append, Text.replaceEach_stop hvalues,
      ih, List.map_cons, List.flatMap_cons, List.append_assoc, List.singleton_append]

namespace Program

def preludeRows : List (List Char) := preludeLines.map String.toList

def rowsFrom (first count : Nat) : List (List Char) := (preludeRows.drop first).take count

/-- The value that the prelude leaves in the result slot. -/
def versionValue (version : List Char) : List Char :=
  "\x7b\"kind\": \"primitive\", \"value\": ".toList ++ (version ++ ['\x7d'])

/-- The blocks of the prelude, with something put in for each marker. -/
def blocksWith (f : List Char → List Char) : List Block :=
  [⟨"import ".toList ++ "json".toList, []⟩, ⟨"import ".toList ++ "socket".toList, []⟩,
    ⟨"import ".toList ++ "threading".toList, []⟩, ⟨"import ".toList ++ "uuid".toList, [[]]⟩,
    ⟨"try:".toList, ["    ".toList ++ f "@TABLE@".toList]⟩,
    ⟨"except NameError:".toList,
      ["    ".toList ++ (f "@TABLE@".toList ++ ' ' :: '=' :: ' ' :: ['\x7b', '\x7d']), [], []]⟩,
    ⟨"def ".toList ++ ("__hostlink_store".toList ++ '(' :: "obj):".toList),
      (rowsFrom 12 5).map f⟩,
    ⟨"def ".toList ++ ("__hostlink_is_primitive".toList ++ '(' :: "value):".toList),
      (rowsFrom 18 9).map f⟩,
    ⟨"def ".toList ++ ("__hostlink_wrap".toList ++ '(' :: "value):".toList),
      (rowsFrom 28 7).map f⟩,
    ⟨"def ".toList ++ (f "@ENVELOPE@".toList ++ '(' :: "thunk, shape):".toList),
      (rowsFrom 36 15).map f⟩,
    ⟨"def ".toList ++ (f "@CALLBACK@".toList ++ '(' :: "token, *args):".toList),
      (rowsFrom 52 9).map f⟩,
    ⟨f "@RESULT@".toList ++ ' ' :: '=' :: ' ' :: versionValue (f "@VERSION@".toList), [[]]⟩]

/-- The lines of the prelude are in these blocks, and no line begins with a marker but that of the
result slot. -/
theorem preludeRows_spec : cutBlocks (preludeRows ++ [[]]) = ([], blocksWith id) ∧
    (preludeRows.all fun row => '\n' ∉ row &&
      (row.head? != some '@' || "@RESULT@ ".toList.isPrefixOf row)) = true := by
  obtain ⟨rows, hrows⟩ : ∃ rows, rows = preludeRows := ⟨_, rfl⟩
  unfold blocksWith rowsFrom versionValue
  rw [← hrows]
  unfold preludeRows preludeLines at hrows
  simp only [List.map_cons, List.map_nil] at hrows
  -- Each line is taken for the list of its characters before anything is computed.
  repeat rw [String.toList_ofList] at hrows
  repeat rw [String.toList_ofList]
  subst hrows
  decide +kernel

theorem preludeTemplate_eq : preludeTemplate = preludeRows.flatMap (· ++ ['\n']) := by
  rw [preludeTemplate, preludeRows, List.flatMap_map]

/-! ## Filled lines -/

section

variable {s : Settings}

/-- A line of the prelude with the values of the settings put in. -/
def fillRow (s : Settings) : List Char → List Char := replaceEach (preludeValues s)

theorem isMark_preludeValues : ∀ v ∈ preludeValues s, IsMark v.1.toList := by
  rw [preludeValues_eq]
  exact isMark_of_mem

theorem fillRow_plain {text : List Char} (h : '@' ∉ text) (rest : List Char) :
    fillRow s (text ++ rest) = text ++ fillRow s rest :=
  Text.replaceEach_plain (fun v hv => (isMark_preludeValues v hv).sign) h rest

theorem fillRow_same {text : List Char} (h : '@' ∉ text) : fillRow s text = text := by
  have hplain := fillRow_plain (s := s) h []
  rwa [List.append_nil, show fillRow s [] = [] from rfl, List.append_nil] at hplain

theorem fillRow_marker {v : String × String} (hv : v ∈ preludeValues s) :
    fillRow s v.1.toList = v.2.toList := by
  rw [fillRow, preludeValues_eq] at *
  exact replaceEach_marker v hv

theorem fillRow_before {c : Char} (hc : isMarkChar c = false) (text rest : List Char) :
    fillRow s (text ++ c :: rest) = fillRow s text ++ c :: fillRow s rest := by
  refine Text.replaceEach_stop (fun v hv hin => ?_) text rest
  rw [(isMark_preludeValues v hv).chars c hin] at hc
  cases hc

/-! ## The module -/

theorem identifiers_of_check (h : s.check = .ok ()) : isIdentifier s.handleTable.toList = true ∧
    isIdentifier s.resultSlot.toList = true ∧ isIdentifier s.envelopeHelper.toList = true ∧
      isIdentifier s.callbackHelper.toList = true := by
  have hnames := (Settings.names_of_check h).1
  simp only [Settings.globals, List.forall_mem_cons] at hnames
  exact ⟨hnames.1, hnames.2.1, hnames.2.2.1, hnames.2.2.2.1⟩

/-- The statement that binds the handle table. -/
def provideTable (s : Settings) : HostStatement := .provide s.handleTable "\x7b\x7d".toList

/-- The statements that the prelude begins with. -/
def setup (s : Settings) : List HostStatement :=
  [.load "json", .load "socket", .load "threading", .load "uuid", provideTable s,
    .define "__hostlink_store" ('(' :: "obj):".toList) ((rowsFrom 12 5).map (fillRow s)),
    .define "__hostlink_is_primitive" ('(' :: "value):".toList) ((rowsFrom 18 9).map (fillRow s)),
    .define "__hostlink_wrap" ('(' :: "value):".toList) ((rowsFrom 28 7).map (fillRow s)),
    .define s.envelopeHelper ('(' :: "thunk, shape):".toList)
      ((rowsFrom 36 15).map (fillRow s)),
    .define s.callbackHelper ('(' :: "token, *args):".toList)
      ((rowsFrom 52 9).map (fillRow s))]

/-- The statement that the prelude ends with. -/
def announce (s : Settings) : HostStatement :=
  .assign s.resultSlot (versionValue (Literal.quoted protocolVersion).toList)

theorem map_load {name : List Char} (hname : '@' ∉ name) (body : List (List Char)) :
    Block.map (fillRow s) ⟨"import ".toList ++ name, body⟩ =
      ⟨"import ".toList ++ name, body.map (fillRow s)⟩ := by
  rw [Block.map, fillRow_plain (by decide), fillRow_same hname]

theorem map_define {parameters : List Char} (hparameters : '@' ∉ parameters) (name : List Char)
    (body : List (List Char)) :
    Block.map (fillRow s) ⟨"def ".toList ++ (name ++ '(' :: parameters), body⟩ =
      ⟨"def ".toList ++ (fillRow s name ++ '(' :: parameters), body.map (fillRow s)⟩ := by
  rw [Block.map, fillRow_plain (by decide), fillRow_before rfl, fillRow_same hparameters]

theorem map_blocksWith (s : Settings) :
    (blocksWith id).map (Block.map (fillRow s)) = blocksWith (fillRow s) := by
  have hnil : fillRow s [] = [] := rfl
  have hprobe : fillRow s ("    ".toList ++ "@TABLE@".toList) =
      "    ".toList ++ fillRow s "@TABLE@".toList := fillRow_plain (by decide) _
  have hsetting : fillRow s ("    ".toList ++ ("@TABLE@".toList ++ ' ' :: '=' :: ' ' ::
      ['\x7b', '\x7d'])) = "    ".toList ++ (fillRow s "@TABLE@".toList ++
        ' ' :: '=' :: ' ' :: ['\x7b', '\x7d']) := by
    have hvalue : fillRow s ('=' :: ' ' :: ['\x7b', '\x7d']) = '=' :: ' ' :: ['\x7b', '\x7d'] :=
      fillRow_same (by decide)
    rw [fillRow_plain (by decide), fillRow_before rfl, hvalue]
  have hresult : fillRow s ("@RESULT@".toList ++ ' ' :: '=' :: ' ' ::
      versionValue "@VERSION@".toList) = fillRow s "@RESULT@".toList ++ ' ' :: '=' :: ' ' ::
        versionValue (fillRow s "@VERSION@".toList) := by
    have hplain : '@' ∉ ['=', ' '] := by decide
    have hequals : ∀ rest, fillRow s ('=' :: ' ' :: rest) = '=' :: ' ' :: fillRow s rest :=
      fillRow_plain hplain
    have hopening : '@' ∉ "\x7b\"kind\": \"primitive\", \"value\": ".toList := by decide
    have hend : fillRow s ("@VERSION@".toList ++ ['\x7d']) =
        fillRow s "@VERSION@".toList ++ ['\x7d'] := fillRow_before rfl _ []
    have hversion : fillRow s (versionValue "@VERSION@".toList) =
        versionValue (fillRow s "@VERSION@".toList) :=
      (fillRow_plain hopening _).trans (congrArg (_ ++ ·) hend)
    rw [fillRow_before rfl, hequals, hversion]
  have hhelper : ∀ {name parameters : List Char}, '@' ∉ name → '@' ∉ parameters → ∀ body,
      Block.map (fillRow s) ⟨"def ".toList ++ (name ++ '(' :: parameters), body⟩ =
        ⟨"def ".toList ++ (name ++ '(' :: parameters), body.map (fillRow s)⟩ := by
    intro name parameters hname hparameters body
    rw [map_define hparameters, fillRow_same hname]
  simp only [blocksWith, List.map_id, id_eq, List.map_cons, List.map_nil, List.cons.injEq, and_true]
  refine ⟨map_load (by decide) _, map_load (by decide) _, map_load (by decide) _,
    map_load (by decide) _, ?looked, ?missing, hhelper (by decide) (by decide) _,
    hhelper (by decide) (by decide) _, hhelper (by decide) (by decide) _,
    map_define (by decide) _ _, map_define (by decide) _ _, ?slot⟩
  case looked => rw [Block.map, fillRow_same (by decide), List.map_singleton, hprobe]
  case missing =>
    rw [Block.map, fillRow_same (by decide)]
    simp only [List.map_cons, List.map_nil, hsetting, hnil]
  case slot => rw [Block.map, hresult, List.map_singleton, hnil]

theorem writes_prelude (h : s.check = .ok ()) : ∃ written,
    List.Forall₂ HostStatement.Writes (setup s ++ [announce s]) written ∧
      blocksWith (fillRow s) = written.flatten := by
  obtain ⟨htable, hslot, henvelope, hcallback⟩ := identifiers_of_check h
  have hmarker : ∀ v ∈ preludeValues s, fillRow s v.1.toList = v.2.toList :=
    fun v hv => fillRow_marker hv
  simp only [preludeValues, List.forall_mem_cons] at hmarker
  obtain ⟨hfillTable, hfillEnvelope, hfillCallback, hfillSlot, -, hfillVersion, -⟩ := hmarker
  have hstops : ∀ parameters, Literal.Stops isNameChar ('(' :: parameters) := by
    rintro parameters c ⟨⟩
    rfl
  have hblank : ∀ line ∈ ([[], []] : List (List Char)), line = [] := by simp
  have hblank' : ∀ line ∈ ([[]] : List (List Char)), line = [] := by simp
  have hnone : ∀ line ∈ ([] : List (List Char)), line = [] := by simp
  have hempty : isValue "\x7b\x7d".toList = true := by decide
  have hversion : isValue (versionValue (Literal.quoted protocolVersion).toList) = true := by
    decide
  refine ⟨_, .cons (.load (by decide) hnone) <| .cons (.load (by decide) hnone) <|
    .cons (.load (by decide) hnone) <| .cons (.load (by decide) hblank') <|
    .cons (.provide htable hempty hblank) <|
    .cons (.define (by decide) (hstops _)) <|
    .cons (.define (by decide) (hstops _)) <|
    .cons (.define (by decide) (hstops _)) <|
    .cons (.define henvelope (hstops _)) <| .cons (.define hcallback (hstops _)) <|
    .cons (.assign hslot hversion hblank') .nil, ?_⟩
  simp only [blocksWith, hfillTable, hfillEnvelope, hfillCallback, hfillSlot, hfillVersion,
    List.flatten_cons, List.flatten_nil, List.append_nil, List.cons_append, List.nil_append]
  rfl

/-- What is put in for a marker keeps a line in its place: it is no space. -/
theorem isInner_fillRow (h : s.check = .ok ()) :
    ∀ row ∈ preludeRows ++ [[]], isInner (fillRow s row) = isInner row := by
  intro row hrow
  cases row with
  | nil => rfl
  | cons c rest =>
    by_cases hc : c = '@'
    · subst hc
      have hin : '@' :: rest ∈ preludeRows := by simpa using hrow
      have hspec := List.all_eq_true.mp preludeRows_spec.2 _ hin
      obtain ⟨after, hafter⟩ : "@RESULT@ ".toList <+: '@' :: rest :=
        List.isPrefixOf_iff_prefix.mp (Bool.and_eq_true_iff.mp hspec).2
      have hmarker : fillRow s "@RESULT@".toList = s.resultSlot.toList :=
        fillRow_marker (v := ("@RESULT@", s.resultSlot)) (by simp [preludeValues])
      have hfill : fillRow s ('@' :: rest) = s.resultSlot.toList ++ ' ' :: fillRow s after := by
        have hspace : fillRow s ("@RESULT@".toList ++ ' ' :: after) = _ := fillRow_before rfl _ _
        rw [← hafter, ← hmarker]
        exact hspace
      rw [hfill]
      cases hslot : s.resultSlot.toList with
      | nil =>
        have hidentifier := (identifiers_of_check h).2.1
        rw [hslot] at hidentifier
        cases hidentifier
      | cons d name =>
        have hname : isNameChar d = true :=
          isNameChar_of_isIdentifier (identifiers_of_check h).2.1 d (by simp [hslot])
        have hne : d ≠ ' ' := by
          rintro rfl
          cases hname
        simp [isInner, hne]
    · have hfirst : fillRow s ([c] ++ rest) = [c] ++ fillRow s rest :=
        fillRow_plain (by simpa using Ne.symm hc) rest
      rw [← List.singleton_append, hfirst]
      rfl

theorem newline_notMem_fillRow (h : s.check = .ok ()) :
    ∀ row ∈ preludeRows, '\n' ∉ fillRow s row := by
  have hidentifier : ∀ {name : String}, isIdentifier name.toList = true → '\n' ∉ name.toList := by
    intro name hname hin
    cases isNameChar_of_isIdentifier hname _ hin
  have hquoted : ∀ text, '\n' ∉ (Literal.quoted text).toList := by
    intro text hin
    rw [Literal.toList_quoted] at hin
    exact absurd (Literal.isTame_quotedChars _ _ hin) (by decide)
  obtain ⟨htable, hslot, henvelope, hcallback⟩ := identifiers_of_check h
  have hvalues : ∀ v ∈ preludeValues s, '\n' ∉ v.2.toList := by
    simp only [preludeValues, List.forall_mem_cons]
    exact ⟨hidentifier htable, hidentifier henvelope, hidentifier hcallback, hidentifier hslot,
      hquoted _, hquoted _, List.forall_mem_nil _⟩
  intro row hrow hin
  rcases Text.mem_replaceEach hin with hin | ⟨v, hv, hin⟩
  · have hspec := List.all_eq_true.mp preludeRows_spec.2 row hrow
    simp [hin] at hspec
  · exact hvalues v hv hin

/-- The prelude as a module, unless the callback host holds a marker. Nothing is read where a word
is put in that is no name. -/
theorem readModule_prelude (h : s.check = .ok ())
    (hhost : Text.occurs "@VERSION@".toList s.callbackHost.toList = false) :
    readModule (prelude s).toList =
      if (setup s ++ [announce s]).all (isName ·.name) then some (setup s ++ [announce s])
      else none := by
  have hliteral : hostLiteral s = Literal.quoted s.callbackHost := by
    rw [hostLiteral, (Literal.replaceEach_quotedChars isMark_version toList_version _).mpr hhost]
    rfl
  have hlines : (prelude s).toList.splitOn '\n' = (preludeRows ++ [[]]).map (fillRow s) := by
    have hmarkers : ∀ v ∈ preludeValues s, '\n' ∉ v.1.toList := by
      intro v hv hin
      cases (isMark_preludeValues v hv).chars _ hin
    rw [toList_prelude h, hliteral, ← preludeValues_eq, preludeTemplate_eq,
      replaceEach_lines hmarkers, splitOn_lines, List.map_append]
    · rfl
    · intro line hline
      obtain ⟨row, hrow, rfl⟩ := List.mem_map.mp hline
      exact newline_notMem_fillRow h row hrow
  obtain ⟨written, hwritten, hblocks⟩ := writes_prelude h
  rw [readModule, hlines, cutBlocks_map (isInner_fillRow h), preludeRows_spec.1, map_blocksWith,
    hblocks]
  exact readBlocks_writes hwritten

end

end Program

end RemoteHost
