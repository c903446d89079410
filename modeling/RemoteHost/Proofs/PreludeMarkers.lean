import RemoteHost.Program.Prelude
import RemoteHost.Proofs.MarkedLiterals
import RemoteHost.Proofs.SymbolRows

/-!
# The markers of the prelude

The markers of the prelude are replaced one after the other. This comes to replacing them all at
once, but for the literal of the callback host: it is put in before the last marker is looked for,
so that a host whose name holds that marker does not stay as it is.
-/

namespace RemoteHost.Program

open Text (IsMark Template isMarkChar replaceEach)

/-! ## The template -/

/-- The markers with their values, and a given literal for the callback host. -/
def valuesWith (s : Settings) (literal : String) : List (String × String) :=
  [("@TABLE@", s.handleTable), ("@ENVELOPE@", s.envelopeHelper),
    ("@CALLBACK@", s.callbackHelper), ("@RESULT@", s.resultSlot),
    ("@HOST@", literal), ("@VERSION@", Literal.quoted protocolVersion)]

theorem preludeValues_eq (s : Settings) :
    preludeValues s = valuesWith s (Literal.quoted s.callbackHost) := rfl

def markers : List (List Char) := (valuesWith {} "").map (·.1.toList)

/-- No marker holds one that is replaced before it. -/
theorem pairwise_markers : markers.Pairwise fun a b => Text.pieces a b = [b] := by decide

theorem preludeTemplate_spec : Text.isTemplate markers preludeTemplate = true ∧
    ((Text.placesOf preludeTemplate).map (·.mark)).count "@HOST@".toList = 1 := by
  unfold preludeTemplate preludeLines
  simp only [List.flatMap_cons, List.flatMap_nil]
  -- Each line is taken for the list of its characters before anything is computed.
  repeat rw [String.toList_ofList]
  decide +kernel

def preludeForm : Template := .ofText preludeTemplate_spec.1

theorem fill_preludeForm : preludeForm.fill id = preludeTemplate :=
  Template.fill_ofText preludeTemplate_spec.1

section

variable {s : Settings} {literal : String}

theorem isMark_of_mem : ∀ v ∈ valuesWith s literal, IsMark v.1.toList := by
  have hmarkers : markers.all
      (fun mark => mark.head? == some '@' && mark.all isMarkChar) = true := by decide
  intro v hv
  have hmark : v.1.toList ∈ markers := by
    change v.1.toList ∈ (valuesWith s literal).map (·.1.toList)
    exact List.mem_map_of_mem hv
  obtain ⟨hsign, hchars⟩ := Bool.and_eq_true_iff.mp (List.all_eq_true.mp hmarkers _ hmark)
  exact ⟨beq_iff_eq.mp hsign, List.all_eq_true.mp hchars⟩

/-- Every place is one for a marker. -/
theorem exists_value (s : Settings) (literal : String) :
    ∀ p ∈ preludeForm.places, ∃ v ∈ valuesWith s literal, v.1.toList = p.mark := by
  intro p hp
  have hmark : p.mark ∈ (valuesWith s literal).map (·.1.toList) :=
    Template.mark_ofText preludeTemplate_spec.1 p hp
  exact List.mem_map.mp hmark

/-! ## All markers at once -/

theorem apart_markers : ((valuesWith s literal).map (·.1)).Pairwise Text.AreApart := by
  change ((valuesWith {} "").map (·.1)).Pairwise Text.AreApart
  decide

theorem replaceEach_marker : ∀ v ∈ valuesWith s literal,
    replaceEach (valuesWith s literal) v.1.toList = v.2.toList := by
  intro v hv
  exact Text.replaceEach_self apart_markers hv (isMark_of_mem v hv).ne_nil

theorem replaceEach_preludeTemplate (s : Settings) (literal : String) :
    replaceEach (valuesWith s literal) preludeTemplate =
      preludeForm.fill (replaceEach (valuesWith s literal)) := by
  rw [← fill_preludeForm, Template.replaceEach_fill isMark_of_mem]
  rfl

end

/-! ## One marker after the other -/

section

variable {s : Settings} {values before after : List (String × String)} {v : String × String}
  {text : List Char}

theorem replaceMarkers_nil (text : List Char) : replaceMarkers [] text = text := rfl

theorem replaceMarkers_append (before after : List (String × String)) (text : List Char) :
    replaceMarkers (before ++ after) text = replaceMarkers after (replaceMarkers before text) :=
  List.foldl_append

theorem replaceMarkers_cons (v : String × String) (values : List (String × String))
    (text : List Char) :
    replaceMarkers (v :: values) text = replaceMarkers values (replaceEach [v] text) :=
  congrArg (replaceMarkers values) (Text.replaceAll_eq_replaceEach v.1 v.2 text)

/-- Markers are replaced place by place, whatever stands in the places. -/
theorem replaceMarkers_fill (hvalues : ∀ v ∈ values, IsMark v.1.toList) (t : Template)
    (f : List Char → List Char) :
    replaceMarkers values (t.fill f) = t.fill fun mark => replaceMarkers values (f mark) := by
  induction values generalizing f with
  | nil => rfl
  | cons v values ih =>
    obtain ⟨hv, hvalues⟩ := List.forall_mem_cons.mp hvalues
    have hsingle : ∀ w ∈ [v], IsMark w.1.toList := List.forall_mem_singleton.mpr hv
    rw [replaceMarkers_cons, Template.replaceEach_fill hsingle, ih hvalues]
    simp only [replaceMarkers_cons]

theorem replaceMarkers_plain (hvalues : ∀ v ∈ values, IsMark v.1.toList) (htext : '@' ∉ text) :
    replaceMarkers values text = text := by
  induction values with
  | nil => rfl
  | cons v values ih =>
    obtain ⟨hv, hvalues⟩ := List.forall_mem_cons.mp hvalues
    have hsingle : ∀ w ∈ [v], w.1.toList.head? = some '@' :=
      List.forall_mem_singleton.mpr hv.sign
    have hsame := Text.replaceEach_plain hsingle htext []
    rw [List.append_nil, Text.replaceEach_nil, List.append_nil] at hsame
    rw [replaceMarkers_cons, hsame, ih hvalues]

/-- A marker stays until its turn comes. -/
theorem replaceMarkers_marker (hmark : v.1.toList ≠ [])
    (hbefore : ∀ w ∈ before, Text.pieces w.1.toList v.1.toList = [v.1.toList]) :
    replaceMarkers (before ++ v :: after) v.1.toList = replaceMarkers after v.2.toList := by
  have hkept : replaceMarkers before v.1.toList = v.1.toList := by
    induction before with
    | nil => rfl
    | cons w before ih =>
      obtain ⟨hw, hbefore⟩ := List.forall_mem_cons.mp hbefore
      have hsame : Text.replaceAll w.1.toList w.2.toList v.1.toList = v.1.toList := by
        rw [Text.replaceAll, hw]
        rfl
      rw [replaceMarkers_cons, ← Text.replaceAll_eq_replaceEach, hsame, ih hbefore]
  rw [replaceMarkers_append, hkept, replaceMarkers_cons,
    Text.replaceEach_self (List.pairwise_singleton _ _) List.mem_cons_self hmark]

def versionMarker : String × String := ("@VERSION@", Literal.quoted protocolVersion)

/-- What stands in the end for the callback host. -/
def hostLiteral (s : Settings) : String :=
  String.ofList (replaceEach [versionMarker] (Literal.quotedChars s.callbackHost.toList))

theorem sign_notMem_of_isIdentifier {name : List Char} (h : isIdentifier name = true) :
    '@' ∉ name := by
  intro hsign
  have hchar := isNameChar_of_isIdentifier h '@' hsign
  cases hchar

theorem replaceMarkers_preludeValues (h : s.check = .ok ()) :
    ∀ v ∈ valuesWith s (hostLiteral s),
      replaceMarkers (preludeValues s) v.1.toList = v.2.toList := by
  have hnames := (Settings.names_of_check h).1
  simp only [Settings.globals, List.forall_mem_cons] at hnames
  obtain ⟨htable, hslot, henvelope, hcallback, -⟩ := hnames
  have horder : ((preludeValues s).map (·.1.toList)).Pairwise
      fun a b => Text.pieces a b = [b] := pairwise_markers
  have hmarker : ∀ (before after : List (String × String)) (v : String × String),
      preludeValues s = before ++ v :: after →
        replaceMarkers (preludeValues s) v.1.toList = replaceMarkers after v.2.toList := by
    intro before after v hsplit
    rw [hsplit, List.map_append, List.map_cons, List.pairwise_append] at horder
    have hv : v ∈ valuesWith s (Literal.quoted s.callbackHost) := by
      rw [← preludeValues_eq, hsplit]
      exact List.mem_append_right _ List.mem_cons_self
    rw [hsplit]
    apply replaceMarkers_marker (isMark_of_mem v hv).ne_nil
    intro w hw
    exact horder.2.2 _ (List.mem_map_of_mem hw) _ List.mem_cons_self
  have hplain : ∀ (before after : List (String × String)) (v : String × String),
      preludeValues s = before ++ v :: after → '@' ∉ v.2.toList →
        replaceMarkers (preludeValues s) v.1.toList = v.2.toList := by
    intro before after v hsplit hsign
    rw [hmarker before after v hsplit]
    apply replaceMarkers_plain _ hsign
    intro w hw
    have hin : w ∈ valuesWith s (Literal.quoted s.callbackHost) := by
      rw [← preludeValues_eq, hsplit]
      exact List.mem_append_right _ (List.mem_cons_of_mem _ hw)
    exact isMark_of_mem w hin
  have hversion : '@' ∉ (Literal.quoted protocolVersion).toList := by decide
  simp only [valuesWith, List.forall_mem_cons]
  refine ⟨?table, ?envelope, ?callback, ?slot, ?host, ?version, List.forall_mem_nil _⟩
  case table =>
    exact hplain [] _ ("@TABLE@", s.handleTable) rfl (sign_notMem_of_isIdentifier htable)
  case envelope =>
    exact hplain [_] _ ("@ENVELOPE@", s.envelopeHelper) rfl (sign_notMem_of_isIdentifier henvelope)
  case callback =>
    exact hplain [_, _] _ ("@CALLBACK@", s.callbackHelper) rfl
      (sign_notMem_of_isIdentifier hcallback)
  case slot =>
    exact hplain [_, _, _] _ ("@RESULT@", s.resultSlot) rfl (sign_notMem_of_isIdentifier hslot)
  case host =>
    have hreached := hmarker [_, _, _, _] [versionMarker]
      ("@HOST@", Literal.quoted s.callbackHost) rfl
    rw [hreached, replaceMarkers_cons, replaceMarkers_nil, hostLiteral, String.toList_ofList,
      Literal.toList_quoted]
  case version =>
    exact hplain [_, _, _, _, _] [] versionMarker rfl hversion

/-- The prelude is the template with all markers replaced at once, the one of the callback host by
what stands for it in the end. -/
theorem toList_prelude (h : s.check = .ok ()) :
    (prelude s).toList = replaceEach (valuesWith s (hostLiteral s)) preludeTemplate := by
  rw [prelude, String.toList_ofList, ← fill_preludeForm, preludeValues_eq,
    replaceMarkers_fill isMark_of_mem, fill_preludeForm, replaceEach_preludeTemplate]
  have hsame : ∀ v ∈ valuesWith s (hostLiteral s), replaceMarkers (preludeValues s) v.1.toList =
      replaceEach (valuesWith s (hostLiteral s)) v.1.toList := by
    intro v hv
    rw [replaceEach_marker v hv]
    exact replaceMarkers_preludeValues h v hv
  apply Template.fill_congr
  intro p hp
  obtain ⟨v, hv, hmark⟩ := exists_value s (hostLiteral s) p hp
  rw [← hmark]
  exact hsame v hv

end

/-! ## The literal of the callback host -/

section

variable {s : Settings}

theorem isMark_version : IsMark versionMarker.1.toList := by
  have hin : versionMarker ∈ valuesWith {} "" := by simp [valuesWith, versionMarker]
  exact isMark_of_mem _ hin

theorem toList_version : versionMarker.2.toList = Literal.quotedChars protocolVersion.toList :=
  Literal.toList_quoted _

theorem replaceEach_host (s : Settings) (literal : String) :
    replaceEach (valuesWith s literal) "@HOST@".toList = literal.toList := by
  have hin : ("@HOST@", literal) ∈ valuesWith s literal := by simp [valuesWith]
  exact replaceEach_marker _ hin

theorem mem_valuesWith_of_ne {a b : String} {v : String × String} (hv : v ∈ valuesWith s a)
    (hother : v.1 ≠ "@HOST@") : v ∈ valuesWith s b := by
  simp only [valuesWith, List.mem_cons, List.not_mem_nil, or_false] at hv ⊢
  rcases hv with rfl | rfl | rfl | rfl | rfl | rfl
  case inr.inr.inr.inr.inl => exact absurd rfl hother
  all_goals simp

/-- The whole prelude tells what the literal of the callback host is. -/
theorem eq_of_replaceEach {a b : String} (h : replaceEach (valuesWith s a) preludeTemplate =
    replaceEach (valuesWith s b) preludeTemplate) : a = b := by
  rw [replaceEach_preludeTemplate, replaceEach_preludeTemplate] at h
  have hothers : ∀ p ∈ preludeForm.places, p.mark ≠ "@HOST@".toList →
      replaceEach (valuesWith s a) p.mark = replaceEach (valuesWith s b) p.mark := by
    intro p hp hother
    obtain ⟨v, hv, hmark⟩ := exists_value s a p hp
    have hne : v.1 ≠ "@HOST@" := by
      intro hhost
      exact hother (hmark.symm.trans (congrArg String.toList hhost))
    rw [← hmark, replaceEach_marker v hv, replaceEach_marker v (mem_valuesWith_of_ne hv hne)]
  have honce : (preludeForm.places.map (·.mark)).count "@HOST@".toList = 1 :=
    preludeTemplate_spec.2
  have hhost := Template.eq_of_fill honce hothers h
  rw [replaceEach_host, replaceEach_host] at hhost
  exact String.toList_inj.mp hhost

/-- Settings that may be loaded give a prelude in which all markers are replaced at once, but that
the last one is also replaced in the literal of the callback host. That is the prelude with all
markers replaced at once if the last one does not occur in the callback host, and only then is the
literal read to the callback host. -/
theorem prelude_replaces_markers (h : s.check = .ok ()) :
    prelude s = String.ofList (replaceEach (valuesWith s (hostLiteral s)) preludeTemplate) ∧
    (prelude s = String.ofList (replaceEach (preludeValues s) preludeTemplate) ↔
      Text.occurs "@VERSION@".toList s.callbackHost.toList = false) ∧
    ∀ rest, Literal.readQuoted ((hostLiteral s).toList ++ rest) =
        some (s.callbackHost.toList, rest) ↔
      Text.occurs "@VERSION@".toList s.callbackHost.toList = false := by
  have hprelude : prelude s =
      String.ofList (replaceEach (valuesWith s (hostLiteral s)) preludeTemplate) := by
    rw [← toList_prelude h, String.ofList_toList]
  have hliteral : hostLiteral s = Literal.quoted s.callbackHost ↔
      Text.occurs "@VERSION@".toList s.callbackHost.toList = false := by
    apply Iff.trans _ (Literal.replaceEach_quotedChars isMark_version toList_version _)
    rw [hostLiteral, Literal.quoted, String.ofList_inj]
  refine ⟨hprelude, ?once, ?literal⟩
  case literal =>
    intro rest
    rw [hostLiteral, String.toList_ofList]
    exact Literal.readQuoted_replaced isMark_version toList_version _ rest
  case once =>
    rw [← hliteral, hprelude, preludeValues_eq, String.ofList_inj]
    constructor
    · exact eq_of_replaceEach
    · intro hsame
      rw [hsame]

theorem default_prelude_replaces_markers :
    prelude {} = String.ofList (replaceEach (preludeValues {}) preludeTemplate) ∧
    ∀ rest, Literal.readQuoted ((hostLiteral {}).toList ++ rest) =
      some ("127.0.0.1".toList, rest) := by
  have hloads : Settings.check {} = .ok () := by decide +kernel
  have habsent : Text.occurs "@VERSION@".toList "127.0.0.1".toList = false := by decide +kernel
  obtain ⟨-, hprelude, hliteral⟩ := prelude_replaces_markers hloads
  exact ⟨hprelude.2 habsent, fun rest => (hliteral rest).2 habsent⟩

/-- Settings whose callback host holds the last marker. -/
def markedHost : Settings := { callbackHost := "@VERSION@" }

/-- The marker is replaced in the literal of the callback host, which ends before it begins. -/
theorem marked_host_is_rewritten :
    markedHost.check = .ok () ∧ hostLiteral markedHost = "''1.0.0''" ∧
    prelude markedHost ≠
      String.ofList (replaceEach (preludeValues markedHost) preludeTemplate) ∧
    Literal.readQuoted (hostLiteral markedHost).toList = some ([], "1.0.0''".toList) := by
  have hloads : markedHost.check = .ok () := by decide +kernel
  have hliteral : hostLiteral markedHost = "''1.0.0''" := by decide +kernel
  have hother : hostLiteral markedHost ≠ Literal.quoted markedHost.callbackHost := by
    decide +kernel
  refine ⟨hloads, hliteral, ?prelude, by decide +kernel⟩
  case prelude =>
    intro hsame
    apply hother
    apply eq_of_replaceEach (s := markedHost)
    rw [← toList_prelude hloads, hsame, String.toList_ofList, preludeValues_eq]

end

end RemoteHost.Program
