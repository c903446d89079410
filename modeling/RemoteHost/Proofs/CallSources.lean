import RemoteHost.Catalogue.Panel
import RemoteHost.Proofs.SymbolRows

/-!
# The sources of calls

The methods of the catalogue that take strings, numbers and functions, as data. The source of a call
is spelled by symbols of which only the literals depend on what the strings of the call say.
-/

namespace RemoteHost

variable {F : Type} {s : Settings}

/-! ## Methods -/

/-- An argument that is neither an object nor a value of any form. -/
inductive Argument where
  | text (text : String)
  | texts (texts : List String)
  | integer (value : Int)
  | flag (value : Bool)
  /-- A function that forwards what it is given to an endpoint. -/
  | callback (parameters : List String)
  | nothing

namespace Argument

def source (s : Settings) : Argument → String
  | text t => Literal.quoted t
  | texts ts => Literal.ofStrings ts
  | integer n => Literal.ofInt n
  | flag b => Literal.ofBool b
  | callback parameters => Program.callbackLambda s parameters
  | nothing => Literal.noneText

def symbols (s : Settings) : Argument → List Symbol
  | text t => [.literal t.toList]
  | texts ts =>
    Symbol.ofText "[" ++ Symbol.joined (ts.map fun t => [.literal t.toList]) ++ Symbol.ofText "]"
  | integer n => Symbol.ofText (Literal.ofInt n)
  | flag b => Symbol.ofText (Literal.ofBool b)
  | callback parameters =>
    Symbol.ofText "lambda " ++ Symbol.joined (parameters.map Symbol.ofText) ++
      Symbol.ofText (": " ++ s.callbackHelper ++ "(") ++
      Symbol.joined ([.slot] :: parameters.map Symbol.ofText) ++ Symbol.ofText ")"
  | nothing => Symbol.ofText Literal.noneText

/-- The strings of an argument. -/
def strings : Argument → List String
  | text t => [t]
  | texts ts => ts
  | _ => []

/-- The argument of the same form whose strings say nothing. -/
def blank : Argument → Argument
  | text _ => text ""
  | texts ts => texts (ts.map fun _ => "")
  | other => other

/-- The number of tokens that an argument takes. -/
def callbacks : Argument → Nat
  | callback _ => 1
  | _ => 0

end Argument

/-- A method of the catalogue with its arguments, and how its result is read. -/
structure Method where
  name : String
  arguments : List Argument
  reading : Reading

namespace Method

def query (s : Settings) (m : Method) : Query :=
  .method m.name (m.arguments.map (·.source s)) m.reading

def symbols (s : Settings) (m : Method) : List Symbol :=
  Symbol.ofText ("." ++ m.name ++ "(") ++ Symbol.joined (m.arguments.map (·.symbols s)) ++
    Symbol.ofText ")"

def strings (m : Method) : List String := m.arguments.flatMap (·.strings)

def blank (m : Method) : Method := { m with arguments := m.arguments.map (·.blank) }

def callbacks (m : Method) : Nat := (m.arguments.map (·.callbacks)).sum

end Method

/-- The method that an operation calls. There is none for operations on other objects and with
values of any form. -/
def WindowOperation.method? : WindowOperation → Option Method
  | .id => some ⟨"id", [], .integer⟩
  | .newFile => some ⟨"new_file", [], .object⟩
  | .openFile path flags => some ⟨"open_file", [.text path, .integer flags], .object⟩
  | .findOpenFile path => some ⟨"find_open_file", [.text path], .optionalObject⟩
  | .activeSheet => some ⟨"active_sheet", [], .object⟩
  | .activeSheetInGroup group => some ⟨"active_sheet_in_group", [.integer group], .object⟩
  | .activeView => some ⟨"active_view", [], .object⟩
  | .activeViewInGroup group => some ⟨"active_view_in_group", [.integer group], .object⟩
  | .views => some ⟨"views", [], .objects⟩
  | .viewsInGroup group => some ⟨"views_in_group", [.integer group], .objects⟩
  | .sheets => some ⟨"sheets", [], .objects⟩
  | .sheetsInGroup group => some ⟨"sheets_in_group", [.integer group], .objects⟩
  | .numGroups => some ⟨"num_groups", [], .integer⟩
  | .activeGroup => some ⟨"active_group", [], .integer⟩
  | .focusGroup group => some ⟨"focus_group", [.integer group], .unit⟩
  | .statusMessage message => some ⟨"status_message", [.text message], .unit⟩
  | .runCommand command none => some ⟨"run_command", [.text command], .unit⟩
  | .projectData => some ⟨"project_data", [], .value⟩
  | .folders => some ⟨"folders", [], .texts⟩
  | .extractVariables => some ⟨"extract_variables", [], .mapping⟩
  | .createOutputPanel name unlisted =>
    some ⟨"create_output_panel", [.text name, .flag unlisted], .object⟩
  | .findOutputPanel name => some ⟨"find_output_panel", [.text name], .optionalObject⟩
  | .destroyOutputPanel name => some ⟨"destroy_output_panel", [.text name], .unit⟩
  | .activePanel => some ⟨"active_panel", [], .optionalText⟩
  | .panels => some ⟨"panels", [], .texts⟩
  | .focusSheet _ | .focusView _ | .runCommand _ (some _) | .setProjectData _ => none

def ViewOperation.method : ViewOperation → Method
  | .id => ⟨"id", [], .integer⟩
  | .fileName => ⟨"file_name", [], .optionalText⟩
  | .size => ⟨"size", [], .integer⟩
  | .isLoading => ⟨"is_loading", [], .boolean⟩
  | .window => ⟨"window", [], .object⟩

/-- The function for a slot that may be missing. -/
def Argument.optionalCallback (action : Option F) (parameters : List String) : Argument :=
  match action with
  | some _ => callback parameters
  | none => nothing

def QuickPanel.method (panel : QuickPanel F) : Method where
  name := "show_quick_panel"
  arguments := [.texts panel.items, .callback ["index"], .integer panel.flags,
    .integer panel.selectedIndex, .optionalCallback panel.onHighlight ["index"]]
  reading := .value

def InputPanel.method (panel : InputPanel F) : Method where
  name := "show_input_panel"
  arguments := [.text panel.caption, .text panel.initialText, .callback ["text"],
    .optionalCallback panel.onChange ["text"], .optionalCallback panel.onCancel []]
  reading := .object

theorem WindowOperation.query_eq {op : WindowOperation} {m : Method} (h : op.method? = some m) :
    op.query s = m.query s := by
  cases op with
  | runCommand command arguments =>
    cases arguments with
    | none =>
      cases h
      rfl
    | some fields => cases h
  | _ => cases h <;> rfl

theorem ViewOperation.query_eq (op : ViewOperation) : op.query = op.method.query s := by
  cases op <;> rfl

theorem QuickPanel.template_eq (window : Proxy) (panel : QuickPanel F) :
    panel.template s window = window.source s ++ (panel.method.query s).suffix := by
  obtain ⟨items, flags, selected, onSelect, onHighlight⟩ := panel
  cases onHighlight <;> rfl

theorem InputPanel.template_eq (window : Proxy) (panel : InputPanel F) :
    panel.template s window = window.source s ++ (panel.method.query s).suffix := by
  obtain ⟨caption, initialText, onDone, onChange, onCancel⟩ := panel
  cases onChange <;> cases onCancel <;> rfl

/-! ## Arguments and methods -/

namespace Argument

/-- The parameters of a function are bare text. -/
def IsPlain : Argument → Prop
  | callback parameters => ∀ parameter ∈ parameters, IsBareText parameter
  | _ => True

theorem spell_symbols (s : Settings) (argument : Argument) :
    Symbol.spell (argument.symbols s) = (argument.source s).toList := by
  cases argument with
  | text t => simp [symbols, source, Symbol.spell, Symbol.chars, Literal.quoted]
  | integer | flag | nothing => exact Symbol.spell_ofText _
  | texts ts =>
    have hparts : (ts.map fun t => [Symbol.literal t.toList]).map Symbol.spell =
        ts.map fun t => Literal.quotedChars t.toList := by
      rw [List.map_map]
      refine List.map_congr_left fun t _ => ?_
      exact List.append_nil _
    have hsource : (source s (texts ts)).toList =
        '[' :: ", ".toList.intercalate (ts.map fun t => Literal.quotedChars t.toList) ++ [']'] := by
      rw [source, Literal.ofStrings, String.toList_ofList, Literal.stringsChars, Literal.listChars,
        Literal.separated_eq]
    rw [symbols, Symbol.spell_append, Symbol.spell_append, Symbol.spell_joined, hparts,
      Symbol.spell_ofText, Symbol.spell_ofText, hsource]
    rfl
  | callback parameters =>
    have hparameters : (parameters.map Symbol.ofText).map Symbol.spell =
        parameters.map String.toList := by
      rw [List.map_map]
      exact List.map_congr_left fun t _ => Symbol.spell_ofText t
    have hparts : ([.slot] :: parameters.map Symbol.ofText).map Symbol.spell =
        (Program.placeholder :: parameters).map String.toList := by
      rw [List.map_cons, List.map_cons, hparameters]
      exact congrArg (· :: _) (List.append_nil _)
    simp only [symbols, Symbol.spell_append, Symbol.spell_joined, Symbol.spell_ofText, hparameters,
      hparts, source, Program.callbackLambda, String.toList_append, String.toList_intercalate,
      List.append_assoc]

theorem fits_texts (s : Settings) (ts : List String) : Symbol.Fits ((texts ts).symbols s) := by
  have hparts : ∀ xs ∈ ts.map fun t => [Symbol.literal t.toList], Symbol.Fits xs := by
    intro xs hxs
    obtain ⟨t, -, rfl⟩ := List.mem_map.mp hxs
    exact ⟨.literal, rfl⟩
  have hopening : Symbol.Free (Symbol.ofText "[") := by decide
  have hclosing : Symbol.Free (Symbol.ofText "]") := by decide
  exact (hopening.enclose (Symbol.Fits.joined hparts) hclosing).passes.fits

theorem fits_symbols (hs : s.IsBare) {argument : Argument} (h : argument.IsPlain) :
    Symbol.Fits (argument.symbols s) := by
  cases argument with
  | text t => exact ⟨.literal, rfl⟩
  | integer n => exact (Symbol.passes_bare (isBareText_ofInt n)).fits
  | flag b => cases b <;> exact ⟨.name, rfl⟩
  | nothing => exact ⟨.name, rfl⟩
  | texts ts => exact fits_texts s ts
  | callback parameters =>
    have hparameters : ∀ xs ∈ parameters.map Symbol.ofText, Symbol.Fits xs := by
      intro xs hxs
      obtain ⟨parameter, hparameter, rfl⟩ := List.mem_map.mp hxs
      exact (Symbol.passes_bare (h parameter hparameter)).fits
    have hparts : ∀ xs ∈ [.slot] :: parameters.map Symbol.ofText, Symbol.Fits xs :=
      List.forall_mem_cons.mpr ⟨⟨.literal, rfl⟩, hparameters⟩
    have hopening : Symbol.Free (Symbol.ofText "lambda ") := by decide
    have hhelper : Symbol.Free (Symbol.ofText (": " ++ s.callbackHelper ++ "(")) :=
      free_ofText (isBareText_append (by decide) hs.callbackHelper) (by decide)
    have hclosing : Symbol.Free (Symbol.ofText ")") := by decide
    exact ((hopening.enclose (Symbol.Fits.joined hparameters) hhelper).enclose
      (Symbol.Fits.joined hparts) hclosing).passes.fits

theorem outline_blank (s : Settings) (argument : Argument) :
    (argument.blank.symbols s).map Symbol.outline = (argument.symbols s).map Symbol.outline := by
  cases argument with
  | texts ts =>
    have hparts : ∀ names : List String, ((names.map fun t => [Symbol.literal t.toList]).map
        (List.map Symbol.outline)) = names.map fun _ => [none] := by
      intro names
      rw [List.map_map]
      rfl
    simp only [blank, symbols, List.map_append, Symbol.outline_joined, hparts, List.map_map]
    rfl
  | _ => rfl

theorem texts_symbols (s : Settings) (argument : Argument) :
    Symbol.texts (argument.symbols s) = argument.strings := by
  cases argument with
  | text t => simp [symbols, strings, Symbol.texts, Symbol.text?]
  | integer | flag | nothing => exact Symbol.texts_ofText _
  | texts ts =>
    have hparts : ts.flatMap (fun t => Symbol.texts [.literal t.toList]) = ts := by
      simp [Symbol.texts, Symbol.text?]
    rw [symbols, Symbol.texts_append, Symbol.texts_append, Symbol.texts_joined,
      Symbol.texts_ofText, Symbol.texts_ofText, List.flatMap_map, hparts]
    simp [strings]
  | callback parameters =>
    have hparameters : (parameters.map Symbol.ofText).flatMap Symbol.texts = [] := by
      simp [Symbol.texts_ofText]
    simp only [symbols, Symbol.texts_append, Symbol.texts_joined, Symbol.texts_ofText,
      List.flatMap_cons, hparameters]
    rfl

theorem count_slot (s : Settings) (argument : Argument) :
    (argument.symbols s).count .slot = argument.callbacks := by
  have hnone : ∀ text, (Symbol.ofText text).count .slot = 0 :=
    fun text => List.count_eq_zero.mpr (Symbol.slot_not_mem_ofText text)
  cases argument with
  | text t => rfl
  | integer | flag | nothing => exact hnone _
  | texts ts =>
    have hparts : (ts.map fun t => [Symbol.literal t.toList]).map (List.count .slot) =
        ts.map fun _ => 0 := by
      rw [List.map_map]
      rfl
    simp [symbols, callbacks, List.count_append, Symbol.count_slot_joined, hnone, hparts,
      List.map_const']
  | callback parameters =>
    have hparameters : (parameters.map Symbol.ofText).map (List.count .slot) =
        parameters.map fun _ => 0 := by
      rw [List.map_map]
      exact List.map_congr_left fun parameter _ => hnone parameter
    simp [symbols, callbacks, List.count_append, Symbol.count_slot_joined, hnone, hparameters,
      List.map_const']

end Argument

namespace Method

structure IsPlain (m : Method) : Prop where
  name : IsBareText m.name
  arguments : ∀ argument ∈ m.arguments, argument.IsPlain

theorem spell_symbols (s : Settings) (m : Method) :
    Symbol.spell (m.symbols s) = ((m.query s).suffix).toList := by
  have harguments : (m.arguments.map (·.symbols s)).map Symbol.spell =
      (m.arguments.map (·.source s)).map String.toList := by
    rw [List.map_map, List.map_map]
    exact List.map_congr_left fun argument _ => argument.spell_symbols s
  simp only [symbols, Symbol.spell_append, Symbol.spell_joined, Symbol.spell_ofText, harguments,
    query, Query.method, Operation.method, String.toList_append, String.toList_intercalate,
    List.append_assoc]

theorem free_symbols (hs : s.IsBare) {m : Method} (h : m.IsPlain) : Symbol.Free (m.symbols s) := by
  have harguments : ∀ xs ∈ m.arguments.map (·.symbols s), Symbol.Fits xs := by
    intro xs hxs
    obtain ⟨argument, hargument, rfl⟩ := List.mem_map.mp hxs
    exact Argument.fits_symbols hs (h.arguments argument hargument)
  have hopening : Symbol.Free (Symbol.ofText ("." ++ m.name ++ "(")) :=
    free_ofText (isBareText_append (by decide) h.name) (by decide)
  have hclosing : Symbol.Free (Symbol.ofText ")") := by decide
  exact hopening.enclose (Symbol.Fits.joined harguments) hclosing

theorem outline_blank (s : Settings) (m : Method) :
    (m.blank.symbols s).map Symbol.outline = (m.symbols s).map Symbol.outline := by
  have harguments : (m.blank.arguments.map (·.symbols s)).map (List.map Symbol.outline) =
      (m.arguments.map (·.symbols s)).map (List.map Symbol.outline) := by
    rw [blank, List.map_map, List.map_map, List.map_map]
    exact List.map_congr_left fun argument _ => argument.outline_blank s
  simp only [symbols, List.map_append, Symbol.outline_joined, harguments]
  rfl

theorem texts_symbols (s : Settings) (m : Method) : Symbol.texts (m.symbols s) = m.strings := by
  have harguments : (m.arguments.map (·.symbols s)).flatMap Symbol.texts = m.strings := by
    rw [List.flatMap_map, strings, List.flatMap_def, List.flatMap_def]
    exact congrArg List.flatten (List.map_congr_left fun argument _ => argument.texts_symbols s)
  rw [symbols, Symbol.texts_append, Symbol.texts_append, Symbol.texts_joined, harguments,
    Symbol.texts_ofText, Symbol.texts_ofText, List.nil_append, List.append_nil]

theorem count_slot (s : Settings) (m : Method) : (m.symbols s).count .slot = m.callbacks := by
  have hnone : ∀ text, (Symbol.ofText text).count .slot = 0 :=
    fun text => List.count_eq_zero.mpr (Symbol.slot_not_mem_ofText text)
  have harguments : (m.arguments.map (·.symbols s)).map (List.count .slot) =
      m.arguments.map (·.callbacks) := by
    rw [List.map_map]
    exact List.map_congr_left fun argument _ => argument.count_slot s
  rw [symbols, List.count_append, List.count_append, Symbol.count_slot_joined, hnone, hnone,
    harguments, Nat.zero_add, Nat.add_zero]
  rfl

/-- The strings of a method come before its functions. -/
def StringsFirst (m : Method) : Prop :=
  ∃ xs ys, m.arguments = xs ++ ys ∧ (∀ argument ∈ xs, argument.callbacks = 0) ∧
    ∀ argument ∈ ys, argument.strings = []

theorem literalsFirst_symbols (s : Settings) {m : Method} (h : m.StringsFirst) :
    Symbol.LiteralsFirst (m.symbols s) := by
  obtain ⟨xs, ys, harguments, hxs, hys⟩ := h
  have hbefore : ∀ part ∈ xs.map (·.symbols s), Symbol.slot ∉ part := by
    intro part hpart
    obtain ⟨argument, hargument, rfl⟩ := List.mem_map.mp hpart
    rw [← List.count_eq_zero, argument.count_slot]
    exact hxs argument hargument
  have hafter : ∀ part ∈ ys.map (·.symbols s), Symbol.texts part = [] := by
    intro part hpart
    obtain ⟨argument, hargument, rfl⟩ := List.mem_map.mp hpart
    rw [argument.texts_symbols]
    exact hys argument hargument
  have hjoined := Symbol.LiteralsFirst.joined hbefore hafter
  rw [← List.map_append, ← harguments] at hjoined
  obtain ⟨front, back, hsplit, hfront, hback⟩ := hjoined
  refine ⟨Symbol.ofText ("." ++ m.name ++ "(") ++ front, back ++ Symbol.ofText ")", ?_, ?_, ?_⟩
  · rw [symbols, hsplit]
    simp only [List.append_assoc]
  · simp [Symbol.slot_not_mem_ofText, hfront]
  · rw [Symbol.texts_append, hback, Symbol.texts_ofText, List.append_nil]

end Method

/-! ## The catalogue -/

theorem WindowOperation.isPlain {op : WindowOperation} {m : Method} (h : op.method? = some m) :
    m.IsPlain := by
  cases op with
  | runCommand command arguments =>
    cases arguments with
    | none =>
      cases h
      exact ⟨by dsimp only; decide, by simp [Argument.IsPlain]⟩
    | some fields => cases h
  | _ => cases h <;> exact ⟨by dsimp only; decide, by simp [Argument.IsPlain]⟩

theorem WindowOperation.no_callbacks {op : WindowOperation} {m : Method}
    (h : op.method? = some m) : ∀ argument ∈ m.arguments, argument.callbacks = 0 := by
  cases op with
  | runCommand command arguments =>
    cases arguments with
    | none =>
      cases h
      simp [Argument.callbacks]
    | some fields => cases h
  | _ => cases h <;> simp [Argument.callbacks]

theorem WindowOperation.callbacks_eq_zero {op : WindowOperation} {m : Method}
    (h : op.method? = some m) : m.callbacks = 0 := by
  rw [Method.callbacks, List.map_congr_left (no_callbacks h)]
  simp [List.map_const']

theorem WindowOperation.stringsFirst {op : WindowOperation} {m : Method}
    (h : op.method? = some m) : m.StringsFirst :=
  ⟨m.arguments, [], (List.append_nil _).symm, no_callbacks h, nofun⟩

theorem Argument.isPlain_optionalCallback {action : Option F} {parameters : List String}
    (h : ∀ parameter ∈ parameters, IsBareText parameter) :
    (optionalCallback action parameters).IsPlain := by
  cases action with
  | none => trivial
  | some function => exact h

theorem Argument.strings_optionalCallback (action : Option F) (parameters : List String) :
    (optionalCallback action parameters).strings = [] := by
  cases action <;> rfl

theorem QuickPanel.isPlain (panel : QuickPanel F) : panel.method.IsPlain := by
  have hname : IsBareText "show_quick_panel" := by decide
  have hindex : ∀ parameter ∈ ["index"], IsBareText parameter := by decide
  refine ⟨hname, ?_⟩
  simp only [QuickPanel.method, List.forall_mem_cons]
  exact ⟨trivial, hindex, trivial, trivial, Argument.isPlain_optionalCallback hindex, nofun⟩

theorem InputPanel.isPlain (panel : InputPanel F) : panel.method.IsPlain := by
  have hname : IsBareText "show_input_panel" := by decide
  have htext : ∀ parameter ∈ ["text"], IsBareText parameter := by decide
  refine ⟨hname, ?_⟩
  simp only [InputPanel.method, List.forall_mem_cons]
  exact ⟨trivial, trivial, htext, Argument.isPlain_optionalCallback htext,
    Argument.isPlain_optionalCallback nofun, nofun⟩

theorem QuickPanel.stringsFirst (panel : QuickPanel F) : panel.method.StringsFirst := by
  refine ⟨[.texts panel.items], _, rfl, List.forall_mem_singleton.mpr rfl, ?_⟩
  simp only [List.forall_mem_cons]
  exact ⟨rfl, rfl, rfl, Argument.strings_optionalCallback _ _, nofun⟩

theorem InputPanel.stringsFirst (panel : InputPanel F) : panel.method.StringsFirst := by
  refine ⟨[.text panel.caption, .text panel.initialText], _, rfl, ?_, ?_⟩
  · simp only [List.forall_mem_cons]
    exact ⟨rfl, rfl, nofun⟩
  · simp only [List.forall_mem_cons]
    exact ⟨rfl, Argument.strings_optionalCallback _ _, Argument.strings_optionalCallback _ _, nofun⟩

/-- A panel takes one token for each of its slots. -/
theorem QuickPanel.callbacks_method (panel : QuickPanel F) :
    panel.method.callbacks = panel.slots.length := by
  obtain ⟨items, flags, selected, onSelect, onHighlight⟩ := panel
  cases onHighlight <;> rfl

theorem InputPanel.callbacks_method (panel : InputPanel F) :
    panel.method.callbacks = panel.slots.length := by
  obtain ⟨caption, initialText, onDone, onChange, onCancel⟩ := panel
  cases onChange <;> cases onCancel <;> rfl

end RemoteHost
