import RemoteHost.Proofs.ChainLimit

/-!
# The programs of panels

Whatever calls a window comes from, the template of a panel at it has one placeholder for each slot
of the panel, and none in anything that a user wrote. When the tokens of the endpoints are put in,
every function of the call forwards to the endpoint of its own slot.
-/

namespace RemoteHost

variable {F : Type} {s : Settings}

/-! ## Objects that calls lead to -/

/-- A query leads from receivers to receivers. -/
theorem ask_gives_reached {r : Receiver} (hr : r.IsReached) {q : Query}
    (hq : q.reading = .object → IsCatalogued s q) {step : Option LineageId} {talk : Talk F}
    {answer : Answer} (h : (q.ask s (r.proxy s) step).run.Comes talk (some (.ok answer)))
    {next : Proxy} (hnext : next ∈ answer.proxies) :
    ∃ r' : Receiver, r'.IsReached ∧ next = r'.proxy s := by
  by_cases hreading : q.reading = .object
  · obtain ⟨-, hyields⟩ := Sending.Sound.comes h
      (ask_gives_receiver hr (hq hreading) hreading step) (.inl rfl)
    obtain ⟨r', hr', rfl⟩ := hyields _ rfl
    exact ⟨r', hr', List.mem_singleton.mp hnext⟩
  · rw [Query.ask, if_neg hreading] at h
    obtain ⟨outcome, _, _, -, h, -⟩ := Routine.Comes.of_andThen h
    obtain ⟨key, rfl⟩ := ofOutcome_gives hreading (comes_result h) hnext
    exact ⟨⟨some key, []⟩, List.forall_mem_nil _, rfl⟩

theorem job_gives_reached {r : Receiver} (hr : r.IsReached) {objectCall : ObjectCall F}
    {step : Option LineageId} {talk : Talk F} {result : Answer ⊕ Invoked}
    (h : (objectCall.job s (r.proxy s) step).run.Comes talk (some (.ok result))) {next : Proxy}
    (hnext : next ∈ givenObjects result) :
    ∃ r' : Receiver, r'.IsReached ∧ next = r'.proxy s := by
  have asked : ∀ q : Query, (q.reading = .object → IsCatalogued s q) →
      (ObjectCall.asking s (r.proxy s) step q).run.Comes talk (some (.ok result)) →
      ∃ r' : Receiver, r'.IsReached ∧ next = r'.proxy s := by
    intro q hq h
    obtain ⟨answer, _, _, hask, h, -⟩ := Routine.Comes.of_andThen h
    cases comes_pure h
    exact ask_gives_reached hr hq hask hnext
  cases objectCall with
  | window op => exact asked _ (fun _ => .inl ⟨op, rfl⟩) h
  | view op => exact asked _ (fun _ => .inr ⟨op, rfl⟩) h
  | sheet op => exact asked _ (fun hobject => by cases op <;> cases hobject) h
  | quickPanel | inputPanel =>
    obtain ⟨invoked, _, _, -, h, -⟩ := Routine.Comes.of_andThen h
    cases comes_pure h
    obtain ⟨key, rfl⟩ := invoked_gives hnext
    exact ⟨⟨some key, []⟩, List.forall_mem_nil _, rfl⟩

/-- However it was obtained, an object is known to the last symbol of its source. -/
theorem Obtained.exists_receiver {object : Proxy} (h : Obtained F s object) :
    ∃ r : Receiver, r.IsReached ∧ object = r.proxy s := by
  induction h with
  | activeWindow => exact ⟨⟨none, []⟩, List.forall_mem_nil _, rfl⟩
  | stored key => exact ⟨⟨some key, []⟩, List.forall_mem_nil _, rfl⟩
  | given h hcomes hnext ih =>
    obtain ⟨r, hr, rfl⟩ := ih
    exact job_gives_reached hr hcomes hnext
  | materialized h hcomes ih =>
    obtain ⟨key, rfl⟩ := materialize_gives hcomes
    exact ⟨⟨some key, []⟩, List.forall_mem_nil _, rfl⟩

/-! ## Symbols that are filled in part by part -/

namespace Symbol

theorem fill_nil (symbols : List Symbol) : fill symbols [] = symbols := by
  induction symbols with
  | nil => rfl
  | cons symbol symbols ih => cases symbol <;> exact congrArg (_ :: ·) ih

/-- The first part takes as many tokens as it has places for them. -/
theorem fill_append_append {xs : List Symbol} {tokens : List String}
    (h : xs.count slot = tokens.length) (ys : List Symbol) (more : List String) :
    fill (xs ++ ys) (tokens ++ more) = fill xs tokens ++ fill ys more := by
  induction xs generalizing tokens with
  | nil =>
    obtain rfl := List.eq_nil_of_length_eq_zero h.symm
    rfl
  | cons x xs ih =>
    cases x with
    | slot =>
      rw [List.count_cons_self] at h
      cases tokens with
      | nil => cases h
      | cons token tokens => exact congrArg (_ :: ·) (ih (Nat.succ.inj h))
    | bare | literal =>
      rw [List.count_cons_of_ne (by simp)] at h
      exact congrArg (_ :: ·) (ih h)

theorem joined_cons_cons (xs ys : List Symbol) (parts : List (List Symbol)) :
    joined (xs :: ys :: parts) = xs ++ (ofText ", " ++ joined (ys :: parts)) := by
  rw [joined, List.intercalate_cons_cons, List.append_assoc]
  rfl

theorem fill_joined {parts : List (List Symbol × List String)}
    (h : ∀ part ∈ parts, part.1.count slot = part.2.length) :
    fill (joined (parts.map (·.1))) (parts.flatMap (·.2)) =
      joined (parts.map fun part => fill part.1 part.2) := by
  induction parts with
  | nil => rfl
  | cons part parts ih =>
    obtain ⟨hpart, hparts⟩ := List.forall_mem_cons.mp h
    have hrest := ih hparts
    cases parts with
    | nil => simp [joined]
    | cons next parts =>
      simp only [List.map_cons, List.flatMap_cons] at hrest
      simp only [List.map_cons, List.flatMap_cons, joined_cons_cons]
      rw [fill_append_append hpart, fill_append (slot_not_mem_ofText _), hrest]

theorem sum_count_slot {parts : List (List Symbol)} (h : ∀ part ∈ parts, slot ∉ part) :
    (parts.map (List.count slot)).sum = 0 := by
  have hnone : parts.map (List.count slot) = parts.map fun _ => 0 :=
    List.map_congr_left fun part hpart => List.count_eq_zero.mpr (h part hpart)
  simp [hnone, List.map_const']

end Symbol

/-! ## Calls with tokens -/

/-- A function that forwards what it is given to the endpoint with a token, or none. -/
def forwarder (s : Settings) (parameters : List String) : Option String → String
  | some token => "lambda " ++ ", ".intercalate parameters ++ ": " ++ s.callbackHelper ++ "(" ++
      ", ".intercalate (Literal.quoted token :: parameters) ++ ")"
  | none => Literal.noneText

namespace Argument

/-- How an argument is written once its function, if it is one, has a token. -/
def written (s : Settings) : Argument → Option String → String
  | callback parameters, some token => forwarder s parameters (some token)
  | argument, _ => argument.source s

/-- The place for the token is the only one in a function. -/
theorem spell_fill_callback (s : Settings) (parameters : List String) (token : String) :
    Symbol.spell (Symbol.fill ((callback parameters).symbols s) [token]) =
      (forwarder s parameters (some token)).toList := by
  have hparameters : ∀ part ∈ parameters.map Symbol.ofText, .slot ∉ part := by
    intro part hpart
    obtain ⟨parameter, -, rfl⟩ := List.mem_map.mp hpart
    exact Symbol.slot_not_mem_ofText parameter
  have hfront : .slot ∉ Symbol.ofText "lambda " ++ Symbol.joined (parameters.map Symbol.ofText) ++
      Symbol.ofText (": " ++ s.callbackHelper ++ "(") := by
    have hnames : .slot ∉ Symbol.joined (parameters.map Symbol.ofText) := by
      rw [← List.count_eq_zero, Symbol.count_slot_joined, Symbol.sum_count_slot hparameters]
    simp [Symbol.slot_not_mem_ofText, hnames]
  have hone : (Symbol.joined ([.slot] :: parameters.map Symbol.ofText)).count .slot =
      [token].length := by
    rw [Symbol.count_slot_joined, List.map_cons, List.sum_cons, Symbol.sum_count_slot hparameters]
    rfl
  have harguments : Symbol.fill (Symbol.joined ([.slot] :: parameters.map Symbol.ofText)) [token] =
      Symbol.joined ([.literal token.toList] :: parameters.map Symbol.ofText) := by
    cases parameters with
    | nil => rfl
    | cons parameter parameters =>
      rw [List.map_cons, Symbol.joined_cons_cons, Symbol.joined_cons_cons]
      exact congrArg (_ :: ·) (Symbol.fill_nil _)
  have hrest := Symbol.fill_append_append hone (Symbol.ofText ")") []
  rw [List.append_nil, harguments, Symbol.fill_nil] at hrest
  have hspelled : (parameters.map Symbol.ofText).map Symbol.spell =
      parameters.map String.toList := by
    rw [List.map_map]
    exact List.map_congr_left fun parameter _ => Symbol.spell_ofText parameter
  have hliteral : Symbol.spell [.literal token.toList] = (Literal.quoted token).toList := by
    rw [Literal.toList_quoted]
    exact List.append_nil _
  rw [symbols, List.append_assoc, Symbol.fill_append hfront, hrest]
  simp only [Symbol.spell_append, Symbol.spell_joined, Symbol.spell_ofText, List.map_cons,
    hspelled, hliteral, forwarder, String.toList_append, String.toList_intercalate,
    List.append_assoc]

theorem spell_fill (s : Settings) {argument : Argument} {token : Option String}
    (h : argument.callbacks = token.toList.length) :
    Symbol.spell (Symbol.fill (argument.symbols s) token.toList) =
      (argument.written s token).toList := by
  cases token with
  | none =>
    have hplain : argument.written s none = argument.source s := by cases argument <;> rfl
    rw [hplain, Option.toList_none, Symbol.fill_nil, argument.spell_symbols]
  | some token =>
    cases argument with
    | callback parameters => exact spell_fill_callback s parameters token
    | _ => cases h

end Argument

/-- An argument, and the token of its function if it is one. -/
abbrev Wire := Argument × Option String

/-- Exactly the functions among the arguments have tokens. -/
def AreWired (wires : List Wire) : Prop :=
  ∀ wire ∈ wires, wire.1.callbacks = wire.2.toList.length

section Wires

variable {m : Method} {wires : List Wire}

theorem Method.callbacks_eq_length (harguments : m.arguments = wires.map (·.1))
    (hwires : AreWired wires) : m.callbacks = (wires.flatMap (·.2.toList)).length := by
  rw [callbacks, harguments, List.map_map, List.length_flatMap]
  exact congrArg List.sum (List.map_congr_left hwires)

theorem Method.spell_fill (s : Settings) (harguments : m.arguments = wires.map (·.1))
    (hwires : AreWired wires) :
    Symbol.spell (Symbol.fill (m.symbols s) (wires.flatMap (·.2.toList))) =
      (Operation.method m.name (wires.map fun wire => wire.1.written s wire.2)).suffix.toList := by
  have hnone : ∀ text, (Symbol.ofText text).count .slot = 0 :=
    fun text => List.count_eq_zero.mpr (Symbol.slot_not_mem_ofText text)
  have hcount := (m.count_slot s).trans (callbacks_eq_length harguments hwires)
  rw [symbols, List.count_append, List.count_append, hnone, hnone, Nat.zero_add,
    Nat.add_zero] at hcount
  have hrest := Symbol.fill_append_append hcount (Symbol.ofText ")") []
  have hplaces : ∀ part ∈ wires.map fun wire => (wire.1.symbols s, wire.2.toList),
      part.1.count .slot = part.2.length := by
    intro part hpart
    obtain ⟨wire, hwire, rfl⟩ := List.mem_map.mp hpart
    exact (wire.1.count_slot s).trans (hwires wire hwire)
  have hparts := Symbol.fill_joined hplaces
  simp only [List.map_map, List.flatMap_map, Function.comp_def] at hparts
  have hwritten : (wires.map fun wire => Symbol.fill (wire.1.symbols s) wire.2.toList).map
      Symbol.spell = (wires.map fun wire => wire.1.written s wire.2).map String.toList := by
    rw [List.map_map, List.map_map]
    exact List.map_congr_left fun wire hwire => Argument.spell_fill s (hwires wire hwire)
  have hsymbols : m.arguments.map (·.symbols s) = wires.map fun wire => wire.1.symbols s := by
    rw [harguments, List.map_map]
    rfl
  rw [List.append_nil, Symbol.fill_nil, hsymbols, hparts] at hrest
  rw [symbols, List.append_assoc, Symbol.fill_append (Symbol.slot_not_mem_ofText _), hsymbols,
    hrest]
  simp only [Symbol.spell_append, Symbol.spell_joined, Symbol.spell_ofText, hwritten,
    Operation.method, String.toList_append, String.toList_intercalate, List.append_assoc]

/-- The template of a call is filled argument by argument. -/
theorem substituteTokens_wires (hs : s.IsBare) {r : Receiver} (hr : r.IsReached) (hm : m.IsPlain)
    (harguments : m.arguments = wires.map (·.1)) (hwires : AreWired wires) :
    Program.substituteTokens ((r.proxy s).source s ++ (m.query s).suffix)
        (wires.flatMap (·.2.toList)) =
      .ok ((r.proxy s).source s ++
        (Operation.method m.name (wires.map fun wire => wire.1.written s wire.2)).suffix) := by
  have hcount := Method.callbacks_eq_length harguments hwires
  rw [substituteTokens_callSymbols hs hr hm hcount, callSymbols,
    Symbol.fill_append (r.slot_not_mem_symbols s hr), Symbol.spell_append, r.spell_symbols,
    Method.spell_fill s harguments hwires, ← String.toList_append, String.ofList_toList]

end Wires

/-! ## Panels -/

/-- A panel of either kind. -/
inductive Panel (F : Type) where
  | quick (panel : QuickPanel F)
  | input (panel : InputPanel F)

namespace Panel

def template (s : Settings) (window : Proxy) : Panel F → String
  | quick panel => panel.template s window
  | input panel => panel.template s window

def shape : Panel F → ResultShape
  | quick _ => .value
  | input _ => .handle

def slots : Panel F → List (Slot F)
  | quick panel => panel.slots
  | input panel => panel.slots

def present (s : Settings) (label : String) (window : Proxy) (lineage : LineageId) :
    Panel F → Job F Invoked
  | quick panel => panel.present s label window lineage
  | input panel => panel.present s label window lineage

/-- What is called with the choice or the line of text. -/
def onDone : Panel F → F
  | quick panel => panel.onSelect
  | input panel => panel.onDone

/-- What is called whenever something else is marked or entered. -/
def onChange : Panel F → Option F
  | quick panel => panel.onHighlight
  | input panel => panel.onChange

/-- What is called when the panel is left. A quick panel does not tell. -/
def onCancel : Panel F → Option F
  | quick _ => none
  | input panel => panel.onCancel

theorem present_eq (s : Settings) (label : String) (window : Proxy) (lineage : LineageId)
    (panel : Panel F) : panel.present s label window lineage =
      invoke s label (panel.template s window) panel.shape panel.slots lineage := by
  cases panel <;> rfl

theorem slots_eq (panel : Panel F) : panel.slots =
    ⟨.oneShot, .value, panel.onDone⟩ ::
      (panel.onChange.toList.map fun action => ⟨.repeatable, .value, action⟩) ++
      panel.onCancel.toList.map fun action => ⟨.oneShot, .empty, action⟩ := by
  cases panel with
  | quick panel => exact (List.append_nil _).symm
  | input panel => rfl

end Panel

/-- The endpoints of a panel. Those that it has only for a function are beside that function. -/
structure Wiring (F : Type) where
  done : Opened
  change : Option (F × Opened)
  cancel : Option (F × Opened)

namespace Wiring

/-- The functions of a panel have endpoints, and there are no others. -/
structure Fits (wiring : Wiring F) (panel : Panel F) : Prop where
  change : wiring.change.map (·.1) = panel.onChange
  cancel : wiring.cancel.map (·.1) = panel.onCancel

/-- The endpoints in the order in which they are opened. -/
def opened (wiring : Wiring F) : List Opened :=
  wiring.done :: (wiring.change.toList ++ wiring.cancel.toList).map (·.2)

/-- The slots of a panel, each with the endpoint that serves it. -/
def served (wiring : Wiring F) (panel : Panel F) : List (Slot F × Opened) :=
  (⟨.oneShot, .value, panel.onDone⟩, wiring.done) ::
    (wiring.change.toList.map fun (action, opened) => (⟨.repeatable, .value, action⟩, opened)) ++
    wiring.cancel.toList.map fun (action, opened) => (⟨.oneShot, .empty, action⟩, opened)

/-- The call that shows a panel. The functions are the second and the fifth parameter of the one
method, and the third, the fourth and the fifth of the other. -/
def source (s : Settings) (window : Proxy) (wiring : Wiring F) : Panel F → String
  | .quick panel => window.source s ++ (Operation.method "show_quick_panel"
      [ Literal.ofStrings panel.items,
        forwarder s ["index"] (some wiring.done.token),
        Literal.ofInt panel.flags,
        Literal.ofInt panel.selectedIndex,
        forwarder s ["index"] (wiring.change.map (·.2.token)) ]).suffix
  | .input panel => window.source s ++ (Operation.method "show_input_panel"
      [ Literal.quoted panel.caption,
        Literal.quoted panel.initialText,
        forwarder s ["text"] (some wiring.done.token),
        forwarder s ["text"] (wiring.change.map (·.2.token)),
        forwarder s [] (wiring.cancel.map (·.2.token)) ]).suffix

variable {panel : Panel F} {wiring : Wiring F}

/-- The endpoints serve the slots in the order in which they are opened. -/
theorem served_eq (h : wiring.Fits panel) :
    wiring.served panel = panel.slots.zip wiring.opened := by
  obtain ⟨done, change, cancel⟩ := wiring
  rw [Panel.slots_eq, ← h.change, ← h.cancel]
  cases change <;> cases cancel <;> rfl

theorem exists_paired {α β : Type} (a : Option α) {bs : List β}
    (h : bs.length = a.toList.length) :
    ∃ paired : Option (α × β), paired.map (·.1) = a ∧ paired.toList.map (·.2) = bs := by
  cases a with
  | none =>
    obtain rfl := List.eq_nil_of_length_eq_zero h
    exact ⟨none, rfl, rfl⟩
  | some a =>
    obtain ⟨b, rfl⟩ := List.length_eq_one_iff.mp h
    exact ⟨some (a, b), rfl, rfl⟩

theorem exists_wiring (panel : Panel F) {opened : List Opened}
    (h : opened.length = panel.slots.length) :
    ∃ wiring : Wiring F, wiring.Fits panel ∧ wiring.opened = opened := by
  rw [Panel.slots_eq, List.cons_append, List.length_cons, List.length_append, List.length_map,
    List.length_map] at h
  cases opened with
  | nil => cases h
  | cons done rest =>
    have hrest := Nat.succ.inj h
    obtain ⟨change, hchange, hfirst⟩ := exists_paired panel.onChange
      (List.length_take_of_le (Nat.le.intro hrest.symm))
    obtain ⟨cancel, hcancel, hsecond⟩ := exists_paired panel.onCancel
      ((List.length_drop ..).trans (Nat.sub_eq_of_eq_add' hrest))
    refine ⟨⟨done, change, cancel⟩, ⟨hchange, hcancel⟩, ?_⟩
    rw [opened, List.map_append, hfirst, hsecond, List.take_append_drop]

/-- The tokens of the endpoints go to the functions that the endpoints are for. -/
theorem substituteTokens_eq (hs : s.IsBare) {r : Receiver} (hr : r.IsReached)
    (h : wiring.Fits panel) :
    Program.substituteTokens (panel.template s (r.proxy s)) (wiring.opened.map (·.token)) =
      .ok (wiring.source s (r.proxy s) panel) := by
  obtain ⟨done, change, cancel⟩ := wiring
  obtain ⟨hchange, hcancel⟩ := h
  have optional : ∀ (paired : Option (F × Opened)) (parameters : List String),
      (Argument.optionalCallback (paired.map (·.1)) parameters).callbacks =
        (paired.map (·.2.token)).toList.length := by
    rintro (_ | paired) parameters <;> rfl
  cases panel with
  | quick panel =>
    obtain ⟨items, flags, selectedIndex, onSelect, onHighlight⟩ := panel
    obtain rfl : change.map (·.1) = onHighlight := hchange
    obtain rfl : cancel = none := Option.map_eq_none_iff.mp hcancel
    have hwires : AreWired [(.texts items, none), (.callback ["index"], some done.token),
        (.integer flags, none), (.integer selectedIndex, none),
        (.optionalCallback (change.map (·.1)) ["index"], change.map (·.2.token))] := by
      simp only [AreWired, List.forall_mem_cons]
      exact ⟨rfl, rfl, rfl, rfl, optional _ _, nofun⟩
    rw [Panel.template, QuickPanel.template_eq]
    have hplain := QuickPanel.isPlain ⟨items, flags, selectedIndex, onSelect, change.map (·.1)⟩
    have hfilled := substituteTokens_wires hs hr hplain rfl hwires
    cases change <;> exact hfilled
  | input panel =>
    obtain ⟨caption, initialText, onDone, onChange, onCancel⟩ := panel
    obtain rfl : change.map (·.1) = onChange := hchange
    obtain rfl : cancel.map (·.1) = onCancel := hcancel
    have hwires : AreWired [(.text caption, none), (.text initialText, none),
        (.callback ["text"], some done.token),
        (.optionalCallback (change.map (·.1)) ["text"], change.map (·.2.token)),
        (.optionalCallback (cancel.map (·.1)) [], cancel.map (·.2.token))] := by
      simp only [AreWired, List.forall_mem_cons]
      exact ⟨rfl, rfl, rfl, optional _ _, optional _ _, nofun⟩
    rw [Panel.template, InputPanel.template_eq]
    have hplain := InputPanel.isPlain
      ⟨caption, initialText, onDone, change.map (·.1), cancel.map (·.1)⟩
    have hfilled := substituteTokens_wires hs hr hplain rfl hwires
    cases change <;> cases cancel <;> exact hfilled

end Wiring

/-- Nothing that a user wrote is taken for a slot. -/
theorem Panel.placeholders_template (hs : s.IsBare) {window : Proxy} (hwindow : Obtained F s window)
    (panel : Panel F) :
    Program.placeholders (panel.template s window) = panel.slots.length := by
  obtain ⟨r, hr, rfl⟩ := hwindow.exists_receiver
  obtain ⟨wiring, hfits, hopened⟩ := Wiring.exists_wiring panel
    (List.length_replicate : (List.replicate panel.slots.length (Opened.mk 0 "")).length = _)
  have hplaces := placeholders_of_substituteTokens (wiring.substituteTokens_eq hs hr hfits)
  rw [hplaces, hopened, List.length_map, List.length_replicate]

end RemoteHost
