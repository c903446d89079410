import RemoteHost.Proofs.CallSources
import RemoteHost.Proofs.RoutineDiscipline

/-!
# The programs of the catalogue

A call of the catalogue on an object that the catalogue gave sends at most one program, at once or
when its own object is resolved. The program is known but for the tokens of the call's endpoints.
-/

namespace RemoteHost

variable {F α β : Type} {s : Settings}

/-! ## Receivers -/

/-- An object that calls of the catalogue give, one after another, from the window in front or from
an object under some key. -/
structure Receiver where
  key : Option String
  calls : List Method

/-- A method of the catalogue that gives one object. -/
structure Method.GivesObject (m : Method) : Prop where
  reading : m.reading = .object
  catalogued : (∃ op, WindowOperation.method? op = some m) ∨ ∃ op, ViewOperation.method op = m

namespace Receiver

def start (s : Settings) (r : Receiver) : Proxy :=
  match r.key with
  | some key => .resolved key
  | none => activeWindow s

/-- The proxy of a receiver of which nothing is resolved on the way. -/
def proxy (s : Settings) (r : Receiver) : Proxy :=
  r.calls.foldl (fun object m => (deferredCall s object (m.query s).operation).proxy) (r.start s)

def after (r : Receiver) (m : Method) : Receiver := { r with calls := r.calls ++ [m] }

def startSymbols (s : Settings) (r : Receiver) : List Symbol :=
  match r.key with
  | some key =>
    Symbol.ofText (s.handleTable ++ "[") ++ [.literal key.toList] ++ Symbol.ofText "]"
  | none => Symbol.ofText (s.hostModule ++ ".active_window()")

def symbols (s : Settings) (r : Receiver) : List Symbol :=
  r.startSymbols s ++ r.calls.flatMap (·.symbols s)

def strings (r : Receiver) : List String := r.key.toList ++ r.calls.flatMap (·.strings)

def blank (r : Receiver) : Receiver :=
  { key := r.key.map fun _ => "", calls := r.calls.map (·.blank) }

def IsReached (r : Receiver) : Prop := ∀ m ∈ r.calls, m.GivesObject

theorem proxy_after (s : Settings) (r : Receiver) (m : Method) :
    (r.after m).proxy s = (deferredCall s (r.proxy s) (m.query s).operation).proxy := by
  rw [proxy, after, List.foldl_append]
  rfl

theorem spell_startSymbols (s : Settings) (r : Receiver) :
    Symbol.spell (r.startSymbols s) = ((r.start s).source s).toList := by
  unfold startSymbols start
  cases r.key with
  | none => exact Symbol.spell_ofText _
  | some key =>
    have hliteral : Symbol.spell [.literal key.toList] = (Literal.quoted key).toList := by
      rw [Literal.toList_quoted]
      exact List.append_nil _
    simp only [Symbol.spell_append, Symbol.spell_ofText, hliteral, Proxy.source,
      Program.handleRef, String.toList_append]

theorem source_foldl (s : Settings) (object : Proxy) (calls : List Method) :
    ((calls.foldl (fun object m => (deferredCall s object (m.query s).operation).proxy)
      object).source s).toList =
        (object.source s).toList ++ Symbol.spell (calls.flatMap (·.symbols s)) := by
  induction calls generalizing object with
  | nil => exact (List.append_nil _).symm
  | cons m calls ih =>
    have hnext : ((deferredCall s object (m.query s).operation).proxy.source s).toList =
        (object.source s).toList ++ Symbol.spell (m.symbols s) := by
      rw [m.spell_symbols]
      exact String.toList_append
    rw [List.foldl_cons, ih, hnext, List.flatMap_cons, Symbol.spell_append, List.append_assoc]

theorem spell_symbols (s : Settings) (r : Receiver) :
    Symbol.spell (r.symbols s) = ((r.proxy s).source s).toList := by
  rw [proxy, source_foldl, symbols, Symbol.spell_append, spell_startSymbols]

theorem free_startSymbols (hs : s.IsBare) (r : Receiver) : Symbol.Free (r.startSymbols s) := by
  unfold startSymbols
  cases r.key with
  | none => exact free_ofText hs.hostModule (by decide)
  | some key =>
    have hopening : Symbol.Free (Symbol.ofText (s.handleTable ++ "[")) :=
      free_ofText hs.handleTable (by decide)
    have hclosing : Symbol.Free (Symbol.ofText "]") := by decide
    exact hopening.enclose ⟨.literal, rfl⟩ hclosing

end Receiver

/-- Every operation for an object calls a method that gives one. -/
theorem WindowOperation.givesObject {op : WindowOperation} (h : (op.query s).reading = .object) :
    ∃ m : Method, op.method? = some m ∧ m.GivesObject := by
  have hgives : ∀ m : Method, op.method? = some m → m.reading = .object → m.GivesObject :=
    fun m hm hreading => ⟨hreading, .inl ⟨op, hm⟩⟩
  cases op with
  | runCommand command arguments => cases arguments <;> cases h
  | _ => first | exact ⟨_, rfl, hgives _ rfl rfl⟩ | cases h

theorem ViewOperation.givesObject {op : ViewOperation} (h : op.query.reading = .object) :
    op.method.GivesObject := by
  cases op with
  | window => exact ⟨rfl, .inr ⟨.window, rfl⟩⟩
  | _ => cases h

/-- A query of the catalogue. -/
def IsCatalogued (s : Settings) (q : Query) : Prop :=
  (∃ op : WindowOperation, op.query s = q) ∨ ∃ op : ViewOperation, op.query = q

theorem exists_method {q : Query} (hq : IsCatalogued s q) (hobject : q.reading = .object) :
    ∃ m : Method, m.GivesObject ∧ q = m.query s := by
  rcases hq with ⟨op, rfl⟩ | ⟨op, rfl⟩
  · obtain ⟨m, hm, hgives⟩ := WindowOperation.givesObject hobject
    exact ⟨m, hgives, WindowOperation.query_eq hm⟩
  · exact ⟨op.method, ViewOperation.givesObject hobject, op.query_eq⟩

theorem Method.GivesObject.isPlain {m : Method} (h : m.GivesObject) : m.IsPlain := by
  rcases h.catalogued with ⟨op, hop⟩ | ⟨op, rfl⟩
  · exact WindowOperation.isPlain hop
  · cases op <;> exact ⟨by dsimp only [ViewOperation.method]; decide, nofun⟩

theorem Method.GivesObject.no_callbacks {m : Method} (h : m.GivesObject) : m.callbacks = 0 := by
  rcases h.catalogued with ⟨op, hop⟩ | ⟨op, rfl⟩
  · exact WindowOperation.callbacks_eq_zero hop
  · cases op <;> rfl

namespace Receiver

theorem free_symbols (hs : s.IsBare) {r : Receiver} (h : r.IsReached) :
    Symbol.Free (r.symbols s) := by
  have hcalls : ∀ (calls : List Method) {xs : List Symbol}, (∀ m ∈ calls, m.GivesObject) →
      Symbol.Free xs → Symbol.Free (xs ++ calls.flatMap (·.symbols s)) := by
    intro calls
    induction calls with
    | nil =>
      intro xs _ hxs
      rwa [List.flatMap_nil, List.append_nil]
    | cons m calls ih =>
      intro xs hgives hxs
      have hm := hgives m List.mem_cons_self
      rw [List.flatMap_cons, ← List.append_assoc]
      exact ih (fun n hn => hgives n (List.mem_cons_of_mem m hn))
        (hxs.append (Method.free_symbols hs hm.isPlain))
  exact hcalls r.calls h (free_startSymbols hs r)

theorem outline_blank (s : Settings) (r : Receiver) :
    (r.blank.symbols s).map Symbol.outline = (r.symbols s).map Symbol.outline := by
  have hstart : (r.blank.startSymbols s).map Symbol.outline =
      (r.startSymbols s).map Symbol.outline := by
    obtain ⟨key, calls⟩ := r
    cases key with
    | none => rfl
    | some key =>
      simp only [startSymbols, blank, Option.map_some, List.map_append]
      rfl
  have hcalls : (r.blank.calls.flatMap (·.symbols s)).map Symbol.outline =
      (r.calls.flatMap (·.symbols s)).map Symbol.outline := by
    rw [blank, List.flatMap_map, List.map_flatMap, List.map_flatMap, List.flatMap_def,
      List.flatMap_def]
    exact congrArg List.flatten (List.map_congr_left fun m _ => m.outline_blank s)
  rw [symbols, symbols, List.map_append, List.map_append, hstart, hcalls]

theorem texts_symbols (s : Settings) (r : Receiver) : Symbol.texts (r.symbols s) = r.strings := by
  have hstart : Symbol.texts (r.startSymbols s) = r.key.toList := by
    unfold startSymbols
    cases r.key with
    | none => exact Symbol.texts_ofText _
    | some key =>
      rw [Symbol.texts_append, Symbol.texts_append, Symbol.texts_ofText, Symbol.texts_ofText]
      simp [Symbol.texts, Symbol.text?]
  have hcalls : Symbol.texts (r.calls.flatMap (·.symbols s)) = r.calls.flatMap (·.strings) := by
    rw [Symbol.texts, List.filterMap_flatMap, List.flatMap_def, List.flatMap_def]
    exact congrArg List.flatten (List.map_congr_left fun m _ => m.texts_symbols s)
  rw [symbols, Symbol.texts_append, hstart, hcalls]
  rfl

theorem slot_not_mem_symbols (s : Settings) {r : Receiver} (h : r.IsReached) :
    .slot ∉ r.symbols s := by
  rw [symbols, List.mem_append, not_or]
  constructor
  · unfold startSymbols
    cases r.key <;> simp [Symbol.slot_not_mem_ofText]
  · intro hslot
    obtain ⟨m, hm, hslot⟩ := List.mem_flatMap.mp hslot
    have hnone := (h m hm).no_callbacks
    rw [← m.count_slot s, List.count_eq_zero] at hnone
    exact hnone hslot

end Receiver

/-! ## Programs -/

/-- The symbols of a call, with places for its tokens. -/
def callSymbols (s : Settings) (r : Receiver) (m : Method) : List Symbol :=
  r.symbols s ++ m.symbols s

def envelopedSymbols (s : Settings) (symbols : List Symbol) (shape : ResultShape) : List Symbol :=
  Symbol.ofText (s.resultSlot ++ " = " ++ s.envelopeHelper ++ "(lambda: (") ++ symbols ++
    Symbol.ofText "), " ++ [.literal shape.name.toList] ++ Symbol.ofText ")"

def programSymbols (s : Settings) (r : Receiver) (m : Method) (tokens : List String) :
    List Symbol :=
  envelopedSymbols s (Symbol.fill (callSymbols s r m) tokens) m.reading.shape

/-- The program of a call whose endpoints have the tokens. -/
def programOf (s : Settings) (r : Receiver) (m : Method) (tokens : List String) : String :=
  String.ofList (Symbol.spell (programSymbols s r m tokens))

section

variable {r : Receiver} {m : Method} {tokens : List String}

theorem spell_callSymbols (s : Settings) (r : Receiver) (m : Method) :
    String.ofList (Symbol.spell (callSymbols s r m)) =
      (r.proxy s).source s ++ (m.query s).suffix := by
  rw [callSymbols, Symbol.spell_append, r.spell_symbols, m.spell_symbols, ← String.toList_append,
    String.ofList_toList]

theorem spell_envelopedSymbols (s : Settings) (symbols : List Symbol) (shape : ResultShape) :
    String.ofList (Symbol.spell (envelopedSymbols s symbols shape)) =
      Program.enveloped s (String.ofList (Symbol.spell symbols)) shape := by
  have hliteral : Symbol.spell [.literal shape.name.toList] =
      (Literal.quoted shape.name).toList := by
    rw [Literal.toList_quoted]
    exact List.append_nil _
  rw [← String.toList_inj, String.toList_ofList]
  simp only [envelopedSymbols, Symbol.spell_append, Symbol.spell_ofText, hliteral,
    Program.enveloped, String.toList_append, String.toList_ofList]

theorem count_slot_callSymbols (s : Settings) (hr : r.IsReached) (m : Method) :
    (callSymbols s r m).count .slot = m.callbacks := by
  rw [callSymbols, List.count_append, List.count_eq_zero.mpr (r.slot_not_mem_symbols s hr),
    m.count_slot, Nat.zero_add]

theorem free_callSymbols (hs : s.IsBare) (hr : r.IsReached) (hm : m.IsPlain) :
    Symbol.Free (callSymbols s r m) :=
  (Receiver.free_symbols hs hr).append (Method.free_symbols hs hm)

theorem isBare_callSymbols (hs : s.IsBare) (hr : r.IsReached) (hm : m.IsPlain) :
    ∀ c, .bare c ∈ callSymbols s r m → isBare c = true :=
  Before.isBare_of_along (free_callSymbols hs hr hm .nothing)

/-- A call without callbacks needs no tokens. -/
theorem programOf_nil (hr : r.IsReached) (hm : m.callbacks = 0) :
    programOf s r m [] =
      Program.enveloped s ((r.proxy s).source s ++ (m.query s).suffix) m.reading.shape := by
  have hslot : .slot ∉ callSymbols s r m := by
    rw [← List.count_eq_zero, count_slot_callSymbols s hr, hm]
  have hfill := Symbol.fill_append hslot [] []
  rw [List.append_nil] at hfill
  rw [programOf, programSymbols, spell_envelopedSymbols, hfill, Symbol.fill, List.append_nil,
    spell_callSymbols]

theorem substituteTokens_callSymbols (hs : s.IsBare) (hr : r.IsReached) (hm : m.IsPlain)
    (hcount : m.callbacks = tokens.length) :
    Program.substituteTokens ((r.proxy s).source s ++ (m.query s).suffix) tokens =
      .ok (String.ofList (Symbol.spell (Symbol.fill (callSymbols s r m) tokens))) := by
  rw [← spell_callSymbols]
  refine Symbol.substituteTokens_spell (isBare_callSymbols hs hr hm) ?_
  rw [count_slot_callSymbols s hr, hcount]

/-! ## Reading programs -/

theorem readSymbols_enveloped {symbols : List Symbol} (hslot : IsBareText s.resultSlot)
    (hhelper : IsBareText s.envelopeHelper) (hfree : Symbol.Free symbols)
    (hnone : .slot ∉ symbols) (shape : ResultShape) :
    readSymbols .nothing (Program.enveloped s (String.ofList (Symbol.spell symbols)) shape).toList =
      some (envelopedSymbols s symbols shape) := by
  have hname : IsBareText (s.resultSlot ++ " = " ++ s.envelopeHelper) :=
    isBareText_append (isBareText_append hslot (by decide)) hhelper
  have hopening : Symbol.Free
      (Symbol.ofText (s.resultSlot ++ " = " ++ s.envelopeHelper ++ "(lambda: (")) :=
    free_ofText hname (by decide)
  have hcomma : Symbol.Free (Symbol.ofText "), ") := by decide
  have hclosing : Symbol.Free (Symbol.ofText ")") := by decide
  have hall : Symbol.Free (envelopedSymbols s symbols shape) :=
    ((hopening.append hfree).append hcomma).enclose ⟨.literal, rfl⟩ hclosing
  have hslots : .slot ∉ envelopedSymbols s symbols shape := by
    simp [envelopedSymbols, hnone, Symbol.slot_not_mem_ofText]
  rw [← spell_envelopedSymbols, String.toList_ofList]
  exact readSymbols_spell (hall .nothing) hslots

theorem readSymbols_programOf (hs : s.IsBare) (hr : r.IsReached) (hm : m.IsPlain)
    (hcount : m.callbacks = tokens.length) :
    readSymbols .nothing (programOf s r m tokens).toList = some (programSymbols s r m tokens) := by
  have hfree : Symbol.Free (Symbol.fill (callSymbols s r m) tokens) := by
    intro before
    rw [Before.along_fill]
    exact free_callSymbols hs hr hm before
  have hfilled : .slot ∉ Symbol.fill (callSymbols s r m) tokens := by
    apply Symbol.slot_not_mem_fill
    rw [count_slot_callSymbols s hr, hcount]
  rw [programOf, programSymbols, spell_envelopedSymbols]
  exact readSymbols_enveloped hs.resultSlot hs.envelopeHelper hfree hfilled m.reading.shape

/-- What a program looks like apart from its literals does not depend on any string. -/
theorem outline_programSymbols (s : Settings) (r : Receiver) (m : Method) (tokens : List String) :
    (programSymbols s r m tokens).map Symbol.outline =
      (programSymbols s r.blank m.blank []).map Symbol.outline := by
  simp only [programSymbols, envelopedSymbols, callSymbols, List.map_append, Symbol.outline_fill,
    Receiver.outline_blank, Method.outline_blank]
  rfl

theorem texts_programSymbols (s : Settings) (hr : r.IsReached) (hm : m.StringsFirst)
    (hcount : m.callbacks = tokens.length) :
    Symbol.texts (programSymbols s r m tokens) =
      r.strings ++ m.strings ++ tokens ++ [m.reading.shape.name] := by
  have hfill : Symbol.texts (Symbol.fill (m.symbols s) tokens) = m.strings ++ tokens := by
    rw [(m.literalsFirst_symbols s hm).texts_fill, m.texts_symbols]
    rw [m.count_slot, hcount]
  have hshape : Symbol.texts [.literal m.reading.shape.name.toList] = [m.reading.shape.name] := by
    simp [Symbol.texts, Symbol.text?]
  rw [programSymbols, envelopedSymbols, callSymbols,
    Symbol.fill_append (r.slot_not_mem_symbols s hr)]
  simp only [Symbol.texts_append, Symbol.texts_ofText, r.texts_symbols, hfill, hshape,
    List.nil_append, List.append_nil, List.append_assoc]

end

end RemoteHost
