import Mathlib.Data.List.Perm.Basic
import RemoteHost.Proofs.HostExpressions

/-!
# The handle table of the host

The host keeps the objects it has given handles of in a dictionary. The expressions of programs are
evaluated over it, from left to right. What raises an exception has no value, and what it has done
to the table before is done.
-/

namespace RemoteHost

variable {Obj : Type}

/-- The objects of the host by their keys, in the order in which they were put into the table. -/
structure HandleTable (Obj : Type) where
  entries : List (String × Obj)
  distinct : (entries.map Prod.fst).Nodup

namespace HandleTable

variable {t : HandleTable Obj} {key : String} {keys : List String}

def find? (t : HandleTable Obj) (key : String) : Option Obj :=
  (t.entries.find? (·.1 = key)).map (·.2)

def has (t : HandleTable Obj) (key : String) : Bool := (t.find? key).isSome

def size (t : HandleTable Obj) : Nat := t.entries.length

def remove (t : HandleTable Obj) (key : String) : HandleTable Obj where
  entries := t.entries.filter (·.1 ≠ key)
  distinct := t.distinct.sublist (List.filter_sublist.map _)

/-- Removes the entries of keys, one after the other. -/
def removeAll (t : HandleTable Obj) (keys : List String) : HandleTable Obj := keys.foldl remove t

theorem has_iff : t.has key = true ↔ key ∈ t.entries.map Prod.fst := by
  simp [has, find?]

theorem entries_removeAll (t : HandleTable Obj) (keys : List String) :
    (t.removeAll keys).entries = t.entries.filter (·.1 ∉ keys) := by
  induction keys generalizing t with
  | nil => simp [removeAll]
  | cons key keys ih =>
    change ((t.remove key).removeAll keys).entries = _
    rw [ih, remove, List.filter_filter]
    apply List.filter_congr
    intro entry _
    simp only [List.mem_cons, not_or, Bool.decide_and, Bool.and_comm, ne_eq]

/-- As many entries are removed as there are keys with an entry. -/
theorem size_removeAll (t : HandleTable Obj) (hkeys : keys.Nodup) :
    (t.removeAll keys).size + (keys.filter t.has).length = t.size := by
  -- The keys of the removed entries are the keys with an entry, in another order.
  have hperm : ((t.entries.map Prod.fst).filter (· ∈ keys)).Perm (keys.filter t.has) := by
    apply (List.perm_ext_iff_of_nodup (t.distinct.filter _) (hkeys.filter _)).2
    intro key
    simp only [List.mem_filter, decide_eq_true_eq, has_iff]
    exact and_comm
  have hremoved : (t.entries.filter (·.1 ∈ keys)).length = (keys.filter t.has).length := by
    rw [← hperm.length_eq, List.filter_map, List.length_map]
    rfl
  have hsplit := t.entries.length_eq_length_filter_add fun entry => decide (entry.1 ∈ keys)
  rw [← hremoved, size, size, entries_removeAll, hsplit]
  simp only [decide_not, Nat.add_comm]

/-- The removed entries are as many as the keys exactly if each key has an entry. -/
theorem size_removeAll_eq_iff (t : HandleTable Obj) (hkeys : keys.Nodup) :
    t.size - (t.removeAll keys).size = keys.length ↔ ∀ key ∈ keys, t.has key = true := by
  have hsize := t.size_removeAll hkeys
  rw [← List.length_filter_eq_length_iff]
  omega

end HandleTable

/-! ## Values -/

inductive HostValue (Obj : Type) where
  | none
  | count (n : Nat)
  | text (content : String)
  | list (items : List (HostValue Obj))
  | object (obj : Obj)
  /-- The handle table itself. -/
  | table
  /-- The method of the handle table that removes an entry. -/
  | pop
  | len
  /-- The helper that makes an envelope of what a function comes to. -/
  | envelope

/-- What the host does to its handle table while it evaluates something. -/
abbrev Evaluation (Obj α : Type) := OptionT (StateM (HandleTable Obj)) α

/-- The value that an evaluation comes to, and the table that it leaves. -/
def Evaluation.on {α : Type} (m : Evaluation Obj α) (t : HandleTable Obj) :
    Option α × HandleTable Obj :=
  StateT.run m.run t

namespace HostValue

/-- The value of an attribute, of those that programs look for. -/
def attribute? : HostValue Obj → String → Option (HostValue Obj)
  | .table, "pop" => some .pop
  | _, _ => Option.none

/-- Takes an entry out of the table. A key that has none comes to the default, if there is one. -/
def popped (key : String) (default : Option (HostValue Obj)) : Evaluation Obj (HostValue Obj) := do
  let t ← get
  set (t.remove key)
  OptionT.mk (pure (((t.find? key).map .object).or default))

def call : HostValue Obj → List (HostValue Obj) → Evaluation Obj (HostValue Obj)
  | .len, [.list items] => pure (.count items.length)
  | .len, [.text content] => pure (.count content.length)
  | .len, [.table] => do
    let t ← get
    pure (.count t.size)
  | .pop, [.text key] => popped key Option.none
  | .pop, [.text key, default] => popped key (some default)
  | _, _ => failure

end HostValue

/-! ## Evaluation -/

/-- The values of the global names of the host. -/
abbrev HostGlobals (Obj : Type) := String → Option (HostValue Obj)

namespace HostExpression

mutual

/-- Evaluates an expression where some names are bound. Functions are no values by themselves. -/
def eval (globals : HostGlobals Obj) :
    HostExpression → List (String × HostValue Obj) → Evaluation Obj (HostValue Obj)
  | .name n, bound => OptionT.mk (pure ((bound.lookup n).or (globals n)))
  | .none, _ => pure .none
  | .text content, _ => pure (.text content)
  | .list items, bound => do
    let values ← evalAll globals items bound
    pure (.list values)
  | .field owner n, bound => do
    let value ← eval globals owner bound
    OptionT.mk (pure (value.attribute? n))
  | .call function arguments, bound => do
    let callee ← eval globals function bound
    let values ← evalAll globals arguments bound
    callee.call values
  | .collect item n source, bound => do
    let value ← eval globals source bound
    match value with
    | .list elements =>
      let values ← elements.mapM fun element => eval globals item ((n, element) :: bound)
      pure (.list values)
    | _ => failure
  | .thunk _, _ => failure

def evalAll (globals : HostGlobals Obj) :
    List HostExpression → List (String × HostValue Obj) → Evaluation Obj (List (HostValue Obj))
  | [], _ => pure []
  | e :: rest, bound => do
    let value ← eval globals e bound
    let values ← evalAll globals rest bound
    pure (value :: values)

end

end HostExpression

/-- What a program leaves in a slot: the envelope for a shape of what an expression comes to, or of
the exception that it raises. -/
structure SlotContent (Obj : Type) where
  slot : String
  shape : String
  value : Option (HostValue Obj)

/-- Executes a program that sets a slot to an envelope. -/
def executeProgram (globals : HostGlobals Obj) (program : String) (t : HandleTable Obj) :
    Option (SlotContent Obj × HandleTable Obj) :=
  match readProgram program with
  | some (slot, .call (.name helper) [.thunk body, .text shape]) =>
    match globals helper with
    | some .envelope =>
      let (value, left) := (body.eval globals []).on t
      some (⟨slot, shape, value⟩, left)
    | _ => Option.none
  | _ => Option.none

/-! ## Popping keys -/

namespace Evaluation

variable {α β : Type} {m : Evaluation Obj α} {t t' : HandleTable Obj} {a : α}

theorem on_bind (h : m.on t = (some a, t')) (f : α → Evaluation Obj β) :
    (m >>= f).on t = (f a).on t' := by
  change StateT.run m.run t = _ at h
  rw [on, OptionT.run_bind, Option.elimM, StateT.run_bind, h]
  rfl

end Evaluation

namespace HostExpression

/-- A list that runs through keys and pops each of them, with a default that is nothing. -/
def popEach (table : String) (keys : List String) : HostExpression :=
  .collect (.call (.field (.name table) "pop") [.name "k", .none]) "k"
    (.list (keys.map .text))

variable {globals : HostGlobals Obj} {table : String} {bound : List (String × HostValue Obj)}

theorem on_evalAll_texts (globals : HostGlobals Obj) (keys : List String) (t : HandleTable Obj) :
    (evalAll globals (keys.map .text) bound).on t = (some (keys.map .text), t) := by
  induction keys with
  | nil => rfl
  | cons key keys ih =>
    have hfirst : ((HostExpression.text key).eval globals bound).on t = (some (.text key), t) := rfl
    rw [List.map_cons, evalAll, Evaluation.on_bind hfirst, Evaluation.on_bind ih]
    rfl

/-- Popping a key leaves the table without it and comes to some value. -/
theorem on_pop (htable : globals table = some .table) (hk : table ≠ "k") (key : String)
    (t : HandleTable Obj) : ∃ value,
      ((HostExpression.call (.field (.name table) "pop") [.name "k", .none]).eval globals
        [("k", .text key)]).on t = (some value, t.remove key) := by
  have hname : ((HostExpression.name table).eval globals [("k", .text key)]).on t =
      (some .table, t) := by
    have hother : (table == "k") = false := beq_false_of_ne hk
    rw [eval, List.lookup_cons, hother, htable]
    rfl
  have hcallee : ((HostExpression.field (.name table) "pop").eval globals
      [("k", .text key)]).on t = (some .pop, t) := by
    rw [eval, Evaluation.on_bind hname]
    rfl
  have harguments : (evalAll globals [.name "k", .none] [("k", .text key)]).on t =
      (some [.text key, .none], t) := rfl
  rw [eval, Evaluation.on_bind hcallee, Evaluation.on_bind harguments]
  refine ⟨((t.find? key).map .object).getD .none, ?_⟩
  have hvalue : ((t.find? key).map HostValue.object).or (some HostValue.none) =
      some (((t.find? key).map HostValue.object).getD HostValue.none) := by
    cases t.find? key <;> rfl
  rw [← hvalue]
  rfl

/-- The keys are removed, and the list is as long as they are many, whatever the table held. -/
theorem on_popEach (htable : globals table = some .table) (hk : table ≠ "k") (keys : List String)
    (t : HandleTable Obj) : ∃ values : List (HostValue Obj), values.length = keys.length ∧
      ((popEach table keys).eval globals []).on t = (some (.list values), t.removeAll keys) := by
  have hrun : ∃ values : List (HostValue Obj), values.length = keys.length ∧
      ((keys.map HostValue.text).mapM fun element =>
        (HostExpression.call (.field (.name table) "pop") [.name "k", .none]).eval globals
          [("k", element)]).on t = (some values, t.removeAll keys) := by
    induction keys generalizing t with
    | nil => exact ⟨[], rfl, rfl⟩
    | cons key keys ih =>
      obtain ⟨value, hfirst⟩ := on_pop htable hk key t
      obtain ⟨values, hlength, hrest⟩ := ih (t.remove key)
      refine ⟨value :: values, congrArg Nat.succ hlength, ?_⟩
      rw [List.map_cons, List.mapM_cons, Evaluation.on_bind hfirst, Evaluation.on_bind hrest]
      rfl
  obtain ⟨values, hlength, hrun⟩ := hrun
  have hsource : ((HostExpression.list (keys.map .text)).eval globals []).on t =
      (some (.list (keys.map .text)), t) := by
    rw [eval, Evaluation.on_bind (on_evalAll_texts globals keys t)]
    rfl
  refine ⟨values, hlength, ?_⟩
  rw [popEach, eval, Evaluation.on_bind hsource]
  dsimp only
  rw [Evaluation.on_bind hrun]
  rfl

/-- The number of keys is counted, not the number of entries that they had. -/
theorem on_countPopped (htable : globals table = some .table) (hlen : globals "len" = some .len)
    (hk : table ≠ "k") (keys : List String) (t : HandleTable Obj) :
    ((HostExpression.call (.name "len") [popEach table keys]).eval globals []).on t =
      (some (.count keys.length), t.removeAll keys) := by
  obtain ⟨values, hlength, hpopped⟩ := on_popEach htable hk keys t
  have hcallee : ((HostExpression.name "len").eval globals []).on t = (some .len, t) := by
    rw [eval, hlen]
    rfl
  have harguments : (evalAll globals [popEach table keys] []).on t =
      (some [.list values], t.removeAll keys) := by
    rw [evalAll, Evaluation.on_bind hpopped]
    rfl
  rw [eval, Evaluation.on_bind hcallee, Evaluation.on_bind harguments, ← hlength]
  rfl

end HostExpression

end RemoteHost
