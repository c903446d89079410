import RemoteHost.Catalogue.Objects
import RemoteHost.Invocation

/-!
# Panels

A quick panel lets the user choose from a list, an input panel asks for a line of text. Both are
callback operations of a window: what the user does comes back through their slots.
-/

namespace RemoteHost

variable {F : Type}

/-- A list to choose from. Its first slot fires once, with the chosen index. -/
structure QuickPanel (F : Type) where
  items : List String
  flags : Int := 0
  selectedIndex : Int := -1
  onSelect : F
  onHighlight : Option F := none

/-- A line of text to enter. Its first slot fires once, with the text. -/
structure InputPanel (F : Type) where
  caption : String
  initialText : String
  onDone : F
  onChange : Option F := none
  onCancel : Option F := none

/-- The function passed for a slot that may be missing. -/
def optionalLambda (s : Settings) (action : Option F) (parameters : List String) : String :=
  match action with
  | some _ => Program.callbackLambda s parameters
  | none => Literal.noneText

namespace QuickPanel

def slots (panel : QuickPanel F) : List (Slot F) :=
  ⟨.oneShot, .value, panel.onSelect⟩ ::
    panel.onHighlight.toList.map fun action => ⟨.repeatable, .value, action⟩

def template (s : Settings) (window : Proxy) (panel : QuickPanel F) : String :=
  window.source s ++
    (Operation.method "show_quick_panel"
      [ Literal.ofStrings panel.items,
        Program.callbackLambda s ["index"],
        Literal.ofInt panel.flags,
        Literal.ofInt panel.selectedIndex,
        optionalLambda s panel.onHighlight ["index"] ]).suffix

/-- Shows the panel; the outcome is a value. -/
def present (s : Settings) (label : String) (window : Proxy) (panel : QuickPanel F)
    (lineage : LineageId) : Job F Invoked :=
  invoke s label (panel.template s window) .value panel.slots lineage

end QuickPanel

namespace InputPanel

def slots (panel : InputPanel F) : List (Slot F) :=
  ⟨.oneShot, .value, panel.onDone⟩ ::
    (panel.onChange.toList.map fun action => ⟨.repeatable, .value, action⟩) ++
    panel.onCancel.toList.map fun action => ⟨.oneShot, .empty, action⟩

def template (s : Settings) (window : Proxy) (panel : InputPanel F) : String :=
  window.source s ++
    (Operation.method "show_input_panel"
      [ Literal.quoted panel.caption,
        Literal.quoted panel.initialText,
        Program.callbackLambda s ["text"],
        optionalLambda s panel.onChange ["text"],
        optionalLambda s panel.onCancel [] ]).suffix

/-- Shows the panel; the outcome is the panel's view. -/
def present (s : Settings) (label : String) (window : Proxy) (panel : InputPanel F)
    (lineage : LineageId) : Job F Invoked :=
  invoke s label (panel.template s window) .handle panel.slots lineage

end InputPanel

end RemoteHost
