import PageSheet.Page
import PageSheet.Text.Quoted
namespace PageSheet

/-!
# The trace of a sheet

The trace of a sheet tells in order what was left out or replaced while its page
was built: first the variables that were defined again and the number of
variables, then the declarations that give nothing to their element and the
outermost rules that stand for nothing, and last the number of outermost
elements.
-/

/-- One record of a trace. -/
inductive Event where
  /-- A variable that had a value was given another one. -/
  | redefined (name : Text) (old : Text) (new : Text)
  /-- The number of variables of the sheet. -/
  | collected (count : Nat)
  /-- A declaration that gives nothing to its element. -/
  | dropped (property : Text)
  /-- An outermost rule that stands for nothing. -/
  | skipped (selector : Text)
  /-- The number of outermost elements. -/
  | compiled (count : Nat)
  deriving Repr, DecidableEq

namespace Event

/-- The line for a record. -/
def message : Event → Text
  | .redefined name old new =>
      "custom property ".toList ++ name ++ " redefined: ".toList ++ old
        ++ " -> ".toList ++ new
  | .collected count =>
      "collected ".toList ++ Text.decimal count ++ " custom properties".toList
  | .dropped property => "dropping style declaration ".toList ++ property
  | .skipped selector =>
      "skipping rule with selector ".toList ++ Text.quoted selector
  | .compiled count =>
      "compiled ".toList ++ Text.decimal count ++ " root elements".toList

end Event

namespace Trace

/-- The record of defining a name, if the name has a value already. -/
def ofDefinition
    (table : Variables)
    (name value : Text) :
    List Event :=
  match table.get? (Variables.reference name) with
  | none => []
  | some old => [.redefined name old value]

/-- The records of declaring variables one after the other. -/
def ofDeclarations
    (table : Variables) :
    List (Declaration Place) → List Event
  | [] => []
  | declaration :: rest =>
      let records :=
        if Property.isCustom declaration.property then
          ofDefinition table declaration.property declaration.value
        else
          []
      records ++ ofDeclarations (table.declare declaration) rest

/-- The records of collecting the variables of a sheet. -/
def ofVariables (items : List (Item Place)) : List Event :=
  ofDeclarations .empty (Item.declarationsIn items)
    ++ [.collected (Variables.ofItems items).size]

mutual

/-- The declarations that an item does not give to the element around it. -/
def dropped : Item Place → List Event
  | .declaration stated =>
      match Property.ofText stated.property with
      | .content => []
      | .attr => []
      | .custom => [.dropped stated.property]
      | .style => [.dropped stated.property]
  | .rule selector children _ =>
      match Selector.ofText selector with
      | .attr _ => droppedIn children
      | _ => []
  | .atStatement .. => []
  | .atBlock .. => []
  | .comment _ => []

/-- The declarations that a list of items does not give to the element around it. -/
def droppedIn : List (Item Place) → List Event
  | [] => []
  | item :: rest => dropped item ++ droppedIn rest

end

mutual

/-- The records of building the element of an item. -/
def ofItem : Item Place → List Event
  | .rule selector children _ =>
      match Selector.ofText selector with
      | .root => []
      | .element _ => droppedIn children ++ ofNested children
      | .attr _ => [.skipped selector]
      | .unsupported => [.skipped selector]
  | .declaration _ => []
  | .atStatement .. => []
  | .atBlock .. => []
  | .comment _ => []

/-- The records of building the children of an element. -/
def ofNested : List (Item Place) → List Event
  | [] => []
  | item :: rest =>
      if Element.isElementRule item then
        ofItem item ++ ofNested rest
      else
        ofNested rest

end

/-- The trace of a sheet. -/
def ofItems (items : List (Item Place)) : List Event :=
  ofVariables items ++ items.flatMap ofItem
    ++ [.compiled (Page.ofItems items).length]

end Trace

end PageSheet
