import PageSheet.Item.Basic
import PageSheet.KeyedList
import PageSheet.Property
namespace PageSheet

/-!
# Variables

A variable is defined by a custom property and used by a reference, which is the
property inside `var(` and `)`.  Variables have no scope: a sheet has one table
for all its custom properties at any depth, and a later definition of a name
replaces an earlier one.

The table maps references to values.  `get?_define` says what a definition does
to every look-up.
-/

/-- A table from references to values, with one entry for each reference. -/
structure Variables where
  /-- References with their values, the latest definition first. -/
  entries : List (Text × Text)
  distinct : (entries.map Prod.fst).Nodup

namespace Variables

/-- The reference to a name. -/
def reference (name : Text) : Text :=
  ['v', 'a', 'r', '('] ++ name ++ [')']

/-- Whether a text may be a reference to a custom property. -/
def isReference (text : Text) : Bool :=
  ['v', 'a', 'r', '(', '-', '-'].isPrefixOf text

/-- The table without definitions. -/
def empty : Variables where
  entries := []
  distinct := List.nodup_nil

/-- The value of a reference. -/
def get?
    (table : Variables)
    (text : Text) :
    Option Text :=
  table.entries.lookup text

/-- The number of names that are defined. -/
def size (table : Variables) : Nat :=
  table.entries.length

/-- Whether no name is defined. -/
def isEmpty (table : Variables) : Bool :=
  table.entries.isEmpty

/-- Replace the value of a name, or define it. -/
def define
    (table : Variables)
    (name value : Text) :
    Variables where
  entries :=
    KeyedList.set (reference name) value table.entries
  distinct :=
    KeyedList.nodup_set (reference name) value table.distinct

/-- Define the property of a declaration, if it is a custom property. -/
def declare
    (table : Variables)
    (declaration : Declaration Place) :
    Variables :=
  if Property.isCustom declaration.property then
    table.define declaration.property declaration.value
  else
    table

/-- The variables of a sheet. -/
def ofItems (items : List (Item Place)) : Variables :=
  (Item.declarationsIn items).foldl declare empty

/--
The value that stands for a raw value.  A reference stands for the value it is
defined with, unless that is empty; every other value stands for itself.
-/
def resolve
    (table : Variables)
    (raw : Text) :
    Text :=
  if isReference raw then
    match table.get? raw with
    | none => raw
    | some [] => raw
    | some value => value
  else
    raw

/-- References to different names differ. -/
theorem reference_injective
    {first second : Text}
    (same : reference first = reference second) :
    first = second := by
  simpa [reference] using same

/-- Nothing is defined in the empty table. -/
@[simp] theorem get?_empty
    (text : Text) :
    empty.get? text = none :=
  rfl

/-- A definition changes the value of its own reference and no other. -/
theorem get?_define
    (table : Variables)
    (name value text : Text) :
    (table.define name value).get? text =
      if text = reference name then some value else table.get? text :=
  KeyedList.lookup_set (reference name) text value table.entries

end Variables

end PageSheet
