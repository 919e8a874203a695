import Stencil.Value.Basic

/-!
# Records as values

How the parts of a record are written as JSON data and read back. Whole numbers have 64 bits, an
optional string may be missing or null, and a case of a choice is an object whose only key names
the case.

## Main definitions

* `Wire.ofNat`, `Wire.nat?`, and so on: writing and reading of the parts.
* `Wire.field?`: a required field of a record.
* `Wire.choice`, `Wire.choice?`: a case of a choice.
-/

namespace Stencil.Wire

/-- A whole number as a value. -/
def ofNat (n : Nat) : Value :=
  .number (.int n)

/-- The whole number of at most 64 bits that a value denotes. -/
def nat? : Value → Option Nat
  | .number (.int n) => if 0 ≤ n ∧ n < Nat.pow 2 64 then some n.toNat else none
  | _ => none

def string? : Value → Option String
  | .string s => some s
  | _ => none

def bool? : Value → Option Bool
  | .bool b => some b
  | _ => none

def items? : Value → Option (List Value)
  | .array items => some items
  | _ => none

def fields? : Value → Option (Table Value)
  | .object fields => some fields
  | _ => none

def ofOptional : Option String → Value
  | none => .null
  | some s => .string s

def optional? : Value → Option (Option String)
  | .null => some none
  | .string s => some (some s)
  | _ => none

/-- A field that must be there. -/
def field? {α : Type} (fields : Table Value) (name : String) (read : Value → Option α) : Option α :=
  (Table.get? fields name).bind read

/-- A field that has a default. -/
def fieldD? {α : Type} (fields : Table Value) (name : String) (read : Value → Option α)
    (default : α) : Option α :=
  match Table.get? fields name with
  | none => some default
  | some v => read v

/-- The items of a list, each read on its own. -/
def list? {α : Type} (read : Value → Option α) (v : Value) : Option (List α) :=
  (items? v).bind fun items => items.mapM read

/-- A case of a choice. -/
def choice (name : String) (content : Value) : Value :=
  .object [(name, content)]

/-- The name and the content of a case of a choice. -/
def choice? : Value → Option (String × Value)
  | .object [(name, content)] => some (name, content)
  | _ => none

end Stencil.Wire
