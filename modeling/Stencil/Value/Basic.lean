import Stencil.Number.Basic
import Stencil.Table

/-!
# Values

The data that templates are rendered against: JSON values whose objects keep the order of their
keys. A value is well formed if no object in it binds a key twice.
-/

namespace Stencil

/-- A JSON value. -/
inductive Value where
  | null
  | bool (value : Bool)
  | number (value : Number)
  | string (value : String)
  | array (items : List Value)
  | object (fields : List (String × Value))
deriving Inhabited

namespace Value

/-- Whether a condition that is just this value holds: null, false, zero, the empty string and the
empty array are false, and every object is true. -/
def isTruthy : Value → Bool
  | null => false
  | bool b => b
  | number n => !n.isZero
  | string s => !s.isEmpty
  | array items => !items.isEmpty
  | object _ => true

/-- The values that count as false. -/
inductive Falsy : Value → Prop
  | null : Falsy null
  | bool : Falsy (bool false)
  | int : Falsy (number (.int 0))
  | float {d : Double} (h : d.units = 0) : Falsy (number (.float d))
  | string : Falsy (string "")
  | array : Falsy (array [])

/-- Exactly the listed values count as false. -/
theorem isTruthy_eq_false_iff {v : Value} : v.isTruthy = false ↔ v.Falsy := by
  constructor
  · intro h
    cases v with
    | null => exact .null
    | bool b =>
      obtain rfl : b = false := h
      exact .bool
    | number n =>
      have hzero : n.isZero = true := by simpa [isTruthy] using h
      cases n with
      | int n =>
        obtain rfl : n = 0 := eq_of_beq hzero
        exact .int
      | float d => exact .float (Double.isZero_iff.1 hzero)
    | string s =>
      obtain rfl : s = "" := by simpa [isTruthy] using h
      exact .string
    | array items =>
      obtain rfl : items = [] := by simpa [isTruthy] using h
      exact .array
    | object fields => contradiction
  · rintro (_ | _ | _ | hzero | _ | _)
    case float => simp [isTruthy, Number.isZero, Double.isZero_iff.2 hzero]
    all_goals rfl

/-- What a loop over the value visits: the items of an array under their positions, the fields of
an object under their keys. Other values have no entries. -/
def entries : Value → List (String × Value)
  | array items => items.zipIdx.map fun (item, position) => (toString position, item)
  | object fields => fields
  | null | bool _ | number _ | string _ => []

mutual

/-- Whether no object in the value binds a key twice. -/
def WellFormed : Value → Prop
  | null | bool _ | number _ | string _ => True
  | array items => itemsWellFormed items
  | object fields => (Table.keys fields).Nodup ∧ fieldsWellFormed fields

def itemsWellFormed : List Value → Prop
  | [] => True
  | item :: rest => item.WellFormed ∧ itemsWellFormed rest

def fieldsWellFormed : List (String × Value) → Prop
  | [] => True
  | (_, field) :: rest => field.WellFormed ∧ fieldsWellFormed rest

end

theorem wellFormed_array_iff {items : List Value} :
    (array items).WellFormed ↔ ∀ item ∈ items, item.WellFormed := by
  rw [WellFormed]
  induction items with
  | nil => simp [itemsWellFormed]
  | cons item rest ih => simp [itemsWellFormed, ih]

theorem wellFormed_object_iff {fields : Table Value} :
    (object fields).WellFormed ↔
      (Table.keys fields).Nodup ∧ ∀ binding ∈ fields, binding.2.WellFormed := by
  have hfields : fieldsWellFormed fields ↔ ∀ binding ∈ fields, binding.2.WellFormed := by
    induction fields with
    | nil => simp [fieldsWellFormed]
    | cons binding rest ih => simp [fieldsWellFormed, ih]
  rw [WellFormed, hfields]

theorem WellFormed.of_get? {fields : Table Value} (h : (object fields).WellFormed) {key : String}
    {v : Value} (hv : Table.get? fields key = some v) : v.WellFormed :=
  (wellFormed_object_iff.1 h).2 _ (Table.mem_of_get?_eq_some hv)

end Value

end Stencil
