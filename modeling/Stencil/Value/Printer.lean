import Stencil.Value.Basic

/-!
# The text of a value

Values are printed as compact JSON, without white space and with the fields of objects in order.
Inside strings only the quote, the backslash and the control characters below U+0020 are escaped.

## Main definitions

* `Value.json`: the JSON text of a value.
* `Value.text`: the text that an interpolation of the value renders.
-/

namespace Stencil

def jsonChar (c : Char) : List Char :=
  match c with
  | '"' => ['\\', '"']
  | '\\' => ['\\', '\\']
  | '\n' => ['\\', 'n']
  | '\r' => ['\\', 'r']
  | '\t' => ['\\', 't']
  | '\x08' => ['\\', 'b']
  | '\x0c' => ['\\', 'f']
  | _ =>
    if c.toNat < 0x20 then
      "\\u00".toList ++ [Nat.digitChar (c.toNat / 16), Nat.digitChar (c.toNat % 16)]
    else [c]

/-- The JSON text of a string, with its quotes. -/
def jsonString (s : String) : String :=
  "\"" ++ String.ofList (s.toList.flatMap jsonChar) ++ "\""

namespace Value

mutual

/-- The compact JSON text of a value. -/
def json : Value → String
  | null => "null"
  | bool b => if b then "true" else "false"
  | number n => n.text
  | string s => jsonString s
  | array items => "[" ++ ",".intercalate (itemsJson items) ++ "]"
  | object fields => "\x7b" ++ ",".intercalate (fieldsJson fields) ++ "\x7d"

def itemsJson : List Value → List String
  | [] => []
  | item :: rest => item.json :: itemsJson rest

def fieldsJson : List (String × Value) → List String
  | [] => []
  | (key, field) :: rest => (jsonString key ++ ":" ++ field.json) :: fieldsJson rest

end

/-- What an interpolation of the value renders: nothing for null, a string without quotes, and JSON
for the rest. -/
def text : Value → String
  | null => ""
  | string s => s
  | v => v.json

end Value

end Stencil
