import Stencil.Number.Numeral
import Stencil.Value.Basic

/-!
# Reading JSON

A reader of JSON texts. A key that an object repeats keeps its first place and takes its last
value. Code points beyond U+FFFF may be written as two surrogate escapes; a surrogate that stands
alone is refused.

## Main definitions

* `Value.ofJson?`: the value that a whole text denotes.
-/

namespace Stencil

namespace Value

def isJsonBlank (c : Char) : Bool :=
  c == ' ' || c == '\t' || c == '\n' || c == '\r'

def hexDigit? (c : Char) : Option Nat :=
  if isDigit c then some (c.toNat - '0'.toNat)
  else if 'a' ≤ c ∧ c ≤ 'f' then some (c.toNat - 'a'.toNat + 10)
  else if 'A' ≤ c ∧ c ≤ 'F' then some (c.toNat - 'A'.toNat + 10)
  else none

def hexUnit? (a b c d : Char) : Option Nat := do
  return ((← hexDigit? a) * 16 + (← hexDigit? b)) * 256 + ((← hexDigit? c) * 16 + (← hexDigit? d))

/-- The character that a backslash and `c` stand for. -/
def simpleEscape? (c : Char) : Option Char :=
  match c with
  | '"' => some '"'
  | '\\' => some '\\'
  | '/' => some '/'
  | 'b' => some '\x08'
  | 'f' => some '\x0c'
  | 'n' => some '\n'
  | 'r' => some '\r'
  | 't' => some '\t'
  | _ => none

/-- Whether a unit is the first of a surrogate pair. -/
def isHighSurrogate (unit : Nat) : Bool :=
  0xD800 ≤ unit && unit < 0xDC00

/-- Whether a unit is the second of a surrogate pair. -/
def isLowSurrogate (unit : Nat) : Bool :=
  0xDC00 ≤ unit && unit < 0xE000

/-- The characters of a string up to its closing quote, and what follows it. A first surrogate that
has just been read is in `pending`. -/
def readString (pending : Option Nat) : List Char → Option (List Char × List Char)
  | [] => none
  | '"' :: rest => if pending.isSome then none else some ([], rest)
  | '\\' :: 'u' :: a :: b :: c :: d :: rest => do
    let unit ← hexUnit? a b c d
    match pending with
    | some high =>
      if isLowSurrogate unit then
        let (chars, after) ← readString none rest
        return (Char.ofNat (0x10000 + (high - 0xD800) * 0x400 + (unit - 0xDC00)) :: chars, after)
      else none
    | none =>
      if isHighSurrogate unit then readString (some unit) rest
      else if isLowSurrogate unit then none
      else
        let (chars, after) ← readString none rest
        return (Char.ofNat unit :: chars, after)
  | '\\' :: c :: rest => do
    if pending.isSome then none
    let escaped ← simpleEscape? c
    let (chars, after) ← readString none rest
    return (escaped :: chars, after)
  | c :: rest => do
    if pending.isSome || c.toNat < 0x20 then none
    let (chars, after) ← readString none rest
    return (c :: chars, after)

/-- Whether `c` may occur in a numeral. -/
def isNumeralChar (c : Char) : Bool :=
  isDigit c || c == '-' || c == '+' || c == '.' || c == 'e' || c == 'E'

mutual

/-- The value at the start of a text, and what follows it. The first argument bounds the nesting. -/
def readValue : Nat → List Char → Option (Value × List Char)
  | 0, _ => none
  | bound + 1, s =>
    match s.dropWhile isJsonBlank with
    | [] => none
    | 'n' :: 'u' :: 'l' :: 'l' :: rest => some (.null, rest)
    | 't' :: 'r' :: 'u' :: 'e' :: rest => some (.bool true, rest)
    | 'f' :: 'a' :: 'l' :: 's' :: 'e' :: rest => some (.bool false, rest)
    | '"' :: rest => do
      let (chars, after) ← readString none rest
      return (.string (String.ofList chars), after)
    | '[' :: rest =>
      match rest.dropWhile isJsonBlank with
      | ']' :: after => some (.array [], after)
      | _ => do
        let (items, after) ← readItems bound rest
        return (.array items, after)
    | '\x7b' :: rest =>
      match rest.dropWhile isJsonBlank with
      | '\x7d' :: after => some (.object [], after)
      | _ => do
        let (fields, after) ← readFields bound [] rest
        return (.object fields, after)
    | s@(_ :: _) => do
      let n ← Number.ofJson? (s.takeWhile isNumeralChar)
      return (.number n, s.dropWhile isNumeralChar)

/-- The items of an array up to its closing bracket, and what follows it. -/
def readItems : Nat → List Char → Option (List Value × List Char)
  | 0, _ => none
  | bound + 1, s => do
    let (item, after) ← readValue bound s
    match after.dropWhile isJsonBlank with
    | ',' :: rest => do
      let (items, after) ← readItems bound rest
      return (item :: items, after)
    | ']' :: rest => some ([item], rest)
    | _ => none

/-- The fields of an object after the fields `done`, up to its closing brace, and what follows. -/
def readFields : Nat → Table Value → List Char → Option (Table Value × List Char)
  | 0, _, _ => none
  | bound + 1, done, s =>
    match s.dropWhile isJsonBlank with
    | '"' :: rest => do
      let (key, after) ← readString none rest
      match after.dropWhile isJsonBlank with
      | ':' :: rest => do
        let (field, after) ← readValue bound rest
        let fields := Table.insert done (String.ofList key) field
        match after.dropWhile isJsonBlank with
        | ',' :: rest => readFields bound fields rest
        | '\x7d' :: rest => some (fields, rest)
        | _ => none
      | _ => none
    | _ => none

end

/-- The value that the whole of `s` denotes. -/
def ofJson? (s : String) : Option Value := do
  let chars := s.toList
  let (v, rest) ← readValue (2 * chars.length + 1) chars
  if rest.all isJsonBlank then return v else none

end Value

end Stencil
