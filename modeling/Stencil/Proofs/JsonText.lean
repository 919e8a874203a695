import Mathlib.Data.List.TakeWhile
import Stencil.Value.Printer
import Stencil.Value.Reader

/-!
# Reading printed JSON

What the printer writes, the reader reads back: strings with all their escapes, integers, arrays,
and objects with their fields in order. The values for which this holds are those that a JSON text
can hold exactly. No object of theirs binds a key twice, and their numbers are integers.

## Main definitions

* `Value.Exact`: the values that a JSON text can hold exactly.
* `Value.itemsText`, `Value.fieldsText`: what stands between the brackets of an array and the braces
  of an object.
-/

namespace Stencil

/-! ## Numerals -/

theorem isDigit_of_mem_toDigits {n : Nat} {c : Char} (h : c ∈ Nat.toDigits 10 n) :
    isDigit c = true :=
  Nat.isDigit_of_mem_toDigits (by decide) (by decide) h

theorem digitsValue_toDigits (n : Nat) : digitsValue (Nat.toDigits 10 n) = n := by
  rw [digitsValue, ← Nat.ofDigitChars_eq_foldl, Nat.ofDigitChars_ten_toDigits]

namespace Numeral

variable {s : List Char}

theorem readDigits_of_digits (h : ∀ c ∈ s, isDigit c = true) : readDigits s = (s, []) := by
  rw [readDigits, List.takeWhile_eq_self_iff.2 h, List.dropWhile_eq_nil_iff.2 h]

theorem readSign_of_digits (h : ∀ c ∈ s, isDigit c = true) : readSign s = (false, s) := by
  unfold readSign
  split
  · exact absurd (h '-' (by simp)) (by decide)
  · exact absurd (h '+' (by simp)) (by decide)
  · rfl

/-- Digits after an optional minus are a numeral without fraction and exponent. -/
theorem read?_digits (negative : Bool) (n : Nat) :
    read? ((if negative then ['-'] else []) ++ Nat.toDigits 10 n) =
      some ⟨negative, Nat.toDigits 10 n, [], 0, false⟩ := by
  have hdigits : ∀ c ∈ Nat.toDigits 10 n, isDigit c = true := fun _ => isDigit_of_mem_toDigits
  have hsign : readSign ((if negative then ['-'] else []) ++ Nat.toDigits 10 n) =
      (negative, Nat.toDigits 10 n) := by
    cases negative with
    | true => rfl
    | false => exact readSign_of_digits hdigits
  simp [read?, hsign, readDigits_of_digits hdigits, readExponent?]

end Numeral

namespace Number

theorem toList_text_int (n : Int) :
    (int n).text.toList =
      (if decide (n < 0) then ['-'] else []) ++ Nat.toDigits 10 n.natAbs := by
  cases n <;> simp [text, toString, Int.repr]

theorem text_int_ne_nil (n : Int) : (int n).text.toList ≠ [] := by
  rw [toList_text_int]
  exact List.append_ne_nil_of_right_ne_nil _ Nat.toDigits_ne_nil

theorem isNumeralChar_of_mem_text_int {n : Int} {c : Char} (h : c ∈ (int n).text.toList) :
    Value.isNumeralChar c = true := by
  rw [toList_text_int, List.mem_append] at h
  rcases h with hsign | hdigit
  · obtain rfl : c = '-' := by grind
    rfl
  · simp [Value.isNumeralChar, isDigit_of_mem_toDigits hdigit]

/-- An integer of JSON data is read back from its text. -/
theorem ofJson?_text_int {n : Int} (h : minInt ≤ n ∧ n ≤ maxInt) :
    ofJson? (int n).text.toList = some (int n) := by
  have hvalue : (⟨decide (n < 0), Nat.toDigits 10 n.natAbs, [], 0, false⟩ : Numeral).toInt = n := by
    simp only [Numeral.toInt, digitsValue_toDigits]
    split <;> grind
  have hzero : (decide (n < 0) && n == 0) = false := by grind
  rw [ofJson?, toList_text_int, Numeral.read?_digits]
  simp only [Option.bind_eq_bind, Option.bind_some, hvalue, hzero, h]
  simp

end Number

namespace Value

/-! ## Strings -/

/-- One character in front of what is read as a string. -/
def consChar (c : Char) (read : List Char × List Char) : List Char × List Char :=
  (c :: read.1, read.2)

theorem readString_plain {c : Char} (rest : List Char) (hquote : c ≠ '"') (hescape : c ≠ '\\')
    (hcontrol : ¬ c.toNat < 32) :
    readString none (c :: rest) = (readString none rest).map (consChar c) := by
  simp [readString, hescape, hcontrol, consChar, Option.map_eq_bind, Function.comp_def]

theorem readString_simpleEscape {c escaped : Char} (rest : List Char)
    (h : simpleEscape? c = some escaped) :
    readString none ('\\' :: c :: rest) = (readString none rest).map (consChar escaped) := by
  have hc : c ≠ 'u' := by
    rintro rfl
    simp [simpleEscape?] at h
  simp [readString, hc, h, consChar, Option.map_eq_bind, Function.comp_def]

theorem hexUnit?_of_control {n : Nat} (h : n < 32) :
    hexUnit? '0' '0' (Nat.digitChar (n / 16)) (Nat.digitChar (n % 16)) = some n := by
  decide +revert

theorem readString_control {n : Nat} (rest : List Char) (h : n < 32) :
    readString none ("\\u00".toList ++ [Nat.digitChar (n / 16), Nat.digitChar (n % 16)] ++ rest) =
      (readString none rest).map (consChar (Char.ofNat n)) := by
  have hsurrogate : isHighSurrogate n = false ∧ isLowSurrogate n = false := by
    simp [isHighSurrogate, isLowSurrogate]
    omega
  simp [readString, hexUnit?_of_control h, hsurrogate, consChar, Option.map_eq_bind,
    Function.comp_def]

/-- Every character is read back from what is printed for it. -/
theorem readString_jsonChar (c : Char) (rest : List Char) :
    readString none (jsonChar c ++ rest) = (readString none rest).map (consChar c) := by
  unfold jsonChar
  split
  case h_8 hquote hescape _ _ _ _ _ =>
    split
    · rw [readString_control rest ‹_›, Char.ofNat_toNat]
    · exact readString_plain rest hquote hescape ‹_›
  all_goals exact readString_simpleEscape rest rfl

theorem readString_flatMap_jsonChar (s rest : List Char) :
    readString none (s.flatMap jsonChar ++ '"' :: rest) = some (s, rest) := by
  induction s with
  | nil => simp [readString]
  | cons c s ih =>
    rw [List.flatMap_cons, List.append_assoc, readString_jsonChar, ih, Option.map_some, consChar]

/-! ## Printed values -/

/-- The values that a JSON text can hold exactly: no object binds a key twice, and all numbers are
integers of JSON data. -/
inductive Exact : Value → Prop
  | null : Exact null
  | bool (b : Bool) : Exact (bool b)
  | int {n : Int} (h : Number.minInt ≤ n ∧ n ≤ Number.maxInt) : Exact (number (.int n))
  | string (s : String) : Exact (string s)
  | array {items : List Value} (h : ∀ item ∈ items, Exact item) : Exact (array items)
  | object {fields : Table Value} (hkeys : (Table.keys fields).Nodup)
    (h : ∀ binding ∈ fields, Exact binding.2) : Exact (object fields)

attribute [simp] Exact.null Exact.bool Exact.string

@[simp] theorem exact_array_iff {items : List Value} :
    (array items).Exact ↔ ∀ item ∈ items, item.Exact :=
  ⟨fun | .array h => h, .array⟩

@[simp] theorem exact_object_iff {fields : Table Value} :
    (object fields).Exact ↔ (Table.keys fields).Nodup ∧ ∀ binding ∈ fields, binding.2.Exact :=
  ⟨fun | .object hkeys h => ⟨hkeys, h⟩, fun h => .object h.1 h.2⟩

/-- The items of an array as they are printed, without the brackets. -/
def itemsText (items : List Value) : List Char :=
  [','].intercalate ((itemsJson items).map String.toList)

/-- The fields of an object as they are printed, without the braces. -/
def fieldsText (fields : Table Value) : List Char :=
  [','].intercalate ((fieldsJson fields).map String.toList)

theorem toList_jsonString (s : String) :
    (jsonString s).toList = '"' :: (s.toList.flatMap jsonChar ++ ['"']) := by
  simp [jsonString]

theorem toList_json_array (items : List Value) :
    (array items).json.toList = '[' :: (itemsText items ++ [']']) := by
  simp [json, itemsText, String.toList_intercalate]

theorem toList_json_object (fields : Table Value) :
    (object fields).json.toList = '\x7b' :: (fieldsText fields ++ ['\x7d']) := by
  simp [json, fieldsText, String.toList_intercalate]

theorem itemsText_singleton (item : Value) : itemsText [item] = item.json.toList := by
  simp [itemsText, itemsJson]

theorem itemsText_cons_cons (item next : Value) (rest : List Value) :
    itemsText (item :: next :: rest) = item.json.toList ++ ',' :: itemsText (next :: rest) := by
  simp [itemsText, itemsJson]

theorem fieldsText_singleton (key : String) (field : Value) :
    fieldsText [(key, field)] = (jsonString key).toList ++ ':' :: field.json.toList := by
  simp [fieldsText, fieldsJson]

theorem fieldsText_cons_cons (key : String) (field : Value) (next : String × Value)
    (rest : Table Value) :
    fieldsText ((key, field) :: next :: rest) =
      (jsonString key).toList ++
        ':' :: (field.json.toList ++ ',' :: fieldsText (next :: rest)) := by
  simp [fieldsText, fieldsJson]

theorem isJsonBlank_of_isNumeralChar {c : Char} (h : isNumeralChar c = true) :
    isJsonBlank c = false := by
  rw [Bool.eq_false_iff]
  intro hblank
  simp only [isJsonBlank, Bool.or_eq_true, beq_iff_eq] at hblank
  rcases hblank with ((rfl | rfl) | rfl) | rfl <;> exact absurd h (by decide)

/-- A value starts with a character that is neither blank nor a closing bracket. -/
theorem Exact.json_eq_cons {v : Value} (h : v.Exact) :
    ∃ c chars, v.json.toList = c :: chars ∧ isJsonBlank c = false ∧ c ≠ ']' := by
  cases h with
  | null => exact ⟨'n', _, rfl, rfl, by decide⟩
  | bool b => cases b <;> exact ⟨_, _, rfl, rfl, by decide⟩
  | @int n _ =>
    obtain ⟨c, chars, heq⟩ := List.exists_cons_of_ne_nil (Number.text_int_ne_nil n)
    have hc : isNumeralChar c = true :=
      Number.isNumeralChar_of_mem_text_int (n := n) (by simp [heq])
    refine ⟨c, chars, heq, isJsonBlank_of_isNumeralChar hc, ?_⟩
    rintro rfl
    exact absurd hc (by decide)
  | string s => exact ⟨'"', _, toList_jsonString s, rfl, by decide⟩
  | @array items _ => exact ⟨'[', _, toList_json_array items, rfl, by decide⟩
  | @object fields _ _ => exact ⟨'\x7b', _, toList_json_object fields, rfl, by decide⟩

theorem itemsText_eq_cons {item : Value} (items : List Value) (h : item.Exact) :
    ∃ c chars, itemsText (item :: items) = c :: chars ∧ isJsonBlank c = false ∧ c ≠ ']' := by
  obtain ⟨c, chars, hcons, hc⟩ := h.json_eq_cons
  cases items with
  | nil => exact ⟨c, chars, by rw [itemsText_singleton, hcons], hc⟩
  | cons next rest => exact ⟨c, _, by rw [itemsText_cons_cons, hcons, List.cons_append], hc⟩

theorem fieldsText_eq_cons (binding : String × Value) (fields : Table Value) :
    ∃ chars, fieldsText (binding :: fields) = '"' :: chars := by
  obtain ⟨key, field⟩ := binding
  cases fields with
  | nil => exact ⟨_, by rw [fieldsText_singleton, toList_jsonString, List.cons_append]⟩
  | cons next rest => exact ⟨_, by rw [fieldsText_cons_cons, toList_jsonString, List.cons_append]⟩

/-! ## One step of the reader -/

/-- What follows a value in a text does not go on with a numeral. -/
def EndsNumeral (rest : List Char) : Prop :=
  ∀ c ∈ rest.head?, isNumeralChar c = false

theorem endsNumeral_nil : EndsNumeral [] := by
  simp [EndsNumeral]

theorem endsNumeral_cons {c : Char} (h : isNumeralChar c = false) (rest : List Char) :
    EndsNumeral (c :: rest) := by
  simpa [EndsNumeral] using h

section

variable {bound : Nat} {s rest after : List Char}

theorem readValue_numeral (bound : Nat) (hs : s ≠ []) (hnumeral : ∀ c ∈ s, isNumeralChar c = true)
    (hrest : EndsNumeral rest) :
    readValue (bound + 1) (s ++ rest) = (Number.ofJson? s).map fun n => (number n, rest) := by
  have htake : (s ++ rest).takeWhile isNumeralChar = s := by
    rw [List.takeWhile_append_of_pos hnumeral]
    cases rest <;> simp_all [EndsNumeral]
  have hdrop : (s ++ rest).dropWhile isNumeralChar = rest := by
    rw [List.dropWhile_append_of_pos hnumeral]
    cases rest <;> simp_all [EndsNumeral]
  obtain ⟨c, chars, rfl⟩ := List.exists_cons_of_ne_nil hs
  have hc := hnumeral c (by simp)
  have hblank : (c :: chars ++ rest).dropWhile isJsonBlank = c :: chars ++ rest := by
    simp [isJsonBlank_of_isNumeralChar hc]
  rw [readValue, hblank]
  -- No other kind of value starts with a character of a numeral.
  split
  case h_1 heq => exact absurd heq (by simp)
  case h_8 heq =>
    rw [← heq, htake, hdrop]
    cases Number.ofJson? (c :: chars) <;> rfl
  all_goals
    rename_i heq
    injection heq with heq _
    subst heq
    exact absurd hc (by decide)

theorem readValue_string (bound : Nat) (s : String) (rest : List Char) :
    readValue (bound + 1) ((jsonString s).toList ++ rest) = some (string s, rest) := by
  simp [readValue, isJsonBlank, toList_jsonString, readString_flatMap_jsonChar]

theorem readValue_array {item : Value} {items : List Value} (hitem : item.Exact)
    (h : readItems bound (itemsText (item :: items) ++ ']' :: rest) = some (item :: items, rest)) :
    readValue (bound + 1) ((array (item :: items)).json.toList ++ rest) =
      some (array (item :: items), rest) := by
  obtain ⟨c, chars, hcons, hblank, hbracket⟩ := itemsText_eq_cons items hitem
  have hopening : isJsonBlank '[' = false := rfl
  rw [hcons, List.cons_append] at h
  rw [toList_json_array, hcons]
  simp [readValue, hopening, hblank, hbracket, h]

theorem readValue_object {binding : String × Value} {fields : Table Value}
    (h : readFields bound [] (fieldsText (binding :: fields) ++ '\x7d' :: rest) =
      some (binding :: fields, rest)) :
    readValue (bound + 1) ((object (binding :: fields)).json.toList ++ rest) =
      some (object (binding :: fields), rest) := by
  obtain ⟨chars, hcons⟩ := fieldsText_eq_cons binding fields
  rw [hcons, List.cons_append] at h
  rw [toList_json_object, hcons]
  simp [readValue, isJsonBlank, h]

theorem readItems_last {item : Value} (h : readValue bound s = some (item, ']' :: rest)) :
    readItems (bound + 1) s = some ([item], rest) := by
  simp [readItems, isJsonBlank, h]

theorem readItems_next {item : Value} {items : List Value}
    (h : readValue bound s = some (item, ',' :: after))
    (hitems : readItems bound after = some (items, rest)) :
    readItems (bound + 1) s = some (item :: items, rest) := by
  simp [readItems, isJsonBlank, h, hitems]

theorem readFields_last {key : String} {field : Value} (done : Table Value)
    (h : readValue bound s = some (field, '\x7d' :: rest)) :
    readFields (bound + 1) done ((jsonString key).toList ++ ':' :: s) =
      some (Table.insert done key field, rest) := by
  simp [readFields, isJsonBlank, toList_jsonString, readString_flatMap_jsonChar, h]

theorem readFields_next {key : String} {field : Value} (done : Table Value)
    (h : readValue bound s = some (field, ',' :: after)) :
    readFields (bound + 1) done ((jsonString key).toList ++ ':' :: s) =
      readFields bound (Table.insert done key field) after := by
  simp [readFields, isJsonBlank, toList_jsonString, readString_flatMap_jsonChar, h]

end

/-! ## The reader and the printer -/

/-- A key that is not bound yet is bound at the end. -/
theorem insert_of_notMem {table : Table Value} {key : String} (field : Value)
    (h : key ∉ Table.keys table) : Table.insert table key field = table ++ [(key, field)] := by
  fun_induction Table.insert table key field <;> grind [Table.keys]

-- The three readers call each other with smaller and smaller bounds, and so do these proofs. The
-- length of the text is bound enough, since every item and every field has characters of its own.
mutual

/-- A value is read back from its text, whatever follows it but a numeral. -/
theorem Exact.readValue_json {v : Value} (h : v.Exact) {bound : Nat}
    (hbound : v.json.toList.length ≤ bound) {rest : List Char} (hrest : EndsNumeral rest) :
    readValue bound (v.json.toList ++ rest) = some (v, rest) := by
  match bound with
  | 0 =>
    obtain ⟨c, chars, hcons, -⟩ := h.json_eq_cons
    simp [hcons] at hbound
  | bound + 1 =>
  cases h with
  | null => rfl
  | bool b => cases b <;> rfl
  | @int n hn =>
    rw [json, readValue_numeral bound (Number.text_int_ne_nil n)
      (fun _ => Number.isNumeralChar_of_mem_text_int) hrest, Number.ofJson?_text_int hn,
      Option.map_some]
  | string s => exact readValue_string bound s rest
  | @array items hitems =>
    rw [toList_json_array, List.length_cons, List.length_append, List.length_singleton] at hbound
    cases items with
    | nil => rfl
    | cons item items =>
      exact readValue_array (hitems item List.mem_cons_self)
        (readItems_itemsText hitems (by omega) rest)
  | @object fields hkeys hfields =>
    rw [toList_json_object, List.length_cons, List.length_append, List.length_singleton] at hbound
    cases fields with
    | nil => rfl
    | cons binding fields =>
      exact readValue_object (readFields_fieldsText [] hfields hkeys (by omega) rest)

theorem readItems_itemsText {item : Value} {items : List Value}
    (h : ∀ v ∈ item :: items, v.Exact) {bound : Nat}
    (hbound : (itemsText (item :: items)).length < bound) (rest : List Char) :
    readItems bound (itemsText (item :: items) ++ ']' :: rest) = some (item :: items, rest) := by
  match bound with
  | 0 => simp at hbound
  | bound + 1 =>
  obtain ⟨hitem, hitems⟩ := List.forall_mem_cons.1 h
  cases items with
  | nil =>
    rw [itemsText_singleton] at hbound ⊢
    exact readItems_last (hitem.readValue_json (by omega) (endsNumeral_cons rfl rest))
  | cons next items =>
    rw [itemsText_cons_cons, List.length_append, List.length_cons] at hbound
    rw [itemsText_cons_cons, List.append_assoc, List.cons_append]
    exact readItems_next (hitem.readValue_json (by omega) (endsNumeral_cons rfl _))
      (readItems_itemsText hitems (by omega) rest)

/-- Fields are read back after the fields `done`, if no key is repeated. -/
theorem readFields_fieldsText (done : Table Value) {binding : String × Value} {fields : Table Value}
    (h : ∀ b ∈ binding :: fields, b.2.Exact)
    (hkeys : (Table.keys (done ++ binding :: fields)).Nodup) {bound : Nat}
    (hbound : (fieldsText (binding :: fields)).length < bound) (rest : List Char) :
    readFields bound done (fieldsText (binding :: fields) ++ '\x7d' :: rest) =
      some (done ++ binding :: fields, rest) := by
  match bound with
  | 0 => simp at hbound
  | bound + 1 =>
  obtain ⟨key, field⟩ := binding
  have hfield : field.Exact := h (key, field) List.mem_cons_self
  have hfields := (List.forall_mem_cons.1 h).2
  have hinsert : Table.insert done key field = done ++ [(key, field)] :=
    insert_of_notMem field (by grind [Table.keys])
  cases fields with
  | nil =>
    rw [fieldsText_singleton, List.length_append, List.length_cons] at hbound
    rw [fieldsText_singleton, List.append_assoc, List.cons_append, ← hinsert]
    exact readFields_last done (hfield.readValue_json (by omega) (endsNumeral_cons rfl rest))
  | cons next fields =>
    rw [fieldsText_cons_cons, List.length_append, List.length_cons, List.length_append,
      List.length_cons] at hbound
    have hread : readValue bound
        (field.json.toList ++ ',' :: (fieldsText (next :: fields) ++ '\x7d' :: rest)) =
          some (field, ',' :: (fieldsText (next :: fields) ++ '\x7d' :: rest)) :=
      hfield.readValue_json (by omega) (endsNumeral_cons rfl _)
    rw [fieldsText_cons_cons, List.append_assoc, List.cons_append, List.append_assoc,
      List.cons_append, readFields_next done hread, hinsert]
    rw [List.append_cons done (key, field) (next :: fields)] at hkeys ⊢
    exact readFields_fieldsText (done ++ [(key, field)]) hfields hkeys (by omega) rest

end

/-- A value is what its JSON text denotes. -/
theorem Exact.ofJson?_json {v : Value} (h : v.Exact) : ofJson? v.json = some v := by
  have hbound : v.json.toList.length ≤ 2 * v.json.toList.length + 1 := by omega
  have hread := h.readValue_json hbound endsNumeral_nil
  rw [List.append_nil] at hread
  simp [ofJson?, hread]

end Value

end Stencil
