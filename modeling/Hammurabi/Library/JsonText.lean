/-
This file gives JSON documents their compact text: no insignificant whitespace,
escapes only where a character must be escaped, integers in plain decimal. A text
printed from a document whose numbers are integers has no control character, at
any depth: strings escape theirs and nothing else writes one.
-/

import Mathlib.Algebra.Ring.Nat
import Hammurabi.Library.Hex
import Hammurabi.Library.Json

namespace Json

/-! ### Printing -/

/-- Four hexadecimal digits. -/
def hex4 (value : Nat) : List Char :=
  [Hex.digit (value / 4096), Hex.digit (value / 256), Hex.digit (value / 16), Hex.digit value]

/-- The text of a character inside a string: the two-letter escapes, `\u00xx` for the other
control characters, and every other character as itself. -/
def escapeChar (c : Char) : List Char :=
  if c = '"' then ['\\', '"']
  else if c = '\\' then ['\\', '\\']
  else if c = '\x08' then ['\\', 'b']
  else if c = '\x0c' then ['\\', 'f']
  else if c = '\n' then ['\\', 'n']
  else if c = '\x0d' then ['\\', 'r']
  else if c = '\t' then ['\\', 't']
  else if c.toNat < 0x20 then '\\' :: 'u' :: hex4 c.toNat
  else [c]

/-- The text of a string. -/
def stringText (value : String) : List Char :=
  '"' :: value.toList.flatMap escapeChar ++ ['"']

/-- The text of a number. -/
def numberText : Number → List Char
  | .posInt value => Nat.toDigits 10 value.toNat
  | .negInt value _ => '-' :: Nat.toDigits 10 value.toInt.natAbs
  | .float text => text.toList

/-- Texts with a comma between each two. -/
def commaSeparated : List (List Char) → List Char
  | [] => []
  | text :: rest => text ++ rest.flatMap (',' :: ·)

namespace Value

mutual

/-- The compact text of a document. -/
def text : Value → List Char
  | .null => ['n', 'u', 'l', 'l']
  | .bool true => ['t', 'r', 'u', 'e']
  | .bool false => ['f', 'a', 'l', 's', 'e']
  | .number value => numberText value
  | .string value => stringText value
  | .array items => '[' :: commaSeparated (itemTexts items) ++ [']']
  | .object members => '{' :: commaSeparated (memberTexts members) ++ ['}']

def itemTexts : List Value → List (List Char)
  | [] => []
  | item :: rest => item.text :: itemTexts rest

def memberTexts : List (String × Value) → List (List Char)
  | [] => []
  | (key, value) :: rest => (stringText key ++ ':' :: value.text) :: memberTexts rest

end

/-- The text of one member of an object. -/
def memberText (member : String × Value) : List Char :=
  stringText member.1 ++ ':' :: member.2.text

theorem itemTexts_eq (items : List Value) : itemTexts items = items.map text := by
  induction items with
  | nil => rfl
  | cons item rest inductionHypothesis => rw [itemTexts, inductionHypothesis, List.map_cons]

theorem memberTexts_eq (members : List (String × Value)) :
    memberTexts members = members.map memberText := by
  induction members with
  | nil => rfl
  | cons member rest inductionHypothesis =>
    rw [memberTexts, inductionHypothesis, List.map_cons, memberText]

@[simp] theorem text_array (items : List Value) :
    (Value.array items).text = '[' :: commaSeparated (items.map text) ++ [']'] := by
  rw [text, itemTexts_eq]

@[simp] theorem text_object (members : List (String × Value)) :
    (Value.object members).text = '{' :: commaSeparated (members.map memberText) ++ ['}'] := by
  rw [text, memberTexts_eq]

end Value

/-! ### Texts have no control characters -/

theorem isDigit_toDigits (value : Nat) : ∀ c ∈ Nat.toDigits 10 value, c.isDigit = true :=
  fun _ member => Nat.isDigit_of_mem_toDigits (by decide) (by decide) member

theorem printable_of_all (text : List Char) (all : (text.all fun c => 0x20 ≤ c.toNat) = true) :
    ∀ c ∈ text, 0x20 ≤ c.toNat :=
  fun c member => of_decide_eq_true (List.all_eq_true.mp all c member)

theorem isDigit_printable {c : Char} (digit : c.isDigit = true) : 0x20 ≤ c.toNat := by
  rw [Char.isDigit, Bool.and_eq_true, decide_eq_true_eq, decide_eq_true_eq] at digit
  exact Nat.le_trans (by decide) (UInt32.le_iff_toNat_le.mp digit.1)

theorem escapeChar_printable (c : Char) : ∀ d ∈ escapeChar c, 0x20 ≤ d.toNat := by
  unfold escapeChar
  split_ifs with quote backslash backspace formFeed newline carriageReturn tab control
  iterate 7 exact printable_of_all _ rfl
  · intro d member
    simp only [hex4, List.mem_cons, List.not_mem_nil, or_false] at member
    rcases member with rfl | rfl | rfl | rfl | rfl | rfl
    · decide
    · decide
    all_goals exact (Hex.digit_bounds _).1
  · intro d member
    rw [List.mem_singleton] at member
    subst member
    exact Nat.le_of_not_lt control

theorem stringText_printable (value : String) : ∀ c ∈ stringText value, 0x20 ≤ c.toNat := by
  intro c member
  simp only [stringText, List.cons_append, List.mem_cons, List.mem_append, List.mem_flatMap,
    List.not_mem_nil, or_false] at member
  rcases member with rfl | ⟨d, -, inside⟩ | rfl
  · decide
  · exact escapeChar_printable d c inside
  · decide

theorem numberText_printable (value : Number) (integer : (Value.number value).IntegerOnly) :
    ∀ c ∈ numberText value, 0x20 ≤ c.toNat := by
  cases value with
  | posInt value => exact fun c member => isDigit_printable (isDigit_toDigits _ c member)
  | negInt value negative =>
    exact List.forall_mem_cons.mpr
      ⟨by decide, fun c member => isDigit_printable (isDigit_toDigits _ c member)⟩
  | float text => exact absurd integer (Value.not_integerOnly_float text)

theorem commaSeparated_printable (texts : List (List Char))
    (each : ∀ text ∈ texts, ∀ c ∈ text, 0x20 ≤ c.toNat) :
    ∀ c ∈ commaSeparated texts, 0x20 ≤ c.toNat := by
  intro c member
  cases texts with
  | nil => cases member
  | cons text texts =>
    simp only [commaSeparated, List.mem_append, List.mem_flatMap, List.mem_cons] at member
    rcases member with head | ⟨text, inTexts, rfl | inText⟩
    · exact each _ List.mem_cons_self c head
    · decide
    · exact each text (List.mem_cons_of_mem _ inTexts) c inText

/-- The text of a document has no control character. -/
theorem text_printable (value : Value) (integer : value.IntegerOnly) :
    ∀ c ∈ value.text, 0x20 ≤ c.toNat := by
  induction value with
  | null => exact printable_of_all _ rfl
  | bool value => cases value <;> exact printable_of_all _ rfl
  | number value => exact numberText_printable value integer
  | string value => exact stringText_printable value
  | array items each =>
    rw [Value.integerOnly_array] at integer
    rw [Value.text_array]
    refine List.forall_mem_cons.mpr
      ⟨by decide, List.forall_mem_append.mpr ⟨?_, printable_of_all _ rfl⟩⟩
    refine commaSeparated_printable _ (List.forall_mem_map.mpr fun item member => ?_)
    exact each item member (integer item member)
  | object members each =>
    rw [Value.integerOnly_object] at integer
    rw [Value.text_object]
    refine List.forall_mem_cons.mpr
      ⟨by decide, List.forall_mem_append.mpr ⟨?_, printable_of_all _ rfl⟩⟩
    refine commaSeparated_printable _ (List.forall_mem_map.mpr fun member inside => ?_)
    refine List.forall_mem_append.mpr ⟨stringText_printable member.1, ?_⟩
    exact List.forall_mem_cons.mpr ⟨by decide, each member inside (integer member inside)⟩

/-! ### How many bytes a text has -/

open Unicode

/-- The bytes of the text of a document. -/
def Value.byteLength (value : Value) : Nat := (utf8 value.text).length

/-- The bytes of the text of a key. -/
def keyLength (key : String) : Nat := (utf8 (stringText key)).length

theorem length_commaSeparated (texts : List (List Char)) :
    (utf8 (commaSeparated texts)).length =
      (texts.map fun text => (utf8 text).length).sum + (texts.length - 1) := by
  cases texts with
  | nil => rfl
  | cons text rest =>
    have separated : (utf8 (rest.flatMap (',' :: ·))).length =
        (rest.map fun text => (utf8 text).length).sum + rest.length := by
      induction rest with
      | nil => rfl
      | cons next rest inductionHypothesis =>
        rw [List.flatMap_cons, utf8_append, utf8_cons, List.length_append, List.length_append,
          inductionHypothesis, List.map_cons, List.sum_cons, List.length_cons]
        change 1 + _ + _ = _
        omega
    rw [commaSeparated, utf8_append, List.length_append, separated, List.map_cons, List.sum_cons,
      List.length_cons]
    omega

/-- An array is its items, and the marks between and around them. -/
theorem byteLength_array (items : List Value) :
    (Value.array items).byteLength =
      (items.map Value.byteLength).sum + (items.length - 1) + 2 := by
  rw [Value.byteLength, Value.text_array, utf8_append, utf8_cons, List.length_append,
    List.length_append, length_commaSeparated, List.map_map, List.length_map]
  change 1 + ((items.map Value.byteLength).sum + _) + 1 = _
  omega

theorem length_memberText (member : String × Value) :
    (utf8 (Value.memberText member)).length = keyLength member.1 + member.2.byteLength + 1 := by
  rw [Value.memberText, utf8_append, utf8_cons, List.length_append, List.length_append]
  change _ + (1 + _) = _
  rw [keyLength, Value.byteLength]
  omega

theorem sum_memberText (members : List (String × Value)) :
    ((members.map Value.memberText).map fun text => (utf8 text).length).sum =
      (members.map fun member => keyLength member.1).sum +
        (members.map fun member => member.2.byteLength).sum + members.length := by
  induction members with
  | nil => rfl
  | cons member members inductionHypothesis =>
    simp only [List.map_cons, List.sum_cons, List.length_cons, inductionHypothesis,
      length_memberText]
    omega

/-- An object is its keys, its values, and the marks between and around them. -/
theorem byteLength_object (members : List (String × Value)) (some : members ≠ []) :
    (Value.object members).byteLength =
      (members.map fun member => keyLength member.1).sum +
        (members.map fun member => member.2.byteLength).sum + 2 * members.length + 1 := by
  have positive := List.length_pos_iff.mpr some
  rw [Value.byteLength, Value.text_object, utf8_append, utf8_cons, List.length_append,
    List.length_append, length_commaSeparated, sum_memberText, List.length_map]
  change 1 + _ + 1 = _
  omega

/-- An object is no shorter than the object of one of its members. -/
theorem byteLength_member_le (members : List (String × Value)) (member : String × Value)
    (inside : member ∈ members) :
    (Value.object [member]).byteLength ≤ (Value.object members).byteLength := by
  have part : ∀ size : String × Value → Nat, size member ≤ (members.map size).sum := by
    intro size
    obtain ⟨front, back, rfl⟩ := List.append_of_mem inside
    rw [List.map_append, List.sum_append, List.map_cons, List.sum_cons]
    omega
  have key := part fun other => keyLength other.1
  have value := part fun other => other.2.byteLength
  have some := List.length_pos_of_mem inside
  rw [byteLength_object _ (List.cons_ne_nil _ _), byteLength_object _ (List.ne_nil_of_mem inside),
    List.map_singleton, List.map_singleton, List.sum_singleton, List.sum_singleton,
    List.length_singleton]
  omega

/-- A string of ASCII characters that need no escape has a byte for each, and its quotes. -/
theorem keyLength_plain (value : String)
    (plain : ∀ c ∈ value.toList, escapeChar c = [c] ∧ c.toNat < 0x80) :
    keyLength value = value.toList.length + 2 := by
  have unescaped : value.toList.flatMap escapeChar = value.toList := by
    rw [List.flatMap_congr fun c member => (plain c member).1]
    exact List.flatMap_singleton' _
  rw [keyLength, stringText, unescaped, utf8_append, utf8_cons, List.length_append,
    List.length_append, length_utf8_ascii _ fun c member => (plain c member).2]
  change 1 + _ + 1 = _
  omega

theorem escapeChar_ne_nil (c : Char) : escapeChar c ≠ [] := by
  unfold escapeChar
  split_ifs <;> exact List.cons_ne_nil _ _

/-- A string has a byte at least for each of its characters, and its quotes. -/
theorem length_le_keyLength (value : String) : value.toList.length + 2 ≤ keyLength value := by
  have escaped : ∀ text : List Char,
      text.length ≤ (utf8 (text.flatMap escapeChar)).length := by
    intro text
    induction text with
    | nil => exact Nat.zero_le _
    | cons c rest inductionHypothesis =>
      obtain ⟨first, others, split⟩ := List.exists_cons_of_ne_nil (escapeChar_ne_nil c)
      have some := List.length_pos_iff.mpr (utf8EncodeChar_ne_nil first)
      rw [List.flatMap_cons, split, utf8_append, utf8_cons, List.length_append,
        List.length_append, List.length_cons]
      omega
  have inside := escaped value.toList
  rw [keyLength, stringText, utf8_append, utf8_cons, List.length_append, List.length_append]
  change _ ≤ 1 + _ + 1
  omega

theorem byteLength_string (value : String) : (Value.string value).byteLength = keyLength value :=
  rfl

end Json
