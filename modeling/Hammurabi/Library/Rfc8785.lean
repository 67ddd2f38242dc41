/-
This file is the JSON canonicalization scheme of RFC 8785, as the document states it,
for documents whose numbers are integers.

Members are sorted by the UTF-16 code units of their names, strings are written by
section 3.2.2.2, and a number is the text ECMAScript gives to the double nearest to
it. The canonical text is again the compact text of a document: the one with its
members sorted and every number replaced by the one its text denotes.
-/

import Hammurabi.Library.Binary64
import Hammurabi.Library.JsonReader

namespace Rfc8785

open Json Unicode

/-! ### The scheme -/

/-- Section 3.2.3: names are compared as sequences of UTF-16 code units. -/
def NotAfter (a b : String) : Prop := encodeUtf16 a.toList ≤ encodeUtf16 b.toList

instance : DecidableRel NotAfter := fun a b =>
  inferInstanceAs (Decidable (encodeUtf16 a.toList ≤ encodeUtf16 b.toList))

/-- The control characters with a letter of their own. -/
def controlLetter (c : Char) : Option Char :=
  if c.toNat = 0x08 then some 'b'
  else if c.toNat = 0x09 then some 't'
  else if c.toNat = 0x0a then some 'n'
  else if c.toNat = 0x0c then some 'f'
  else if c.toNat = 0x0d then some 'r'
  else none

/-- Section 3.2.2.2: control characters by their letter or in lower-case hexadecimal, a quote or a
backslash behind a backslash, everything else as it is. -/
def escape (c : Char) : List Char :=
  if c.toNat ≤ 0x1f then
    match controlLetter c with
    | some letter => ['\\', letter]
    | none => '\\' :: 'u' :: hex4 c.toNat
  else if c = '\\' ∨ c = '"' then ['\\', c]
  else [c]

def string (value : String) : List Char := '"' :: value.toList.flatMap escape ++ ['"']

/-- The text ECMAScript gives to the double nearest to a natural number below `10 ^ 21`: the digits
of the shortest decimal that rounds back to it, with the zeros that follow them. -/
def digits (n : Nat) : List Char := Nat.toDigits 10 (Binary64.shortest (Binary64.nearest n))

/-- Section 3.2.2.3, for the integers of a document. A number that is none is not described here and
keeps its text. -/
def number : Number → List Char
  | .posInt value => digits value.toNat
  | .negInt value _ => '-' :: digits value.toInt.natAbs
  | .float text => text.toList

mutual

def text : Value → List Char
  | .null => ['n', 'u', 'l', 'l']
  | .bool true => ['t', 'r', 'u', 'e']
  | .bool false => ['f', 'a', 'l', 's', 'e']
  | .number value => number value
  | .string value => string value
  | .array items => '[' :: commaSeparated (itemTexts items) ++ [']']
  | .object members =>
    let sorted := (memberTexts members).insertionSort fun a b => NotAfter a.1 b.1
    '\x7b' :: commaSeparated (sorted.map fun member => string member.1 ++ ':' :: member.2) ++
      ['\x7d']

def itemTexts : List Value → List (List Char)
  | [] => []
  | item :: rest => text item :: itemTexts rest

def memberTexts : List (String × Value) → List (String × List Char)
  | [] => []
  | (key, value) :: rest => (key, text value) :: memberTexts rest

end

/-- The canonical form, in UTF-8. -/
def canonicalize (value : Value) : List UInt8 := utf8 (text value)

/-! ### The canonical text is the text of a document -/

/-- The number a canonical number denotes. -/
def canonicalNumber : Number → Number
  | .posInt value => integerNumber false (digits value.toNat)
  | .negInt value _ => integerNumber true (digits value.toInt.natAbs)
  | .float text => .float text

theorem numberText_canonicalNumber (value : Number) :
    numberText (canonicalNumber value) = number value := by
  cases value with
  | posInt value => exact numberText_integerNumber false _
  | negInt value negative => exact numberText_integerNumber true _
  | float text => rfl

theorem numberReadsBack_canonicalNumber (value : Number)
    (integer : (Value.number value).IntegerOnly) : NumberReadsBack (canonicalNumber value) := by
  cases value with
  | posInt value => exact numberReadsBack_integerNumber false _
  | negInt value negative => exact numberReadsBack_integerNumber true _
  | float text => exact absurd integer (Value.not_integerOnly_float text)

/-- The numbers that are written as themselves: those that are the shortest decimal of their nearest
double. -/
theorem canonicalNumber_eq_self_iff (value : Number)
    (integer : (Value.number value).IntegerOnly) :
    canonicalNumber value = value ↔ Binary64.IsOwnShortest value.magnitude := by
  have numeral : ∀ n, digits n = Nat.toDigits 10 n ↔ Binary64.IsOwnShortest n := by
    intro n
    rw [← Binary64.shortest_nearest_iff, digits]
    constructor
    · intro same
      rw [← ofDigitChars_toDigits (Binary64.shortest _), same, ofDigitChars_toDigits]
    · intro same
      rw [same]
  constructor
  · intro same
    have texts := numberText_canonicalNumber value
    rw [same] at texts
    cases value with
    | posInt value => exact (numeral _).mp texts.symm
    | negInt value negative => exact (numeral _).mp (List.cons.inj texts).2.symm
    | float text => exact absurd integer (Value.not_integerOnly_float text)
  · intro own
    cases value with
    | posInt value =>
      rw [canonicalNumber, (numeral value.toNat).mpr own, integerNumber_posInt]
    | negInt value negative =>
      rw [canonicalNumber, (numeral value.toInt.natAbs).mpr own, integerNumber_negInt]
    | float text => rfl

/-- The two ways to say which characters are escaped, and how, agree. -/
theorem escape_eq (c : Char) : escape c = escapeChar c := by
  rcases Nat.lt_or_ge c.toNat 0x20 with control | printable
  · have each : ∀ code < 0x20, escape (Char.ofNat code) = escapeChar (Char.ofNat code) := by decide
    have same := each c.toNat control
    rwa [Char.ofNat_toNat] at same
  · have other : ∀ d : Char, d.toNat < 0x20 → c ≠ d := by
      rintro d control rfl
      omega
    by_cases quote : c = '"'
    · subst quote
      rfl
    · by_cases backslash : c = '\\'
      · subst backslash
        rfl
      · rw [escape, escapeChar, if_neg (by omega), if_neg (not_or_intro backslash quote),
          if_neg quote, if_neg backslash, if_neg (other _ (by decide)),
          if_neg (other _ (by decide)), if_neg (other _ (by decide)), if_neg (other _ (by decide)),
          if_neg (other _ (by decide)), if_neg (by omega)]

theorem string_eq (value : String) : string value = stringText value := by
  rw [string, stringText, funext escape_eq]

theorem itemTexts_eq (items : List Value) : itemTexts items = items.map text := by
  induction items with
  | nil => rfl
  | cons item rest inductionHypothesis => rw [itemTexts, inductionHypothesis, List.map_cons]

theorem memberTexts_eq (members : List (String × Value)) :
    memberTexts members = members.map fun member => (member.1, text member.2) := by
  induction members with
  | nil => rfl
  | cons member rest inductionHypothesis => rw [memberTexts, inductionHypothesis, List.map_cons]

/-- The canonical text is the compact text of the document with its members sorted and its numbers
replaced. -/
theorem text_eq (value : Value) :
    text value = ((value.mapNumbers canonicalNumber).sortMembers NotAfter).text := by
  induction value with
  | null => rfl
  | bool value => cases value <;> rfl
  | number value => exact (numberText_canonicalNumber value).symm
  | string value => exact string_eq value
  | array items each =>
    rw [Value.mapNumbers_array, Value.sortMembers_array, Value.text_array, text, itemTexts_eq,
      List.map_map, List.map_map, List.map_congr_left each]
    rfl
  | object members each =>
    have written : ∀ member ∈ members, string member.1 ++ ':' :: text member.2 =
        Value.memberText (Value.sortMember NotAfter (Value.mapMember canonicalNumber member)) := by
      intro member inside
      rw [string_eq, each member inside]
      rfl
    have sorted {Content : Type} (write : String × Value → String × Content)
        (keys : ∀ member, (write member).1 = member.1) :
        (members.map write).insertionSort (fun a b => NotAfter a.1 b.1) =
          (members.insertionSort fun a b => NotAfter a.1 b.1).map write :=
      (List.map_insertionSort _ _ write members fun a _ b _ => by rw [keys, keys]).symm
    rw [Value.mapNumbers_object, Value.sortMembers_object, Value.text_object, text, memberTexts_eq,
      List.map_map, sorted (fun member => (member.1, text member.2)) fun _ => rfl,
      sorted (Value.sortMember NotAfter ∘ Value.mapMember canonicalNumber) fun _ => rfl,
      List.map_map, List.map_map]
    congr 3
    exact List.map_congr_left fun member inside =>
      written member ((List.perm_insertionSort _ _).mem_iff.mp inside)

end Rfc8785
