/-
This file reads the compact text of a JSON document back.

The reader is a strict RFC 8259 reader that permits no insignificant whitespace; it
is structural in a fuel that the length of the text bounds. What the printer writes
for a document whose numbers are 64-bit integers, the reader reads back to that
document and stops exactly there, whatever delimiter follows. Two documents with
one text are therefore one document: this is the unique readability of the whole
encoder, with no prefix argument of its own.
-/

import Mathlib.Data.Nat.Digits.Defs
import Hammurabi.Library.JsonText

namespace Json

/-! ### Reading -/

/-- The code unit four hexadecimal digits spell. -/
def hexUnit (a b c d : Char) : Option Nat := do
  let a ← Hex.value a
  let b ← Hex.value b
  let c ← Hex.value c
  let d ← Hex.value d
  some (a * 4096 + b * 256 + c * 16 + d)

/-- The character a two-letter escape stands for. -/
def unescape (c : Char) : Option Char :=
  if c = '"' then some '"'
  else if c = '\\' then some '\\'
  else if c = '/' then some '/'
  else if c = 'b' then some '\x08'
  else if c = 'f' then some '\x0c'
  else if c = 'n' then some '\n'
  else if c = 'r' then some '\x0d'
  else if c = 't' then some '\t'
  else none

/-- A character read in front of the rest of a string. -/
def consRead (c : Char) (read : Option (List Char × List Char)) :
    Option (List Char × List Char) :=
  read.map fun result => (c :: result.1, result.2)

/-- Reads a string past its opening quote: the characters up to the closing quote, and what
follows it. -/
def readString : List Char → Option (List Char × List Char)
  | [] => none
  | c :: rest =>
    if c = '"' then some ([], rest)
    else if c = '\\' then
      match rest with
      | [] => none
      | 'u' :: a :: b :: c :: d :: rest =>
        match hexUnit a b c d with
        | none => none
        | some unit =>
          if unit < 0xD800 ∨ 0xDFFF < unit then consRead (Char.ofNat unit) (readString rest)
          else
            match rest with
            | '\\' :: 'u' :: e :: f :: g :: h :: rest =>
              match hexUnit e f g h with
              | none => none
              | some trail =>
                if unit < 0xDC00 ∧ 0xDC00 ≤ trail ∧ trail ≤ 0xDFFF then
                  consRead (Char.ofNat (0x10000 + (unit - 0xD800) * 0x400 + (trail - 0xDC00)))
                    (readString rest)
                else none
            | _ => none
      | e :: rest =>
        match unescape e with
        | none => none
        | some c => consRead c (readString rest)
    else if c.toNat < 0x20 then none
    else consRead c (readString rest)

/-- One or more digits, after a mark: a fraction or the digits of an exponent. -/
def readDigits (text : List Char) : Option (List Char × List Char) :=
  let digits := text.takeWhile Char.isDigit
  if digits = [] then none else some (digits, text.dropWhile Char.isDigit)

/-- The fraction of a number, if it has one. -/
def readFraction : List Char → Option (List Char × List Char)
  | '.' :: rest => (readDigits rest).map fun read => ('.' :: read.1, read.2)
  | rest => some ([], rest)

/-- The exponent of a number, if it has one. -/
def readExponent : List Char → Option (List Char × List Char)
  | [] => some ([], [])
  | e :: rest =>
    if e = 'e' ∨ e = 'E' then
      match rest with
      | sign :: rest' =>
        if sign = '+' ∨ sign = '-' then
          (readDigits rest').map fun read => (e :: sign :: read.1, read.2)
        else (readDigits rest).map fun read => (e :: read.1, read.2)
      | [] => none
    else some ([], e :: rest)

/-- The number a decimal integer stands for: a 64-bit integer when it fits one, else its text.
`-0` is not an integer. -/
def integerNumber (negative : Bool) (digits : List Char) : Number :=
  let magnitude := Nat.ofDigitChars 10 digits 0
  if negative then
    if small : 0 < magnitude ∧ magnitude ≤ 2 ^ 63 then
      .negInt (Int64.ofInt (-magnitude)) (by
        rw [Int64.lt_iff_toInt_lt, Int64.toInt_ofInt_of_le (by omega) (by omega)]
        simp only [Int64.toInt_zero]
        omega)
    else .float (String.ofList ('-' :: digits))
  else if magnitude < 2 ^ 64 then .posInt (UInt64.ofNat magnitude)
  else .float (String.ofList digits)

/-- Reads a number past its sign. -/
def readMagnitude (negative : Bool) (text : List Char) : Option (Number × List Char) := do
  let (digits, rest) ← readDigits text
  if digits.head? = some '0' ∧ digits ≠ ['0'] then none
  else
    let (fraction, rest) ← readFraction rest
    let (exponent, rest) ← readExponent rest
    if fraction = [] ∧ exponent = [] then some (integerNumber negative digits, rest)
    else
      let sign := if negative then ['-'] else []
      some (.float (String.ofList (sign ++ digits ++ fraction ++ exponent)), rest)

/-- Reads a number. -/
def readNumber : List Char → Option (Number × List Char)
  | '-' :: rest => readMagnitude true rest
  | text => readMagnitude false text

mutual

/-- Reads one value and returns what follows it. -/
def readValue : Nat → List Char → Option (Value × List Char)
  | 0, _ => none
  | _ + 1, [] => none
  | fuel + 1, c :: rest =>
    if c = 'n' then
      match rest with
      | 'u' :: 'l' :: 'l' :: rest => some (.null, rest)
      | _ => none
    else if c = 't' then
      match rest with
      | 'r' :: 'u' :: 'e' :: rest => some (.bool true, rest)
      | _ => none
    else if c = 'f' then
      match rest with
      | 'a' :: 'l' :: 's' :: 'e' :: rest => some (.bool false, rest)
      | _ => none
    else if c = '"' then
      (readString rest).map fun read => (.string (String.ofList read.1), read.2)
    else if c = '[' then
      if rest.head? = some ']' then some (.array [], rest.tail)
      else do
        let (item, rest) ← readValue fuel rest
        let (items, rest) ← readItems fuel rest
        some (.array (item :: items), rest)
    else if c = '{' then
      if rest.head? = some '}' then some (.object [], rest.tail)
      else do
        let (member, rest) ← readMember fuel rest
        let (members, rest) ← readMembers fuel rest
        some (.object (member :: members), rest)
    else (readNumber (c :: rest)).map fun read => (.number read.1, read.2)

/-- Reads the items after the first one, up to the closing bracket. -/
def readItems : Nat → List Char → Option (List Value × List Char)
  | 0, _ => none
  | _ + 1, [] => none
  | fuel + 1, c :: rest =>
    if c = ']' then some ([], rest)
    else if c = ',' then do
      let (item, rest) ← readValue fuel rest
      let (items, rest) ← readItems fuel rest
      some (item :: items, rest)
    else none

/-- Reads one member of an object. -/
def readMember : Nat → List Char → Option ((String × Value) × List Char)
  | 0, _ => none
  | fuel + 1, '"' :: rest => do
    let (key, rest) ← readString rest
    match rest with
    | ':' :: rest => do
      let (value, rest) ← readValue fuel rest
      some ((String.ofList key, value), rest)
    | _ => none
  | _ + 1, _ => none

/-- Reads the members after the first one, up to the closing brace. -/
def readMembers : Nat → List Char → Option (List (String × Value) × List Char)
  | 0, _ => none
  | _ + 1, [] => none
  | fuel + 1, c :: rest =>
    if c = '}' then some ([], rest)
    else if c = ',' then do
      let (member, rest) ← readMember fuel rest
      let (members, rest) ← readMembers fuel rest
      some (member :: members, rest)
    else none

end

/-- Reads a whole text as one document. -/
def read (text : List Char) : Option Value :=
  match readValue text.length text with
  | some (value, []) => some value
  | _ => none

/-! ### Strings are read back -/

theorem hexUnit_hexDigit (value : Nat) (control : value < 0x20) :
    hexUnit (Hex.digit (value / 4096)) (Hex.digit (value / 256)) (Hex.digit (value / 16))
      (Hex.digit value) = some value := by
  have each : ∀ value < 0x20, hexUnit (Hex.digit (value / 4096)) (Hex.digit (value / 256))
      (Hex.digit (value / 16)) (Hex.digit value) = some value := by decide
  exact each value control

theorem readString_quote (rest : List Char) : readString ('"' :: rest) = some ([], rest) := by
  rw [readString.eq_def]
  rfl

/-- A character that needs no escape is read as itself. -/
theorem readString_plain (c : Char) (rest : List Char) (quote : c ≠ '"') (backslash : c ≠ '\\')
    (control : ¬ c.toNat < 0x20) : readString (c :: rest) = consRead c (readString rest) := by
  rw [readString.eq_def]
  simp only [if_neg quote, if_neg backslash, if_neg control]

/-- An escaped character is read back as that character, whatever follows it. -/
theorem readString_escapeChar (c : Char) (rest : List Char) :
    readString (escapeChar c ++ rest) = consRead c (readString rest) := by
  unfold escapeChar
  split_ifs with quote backslash backspace formFeed newline carriageReturn tab control
  · subst quote; rfl
  · subst backslash; rfl
  · subst backspace; rfl
  · subst formFeed; rfl
  · subst newline; rfl
  · subst carriageReturn; rfl
  · subst tab; rfl
  · have unit := hexUnit_hexDigit c.toNat control
    have low : c.toNat < 0xD800 := by omega
    simp only [hex4, List.cons_append, List.nil_append, readString, Char.reduceEq, if_false,
      if_true, unit, low, true_or, Char.ofNat_toNat]
  · exact readString_plain c rest quote backslash control

theorem readString_escaped (value rest : List Char) :
    readString (value.flatMap escapeChar ++ '"' :: rest) = some (value, rest) := by
  induction value with
  | nil => exact readString_quote rest
  | cons c value inductionHypothesis =>
    rw [List.flatMap_cons, List.append_assoc, readString_escapeChar, inductionHypothesis]
    rfl

/-! ### Numbers are read back -/

/-- What may follow a value: nothing, or the mark that separates it from the next. -/
def Delimited (rest : List Char) : Prop :=
  ∀ c, rest.head? = some c → c = ',' ∨ c = ']' ∨ c = '}'

theorem delimited_nil : Delimited [] := by
  intro c head
  cases head

theorem delimited_cons {c : Char} (rest : List Char) (mark : c = ',' ∨ c = ']' ∨ c = '}') :
    Delimited (c :: rest) := by
  intro d head
  cases head
  exact mark

theorem Delimited.not_digit {rest : List Char} (delimited : Delimited rest) :
    rest.takeWhile Char.isDigit = [] ∧ rest.dropWhile Char.isDigit = rest := by
  cases rest with
  | nil => exact ⟨rfl, rfl⟩
  | cons c rest =>
    have notDigit : c.isDigit = false := by
      rcases delimited c rfl with rfl | rfl | rfl <;> decide
    simp [notDigit]

theorem readFraction_delimited {rest : List Char} (delimited : Delimited rest) :
    readFraction rest = some ([], rest) := by
  cases rest with
  | nil => rfl
  | cons c rest =>
    rcases delimited c rfl with rfl | rfl | rfl <;> rfl

theorem readExponent_delimited {rest : List Char} (delimited : Delimited rest) :
    readExponent rest = some ([], rest) := by
  cases rest with
  | nil => rfl
  | cons c rest =>
    rcases delimited c rfl with rfl | rfl | rfl <;> rfl

theorem readDigits_toDigits (value : Nat) {rest : List Char} (delimited : Delimited rest) :
    readDigits (Nat.toDigits 10 value ++ rest) = some (Nat.toDigits 10 value, rest) := by
  have digits := isDigit_toDigits value
  have stops := delimited.not_digit
  unfold readDigits
  rw [List.takeWhile_append_of_pos digits, List.dropWhile_append_of_pos digits, stops.1, stops.2,
    List.append_nil]
  simp only [Nat.toDigits_ne_nil, if_false]

/-- A decimal numeral has no leading zero, unless it is the numeral of zero. -/
theorem head_toDigits (value : Nat) :
    ¬ ((Nat.toDigits 10 value).head? = some '0' ∧ Nat.toDigits 10 value ≠ ['0']) := by
  induction value using Nat.strongRecOn with
  | ind value inductionHypothesis =>
    rintro ⟨zero, other⟩
    by_cases small : value < 10
    · rw [Nat.toDigits_of_lt_base small] at zero other
      rw [List.head?_cons, Option.some_inj] at zero
      exact other (by rw [zero])
    · have large : 10 ≤ value := Nat.le_of_not_lt small
      have shorter := inductionHypothesis (value / 10) (by omega)
      rw [Nat.toDigits_of_base_le (by decide) large] at zero
      rw [List.head?_append_of_ne_nil _ Nat.toDigits_ne_nil] at zero
      have one : Nat.toDigits 10 (value / 10) = ['0'] := by
        by_contra different
        exact shorter ⟨zero, different⟩
      have back := Nat.ofDigitChars_toDigits (b := 10) (n := value / 10) (by decide) (by decide)
      rw [one] at back
      have nothing : value / 10 = 0 := by rw [← back]; rfl
      omega

theorem readMagnitude_toDigits (negative : Bool) (value : Nat) {rest : List Char}
    (delimited : Delimited rest) :
    readMagnitude negative (Nat.toDigits 10 value ++ rest) =
      some (integerNumber negative (Nat.toDigits 10 value), rest) := by
  simp only [readMagnitude, readDigits_toDigits value delimited, Option.bind_eq_bind,
    Option.bind_some, if_neg (head_toDigits value), readFraction_delimited delimited,
    readExponent_delimited delimited, and_self, if_true]

theorem ofDigitChars_toDigits (value : Nat) :
    Nat.ofDigitChars 10 (Nat.toDigits 10 value) 0 = value :=
  Nat.ofDigitChars_toDigits (by decide) (by decide)

theorem integerNumber_posInt (value : UInt64) :
    integerNumber false (Nat.toDigits 10 value.toNat) = .posInt value := by
  have bound : value.toNat < 2 ^ 64 := value.toNat_lt
  unfold integerNumber
  simp only [ofDigitChars_toDigits, Bool.false_eq_true, if_false, if_pos bound,
    UInt64.ofNat_toNat]

theorem integerNumber_negInt (value : Int64) (negative : value < 0) :
    integerNumber true (Nat.toDigits 10 value.toInt.natAbs) = .negInt value negative := by
  have below : value.toInt < 0 := by simpa using Int64.lt_iff_toInt_lt.mp negative
  have bound := value.le_toInt
  have small : 0 < value.toInt.natAbs ∧ value.toInt.natAbs ≤ 2 ^ 63 := by omega
  have back : Int64.ofInt (-(value.toInt.natAbs : Int)) = value := by
    rw [show -(value.toInt.natAbs : Int) = value.toInt by omega, Int64.ofInt_toInt]
  unfold integerNumber
  simp only [ofDigitChars_toDigits, if_true, dif_pos small, back]

theorem toDigits_eq_cons (value : Nat) :
    ∃ c rest, Nat.toDigits 10 value = c :: rest ∧ c.isDigit = true := by
  obtain ⟨c, rest, digits⟩ :=
    List.exists_cons_of_ne_nil (Nat.toDigits_ne_nil (n := value) (b := 10))
  exact ⟨c, rest, digits, isDigit_toDigits value c (by rw [digits]; exact List.mem_cons_self)⟩

/-- The text of a decimal integer of any size. -/
theorem numberText_integerNumber (negative : Bool) (value : Nat) :
    numberText (integerNumber negative (Nat.toDigits 10 value)) =
      (if negative then ['-'] else []) ++ Nat.toDigits 10 value := by
  unfold integerNumber
  simp only [ofDigitChars_toDigits]
  cases negative with
  | true =>
    rw [if_pos rfl, if_pos rfl]
    split
    · rename_i small
      have magnitude : (Int64.ofInt (-(value : Int))).toInt = -value :=
        Int64.toInt_ofInt_of_le (by omega) (by omega)
      rw [numberText, magnitude, Int.natAbs_neg, Int.natAbs_natCast]
      rfl
    · rw [numberText, String.toList_ofList]
      rfl
  | false =>
    rw [if_neg Bool.false_ne_true, if_neg Bool.false_ne_true, List.nil_append]
    split
    · rename_i small
      rw [numberText, UInt64.toNat_ofNat', Nat.mod_eq_of_lt small]
    · rw [numberText, String.toList_ofList]

/-- The text of a number starts like one, and reads back to that number whatever mark follows. -/
def NumberReadsBack (number : Number) : Prop :=
  (∃ c rest, numberText number = c :: rest ∧ (c.isDigit = true ∨ c = '-')) ∧
    ∀ rest, Delimited rest → readNumber (numberText number ++ rest) = some (number, rest)

/-- Decimal integers of any size read back. -/
theorem numberReadsBack_integerNumber (negative : Bool) (value : Nat) :
    NumberReadsBack (integerNumber negative (Nat.toDigits 10 value)) := by
  rw [NumberReadsBack, numberText_integerNumber]
  obtain ⟨c, digits, equal, digit⟩ := toDigits_eq_cons value
  cases negative with
  | true =>
    exact ⟨⟨'-', _, rfl, Or.inr rfl⟩, fun rest delimited => readMagnitude_toDigits true _ delimited⟩
  | false =>
    refine ⟨⟨c, digits, equal, Or.inl digit⟩, fun rest delimited => ?_⟩
    have magnitude := readMagnitude_toDigits false value delimited
    rw [if_neg Bool.false_ne_true, List.nil_append]
    simp only [equal, List.cons_append] at magnitude ⊢
    have notMinus : c ≠ '-' := by
      rintro rfl
      exact absurd digit (by decide)
    unfold readNumber
    split
    · rename_i minus
      exact absurd (List.cons.inj minus).1 notMinus
    · exact magnitude

theorem numberReadsBack_of_integerOnly (number : Number)
    (integer : (Value.number number).IntegerOnly) : NumberReadsBack number := by
  cases number with
  | posInt value =>
    rw [← integerNumber_posInt]
    exact numberReadsBack_integerNumber false value.toNat
  | negInt value negative =>
    rw [← integerNumber_negInt]
    exact numberReadsBack_integerNumber true value.toInt.natAbs
  | float text => exact absurd integer (Value.not_integerOnly_float text)

/-! ### Documents are read back -/

/-- The reader returns the document its text was printed from, and stops where that text ends. -/
def ReadsBack (value : Value) : Prop :=
  ∀ fuel rest, Delimited rest → value.text.length ≤ fuel →
    readValue fuel (value.text ++ rest) = some (value, rest)

theorem digit_or_minus_ne {c : Char} (start : c.isDigit = true ∨ c = '-') :
    c ≠ 'n' ∧ c ≠ 't' ∧ c ≠ 'f' ∧ c ≠ '"' ∧ c ≠ '[' ∧ c ≠ '{' ∧ c ≠ ']' ∧ c ≠ '}' := by
  refine ⟨?_, ?_, ?_, ?_, ?_, ?_, ?_, ?_⟩ <;>
    · rintro rfl
      exact absurd start (by decide)

/-- The text of a document never starts with a closing mark. -/
theorem text_head (value : Value) (numbers : ∀ number ∈ value.numbers, NumberReadsBack number) :
    ∃ c rest, value.text = c :: rest ∧ c ≠ ']' ∧ c ≠ '}' := by
  cases value with
  | null => exact ⟨'n', _, rfl, by decide, by decide⟩
  | bool value => cases value <;> exact ⟨_, _, rfl, by decide, by decide⟩
  | number value =>
    obtain ⟨c, rest, text, start⟩ := (numbers value (by simp)).1
    have different := digit_or_minus_ne start
    exact ⟨c, rest, text, different.2.2.2.2.2.2.1, different.2.2.2.2.2.2.2⟩
  | string value => exact ⟨'"', _, rfl, by decide, by decide⟩
  | array items => exact ⟨'[', _, Value.text_array items, by decide, by decide⟩
  | object members => exact ⟨'{', _, Value.text_object members, by decide, by decide⟩

theorem delimited_more (texts : List (List Char)) {close : Char} (rest : List Char)
    (mark : close = ']' ∨ close = '}') :
    Delimited (texts.flatMap (',' :: ·) ++ close :: rest) := by
  cases texts with
  | nil => exact delimited_cons rest (Or.inr mark)
  | cons text texts => exact delimited_cons _ (Or.inl rfl)

/-- A reader with more characters left than some bound may take one more step. -/
theorem fuel_left {fuel bound : Nat} (enough : bound < fuel) : ∃ left, fuel = left + 1 :=
  Nat.exists_eq_add_one_of_ne_zero (Nat.ne_of_gt (Nat.zero_lt_of_lt enough))

/-- The items after the first are read back one by one. -/
theorem readItems_texts (items : List Value) (each : ∀ item ∈ items, ReadsBack item)
    (fuel : Nat) (rest : List Char)
    (enough : ((items.map Value.text).flatMap (',' :: ·)).length < fuel) :
    readItems fuel ((items.map Value.text).flatMap (',' :: ·) ++ ']' :: rest) =
      some (items, rest) := by
  induction items generalizing fuel with
  | nil =>
    obtain ⟨fuel, rfl⟩ := fuel_left enough
    rfl
  | cons item items inductionHypothesis =>
    obtain ⟨fuel, rfl⟩ := fuel_left enough
    simp only [List.map_cons, List.flatMap_cons, List.length_append, List.length_cons] at enough
    have head := each item List.mem_cons_self fuel
      ((items.map Value.text).flatMap (',' :: ·) ++ ']' :: rest)
      (delimited_more _ rest (Or.inl rfl)) (by omega)
    have tail := inductionHypothesis (fun item member => each item (List.mem_cons_of_mem _ member))
      fuel (by omega)
    simp only [List.map_cons, List.flatMap_cons, List.cons_append, List.append_assoc, readItems,
      Char.reduceEq, if_false, if_true, head, tail, Option.bind_eq_bind, Option.bind_some]

/-- A member is read back when its value is. -/
theorem readMember_memberText (member : String × Value) (value : ReadsBack member.2)
    (fuel : Nat) (rest : List Char) (delimited : Delimited rest)
    (enough : (Value.memberText member).length ≤ fuel) :
    readMember fuel (Value.memberText member ++ rest) = some (member, rest) := by
  simp only [Value.memberText, stringText, List.cons_append, List.append_assoc, List.length_cons,
    List.length_append, List.nil_append] at enough ⊢
  obtain ⟨fuel, rfl⟩ := fuel_left enough
  have key := readString_escaped member.1.toList (':' :: (member.2.text ++ rest))
  have read := value fuel rest delimited (by omega)
  simp only [readMember, key, read, Option.bind_eq_bind, Option.bind_some, String.ofList_toList]

theorem readMembers_texts (members : List (String × Value))
    (each : ∀ member ∈ members, ReadsBack member.2) (fuel : Nat) (rest : List Char)
    (enough : ((members.map Value.memberText).flatMap (',' :: ·)).length < fuel) :
    readMembers fuel ((members.map Value.memberText).flatMap (',' :: ·) ++ '}' :: rest) =
      some (members, rest) := by
  induction members generalizing fuel with
  | nil =>
    obtain ⟨fuel, rfl⟩ := fuel_left enough
    rfl
  | cons member members inductionHypothesis =>
    obtain ⟨fuel, rfl⟩ := fuel_left enough
    simp only [List.map_cons, List.flatMap_cons, List.length_append, List.length_cons] at enough
    have head := readMember_memberText member (each member List.mem_cons_self) fuel
      ((members.map Value.memberText).flatMap (',' :: ·) ++ '}' :: rest)
      (delimited_more _ rest (Or.inr rfl)) (by omega)
    have tail := inductionHypothesis
      (fun member inside => each member (List.mem_cons_of_mem _ inside)) fuel (by omega)
    simp only [List.map_cons, List.flatMap_cons, List.cons_append, List.append_assoc, readMembers,
      Char.reduceEq, if_false, if_true, head, tail, Option.bind_eq_bind, Option.bind_some]

theorem memberText_head (member : String × Value) :
    ∃ rest, Value.memberText member = '"' :: rest :=
  ⟨_, rfl⟩

theorem readsBack_array (items : List Value)
    (numbers : ∀ item ∈ items, ∀ number ∈ item.numbers, NumberReadsBack number)
    (each : ∀ item ∈ items, ReadsBack item) : ReadsBack (.array items) := by
  intro fuel rest delimited enough
  rw [Value.text_array] at enough ⊢
  obtain ⟨fuel, rfl⟩ := fuel_left enough
  cases items with
  | nil => rfl
  | cons item items =>
    simp only [List.map_cons, commaSeparated, List.cons_append, List.append_assoc,
      List.length_cons, List.length_append, List.nil_append] at enough ⊢
    have head := each item List.mem_cons_self fuel
      ((items.map Value.text).flatMap (',' :: ·) ++ ']' :: rest)
      (delimited_more _ rest (Or.inl rfl)) (by omega)
    have tail := readItems_texts items
      (fun item member => each item (List.mem_cons_of_mem _ member)) fuel rest (by omega)
    obtain ⟨c, text, start, notClose, -⟩ := text_head item (numbers item List.mem_cons_self)
    simp only [start, List.cons_append] at head ⊢
    simp only [readValue, Char.reduceEq, if_false, if_true, List.head?_cons, Option.some.injEq,
      notClose, head, tail, Option.bind_eq_bind, Option.bind_some]

theorem readsBack_object (members : List (String × Value))
    (each : ∀ member ∈ members, ReadsBack member.2) : ReadsBack (.object members) := by
  intro fuel rest delimited enough
  rw [Value.text_object] at enough ⊢
  obtain ⟨fuel, rfl⟩ := fuel_left enough
  cases members with
  | nil => rfl
  | cons member members =>
    simp only [List.map_cons, commaSeparated, List.cons_append, List.append_assoc,
      List.length_cons, List.length_append, List.nil_append] at enough ⊢
    have head := readMember_memberText member (each member List.mem_cons_self) fuel
      ((members.map Value.memberText).flatMap (',' :: ·) ++ '}' :: rest)
      (delimited_more _ rest (Or.inr rfl)) (by omega)
    have tail := readMembers_texts members
      (fun member inside => each member (List.mem_cons_of_mem _ inside)) fuel rest (by omega)
    obtain ⟨text, start⟩ := memberText_head member
    simp only [start, List.cons_append] at head ⊢
    simp only [readValue, Char.reduceEq, if_false, if_true, List.head?_cons, Option.some.injEq,
      head, tail, Option.bind_eq_bind, Option.bind_some]

/-- The reader inverts the printer on documents whose numbers read back. -/
theorem readsBack_of_numbers (value : Value)
    (numbers : ∀ number ∈ value.numbers, NumberReadsBack number) : ReadsBack value := by
  induction value with
  | null =>
    intro fuel rest _ enough
    obtain ⟨fuel, rfl⟩ := fuel_left enough
    rfl
  | bool value =>
    intro fuel rest _ enough
    cases value <;>
      · obtain ⟨fuel, rfl⟩ := fuel_left enough
        rfl
  | number value =>
    intro fuel rest delimited enough
    obtain ⟨⟨c, text, start, digit⟩, back⟩ := numbers value (by simp)
    have read := back rest delimited
    obtain ⟨n, t, f, quote, bracket, brace, -, -⟩ := digit_or_minus_ne digit
    simp only [Value.text, start, List.cons_append, List.length_cons] at read enough ⊢
    obtain ⟨fuel, rfl⟩ := fuel_left enough
    simp only [readValue, if_neg n, if_neg t, if_neg f, if_neg quote, if_neg bracket,
      if_neg brace, read, Option.map_some]
  | string value =>
    intro fuel rest _ enough
    have read := readString_escaped value.toList rest
    obtain ⟨fuel, rfl⟩ := fuel_left enough
    simp only [Value.text, stringText, List.cons_append, List.append_assoc, List.nil_append,
      readValue, Char.reduceEq, if_false, if_true, read, Option.map_some, String.ofList_toList]
  | array items each =>
    rw [Value.forall_numbers_array] at numbers
    exact readsBack_array items numbers fun item member => each item member (numbers item member)
  | object members each =>
    rw [Value.forall_numbers_object] at numbers
    exact readsBack_object members fun member inside => each member inside (numbers member inside)

/-- A printed document is read back whole, if its numbers read back. -/
theorem read_text_of_numbers (value : Value)
    (numbers : ∀ number ∈ value.numbers, NumberReadsBack number) :
    read value.text = some value := by
  have back := readsBack_of_numbers value numbers value.text.length [] delimited_nil le_rfl
  rw [List.append_nil] at back
  simp only [read, back]

/-- A printed document whose numbers are 64-bit integers is read back whole. -/
theorem read_text (value : Value) (integer : value.IntegerOnly) :
    read value.text = some value := by
  rw [Value.integerOnly_iff_numbers] at integer
  exact read_text_of_numbers value fun number member =>
    numberReadsBack_of_integerOnly number (integer number member)

/-- The text determines the document. -/
theorem text_injective {value other : Value} (integer : value.IntegerOnly)
    (integer' : other.IntegerOnly) (same : value.text = other.text) : value = other := by
  have back := read_text value integer
  rw [same, read_text other integer'] at back
  exact (Option.some.inj back).symm

end Json
