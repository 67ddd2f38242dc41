/-
This file collects what the two encodings of a text, as UTF-8 bytes and as
UTF-16 code units, do to equality. Both are injective, so two texts may be
compared through either of them, and UTF-8 sends a text without control
characters to bytes none of which is below a space.

The UTF-16 half reads a code unit sequence back from its first unit: a unit
outside the surrogate range is a whole character, a lead surrogate announces
exactly one trail. That is all the argument there is.
-/

import Mathlib.Data.List.Basic
import Mathlib.Tactic.SplitIfs

namespace Unicode

/-! ### UTF-8 -/

/-- The UTF-8 bytes of a text. -/
def utf8 (text : List Char) : List UInt8 := text.flatMap String.utf8EncodeChar

@[simp] theorem utf8_nil : utf8 [] = [] := rfl

@[simp] theorem utf8_cons (c : Char) (text : List Char) :
    utf8 (c :: text) = String.utf8EncodeChar c ++ utf8 text := rfl

@[simp] theorem utf8_append (first second : List Char) :
    utf8 (first ++ second) = utf8 first ++ utf8 second := by
  simp only [utf8, List.flatMap_append]

/-- Two texts with the same bytes are the same text. -/
theorem utf8_injective : Function.Injective utf8 := by
  intro first second same
  have bytes : first.utf8Encode = second.utf8Encode := congrArg List.toByteArray same
  have strings : String.ofList first = String.ofList second := by
    rw [← String.toByteArray_inj, String.toByteArray_ofList, String.toByteArray_ofList, bytes]
  rw [← String.toList_ofList (l := first), strings, String.toList_ofList]

/-- The text of some bytes, if they are UTF-8. -/
def decodeUtf8 (bytes : List UInt8) : Option (List Char) :=
  bytes.toByteArray.utf8Decode?.map Array.toList

theorem decodeUtf8_utf8 (text : List Char) : decodeUtf8 (utf8 text) = some text := by
  have decoded : (utf8 text).toByteArray.utf8Decode? = some text.toArray :=
    List.utf8Decode?_utf8Encode
  rw [decodeUtf8, decoded]
  rfl

/-- An ASCII character is one byte, its own code. -/
theorem utf8EncodeChar_ascii (c : Char) (ascii : c.toNat < 0x80) :
    String.utf8EncodeChar c = [UInt8.ofNat c.toNat] := by
  have value : c.val.toNat ≤ 0x7f := Nat.le_of_lt_succ ascii
  simp only [String.utf8EncodeChar, if_pos value]
  rfl

/-- The bytes of an ASCII text are the codes of its characters. -/
theorem utf8_ascii (text : List Char) (ascii : ∀ c ∈ text, c.toNat < 0x80) :
    utf8 text = text.map fun c => UInt8.ofNat c.toNat := by
  induction text with
  | nil => rfl
  | cons c text inductionHypothesis =>
    rw [utf8_cons, utf8EncodeChar_ascii c (ascii c List.mem_cons_self), List.map_cons,
      inductionHypothesis fun d member => ascii d (List.mem_cons_of_mem _ member)]
    rfl

/-- An ASCII text has as many bytes as characters. -/
theorem length_utf8_ascii (text : List Char) (ascii : ∀ c ∈ text, c.toNat < 0x80) :
    (utf8 text).length = text.length := by
  rw [utf8_ascii text ascii, List.length_map]

/-- The bytes of any other character have their high bit set, all of them. -/
theorem utf8EncodeChar_high (c : Char) (wide : 0x80 ≤ c.toNat) (byte : UInt8)
    (member : byte ∈ String.utf8EncodeChar c) : 0x80 ≤ byte := by
  have small : c.val.toNat < 0x110000 := by
    rcases c.valid with low | high <;> omega
  have value : 0x80 ≤ c.val.toNat := wide
  rw [UInt8.le_iff_toNat_le]
  simp only [String.utf8EncodeChar] at member
  split at member
  · omega
  · split at member
    · simp only [List.mem_cons, List.not_mem_nil, or_false] at member
      rcases member with rfl | rfl <;>
        simp only [UInt8.toNat_ofNat', UInt8.reduceToNat] <;> omega
    · split at member
      · simp only [List.mem_cons, List.not_mem_nil, or_false] at member
        rcases member with rfl | rfl | rfl <;>
          simp only [UInt8.toNat_ofNat', UInt8.reduceToNat] <;> omega
      · simp only [List.mem_cons, List.not_mem_nil, or_false] at member
        rcases member with rfl | rfl | rfl | rfl <;>
          simp only [UInt8.toNat_ofNat', UInt8.reduceToNat] <;> omega

/-- The bytes of a character that is not a control character are not control bytes. -/
theorem utf8EncodeChar_ge (c : Char) (printable : 0x20 ≤ c.toNat) (byte : UInt8)
    (member : byte ∈ String.utf8EncodeChar c) : 0x20 ≤ byte := by
  rcases Nat.lt_or_ge c.toNat 0x80 with ascii | wide
  · rw [utf8EncodeChar_ascii c ascii, List.mem_singleton] at member
    have code := UInt8.toNat_ofNat_of_lt' (Nat.lt_trans ascii (by decide : 0x80 < UInt8.size))
    rw [member, UInt8.le_iff_toNat_le, code]
    exact printable
  · exact UInt8.le_trans (by decide) (utf8EncodeChar_high c wide byte member)

/-- A text without control characters has no control byte. -/
theorem utf8_ge (text : List Char) (printable : ∀ c ∈ text, 0x20 ≤ c.toNat) (byte : UInt8)
    (member : byte ∈ utf8 text) : 0x20 ≤ byte := by
  rw [utf8, List.mem_flatMap] at member
  obtain ⟨c, inText, inChar⟩ := member
  exact utf8EncodeChar_ge c (printable c inText) byte inChar

/-- Every character has a byte. -/
theorem utf8EncodeChar_ne_nil (c : Char) : String.utf8EncodeChar c ≠ [] := by
  simp only [String.utf8EncodeChar]
  split_ifs
  all_goals exact List.cons_ne_nil _ _

/-- A text with only ASCII bytes has only ASCII characters. -/
theorem ascii_of_utf8 (text : List Char) (ascii : ∀ byte ∈ utf8 text, byte < 0x80) :
    ∀ c ∈ text, c.toNat < 0x80 := by
  intro c member
  by_contra wide
  obtain ⟨byte, inChar⟩ := List.exists_mem_of_ne_nil _ (utf8EncodeChar_ne_nil c)
  have high := utf8EncodeChar_high c (Nat.le_of_not_lt wide) byte inChar
  exact absurd (ascii byte (List.mem_flatMap.mpr ⟨c, member, inChar⟩)) (UInt8.not_lt.mpr high)

/-- The text of ASCII bytes. -/
def decodeAscii (bytes : List UInt8) : List Char := bytes.map fun byte => Char.ofNat byte.toNat

theorem decodeAscii_utf8 (text : List Char) (ascii : ∀ c ∈ text, c.toNat < 0x80) :
    decodeAscii (utf8 text) = text := by
  rw [utf8_ascii text ascii, decodeAscii, List.map_map]
  refine (List.map_congr_left fun c member => ?_).trans (List.map_id text)
  have small := ascii c member
  change Char.ofNat (UInt8.ofNat c.toNat).toNat = c
  rw [UInt8.toNat_ofNat', Nat.mod_eq_of_lt (by omega), Char.ofNat_toNat]

/-- ASCII bytes are the bytes of their text. -/
theorem utf8_decodeAscii (bytes : List UInt8) (ascii : ∀ byte ∈ bytes, byte < 0x80) :
    utf8 (decodeAscii bytes) = bytes := by
  have code : ∀ byte ∈ bytes, (Char.ofNat byte.toNat).toNat = byte.toNat := by
    have codes : ∀ code < 0x80, (Char.ofNat code).toNat = code := by decide
    exact fun byte member => codes _ (UInt8.lt_iff_toNat_lt.mp (ascii byte member))
  rw [utf8_ascii, decodeAscii, List.map_map]
  · refine (List.map_congr_left fun byte member => ?_).trans (List.map_id bytes)
    rw [Function.comp_apply, code byte member, UInt8.ofNat_toNat, id]
  · intro c member
    obtain ⟨byte, inside, rfl⟩ := List.mem_map.mp member
    rw [code byte inside]
    exact UInt8.lt_iff_toNat_lt.mp (ascii byte inside)

/-! ### UTF-16 -/

/-- The UTF-16 code units of a character: one unit on the basic plane, else a surrogate pair. -/
def encodeUtf16Char (c : Char) : List UInt16 :=
  if c.toNat < 0x10000 then [UInt16.ofNat c.toNat]
  else [UInt16.ofNat (0xD800 + (c.toNat - 0x10000) / 0x400),
    UInt16.ofNat (0xDC00 + (c.toNat - 0x10000) % 0x400)]

/-- The UTF-16 code units of a text. -/
def encodeUtf16 (text : List Char) : List UInt16 := text.flatMap encodeUtf16Char

@[simp] theorem encodeUtf16_nil : encodeUtf16 [] = [] := rfl

@[simp] theorem encodeUtf16_cons (c : Char) (text : List Char) :
    encodeUtf16 (c :: text) = encodeUtf16Char c ++ encodeUtf16 text := rfl

theorem char_bounds (c : Char) : c.toNat < 0xD800 ∨ (0xDFFF < c.toNat ∧ c.toNat < 0x110000) :=
  c.valid

theorem encodeUtf16Char_ne_nil (c : Char) : encodeUtf16Char c ≠ [] := by
  unfold encodeUtf16Char
  split <;> simp

/-- The first character of a code unit sequence and what follows it are determined by the
sequence: a surrogate unit never stands for a character of its own. -/
theorem encodeUtf16Char_append_inj (c d : Char) (first second : List UInt16)
    (same : encodeUtf16Char c ++ first = encodeUtf16Char d ++ second) :
    c = d ∧ first = second := by
  have boundsC := char_bounds c
  have boundsD := char_bounds d
  unfold encodeUtf16Char at same
  split at same <;> split at same <;>
    simp only [List.cons_append, List.nil_append, List.cons.injEq, ← UInt16.toNat_inj,
      UInt16.toNat_ofNat'] at same
  · exact ⟨Char.ext (UInt32.toNat_inj.mp (show c.toNat = d.toNat by omega)), same.2⟩
  · omega
  · omega
  · exact ⟨Char.ext (UInt32.toNat_inj.mp (show c.toNat = d.toNat by omega)), same.2.2⟩

/-- Two texts with the same code units are the same text. -/
theorem encodeUtf16_injective : Function.Injective encodeUtf16 := by
  intro first
  induction first with
  | nil =>
    intro second same
    cases second with
    | nil => rfl
    | cons d second =>
      have empty := List.append_eq_nil_iff.mp same.symm
      exact absurd empty.1 (encodeUtf16Char_ne_nil d)
  | cons c first inductionHypothesis =>
    intro second same
    cases second with
    | nil =>
      have empty := List.append_eq_nil_iff.mp same
      exact absurd empty.1 (encodeUtf16Char_ne_nil c)
    | cons d second =>
      obtain ⟨head, tail⟩ := encodeUtf16Char_append_inj c d _ _ same
      rw [head, inductionHypothesis tail]

end Unicode
