/-
This file is the hexadecimal text of a byte string: two digits a byte, written in
lower case and read in either case.

Reading inverts writing; the text is visible ASCII and twice as long as the bytes.
-/

import Mathlib.Data.List.Basic

namespace Hex

/-! ### Digits -/

/-- A hexadecimal digit, in lower case. -/
def digit (value : Nat) : Char := Nat.digitChar (value % 16)

/-- The value of a hexadecimal digit. -/
def value (c : Char) : Option Nat :=
  if '0' ≤ c ∧ c ≤ '9' then some (c.toNat - 48)
  else if 'a' ≤ c ∧ c ≤ 'f' then some (c.toNat - 87)
  else if 'A' ≤ c ∧ c ≤ 'F' then some (c.toNat - 55)
  else none

theorem value_digit (number : Nat) : value (digit number) = some (number % 16) := by
  have each : ∀ number < 16, value (Nat.digitChar number) = some number := by decide
  exact each _ (Nat.mod_lt _ (by decide))

/-- Every digit is visible ASCII. -/
theorem digit_bounds (number : Nat) :
    0x20 ≤ (digit number).toNat ∧ (digit number).toNat ≤ 0x7e := by
  have each : ∀ number < 16, 0x20 ≤ (Nat.digitChar number).toNat ∧
      (Nat.digitChar number).toNat ≤ 0x7e := by decide
  exact each _ (Nat.mod_lt _ (by decide))

/-! ### Byte strings -/

def encodeChars (bytes : List UInt8) : List Char :=
  bytes.flatMap fun byte => [digit (byte.toNat / 16), digit byte.toNat]

def encode (bytes : List UInt8) : String := String.ofList (encodeChars bytes)

def decodeChars : List Char → Except String (List UInt8)
  | [] => .ok []
  | [_] => .error "Odd number of digits"
  | high :: low :: rest =>
    match value high, value low with
    | some high, some low => (decodeChars rest).map (UInt8.ofNat (high * 16 + low) :: ·)
    | _, _ => .error "Invalid character"

def decode (text : String) : Except String (List UInt8) := decodeChars text.toList

theorem decodeChars_encodeChars (bytes : List UInt8) :
    decodeChars (encodeChars bytes) = .ok bytes := by
  induction bytes with
  | nil => rfl
  | cons byte rest inductionHypothesis =>
    have digits : byte.toNat / 16 % 16 * 16 + byte.toNat % 16 = byte.toNat := by
      have small := byte.toNat_lt
      omega
    have written : encodeChars (byte :: rest) =
        digit (byte.toNat / 16) :: digit byte.toNat :: encodeChars rest := rfl
    rw [written, decodeChars, value_digit, value_digit, inductionHypothesis]
    simp only [Except.map, digits, UInt8.ofNat_toNat]

/-- Reading inverts writing. -/
theorem decode_encode (bytes : List UInt8) : decode (encode bytes) = .ok bytes := by
  rw [decode, encode, String.toList_ofList, decodeChars_encodeChars]

theorem length_encodeChars (bytes : List UInt8) :
    (encodeChars bytes).length = 2 * bytes.length := by
  induction bytes with
  | nil => rfl
  | cons byte rest inductionHypothesis =>
    rw [encodeChars, List.flatMap_cons, List.length_append, ← encodeChars, inductionHypothesis,
      List.length_cons, List.length_cons, List.length_cons, List.length_nil]
    omega

end Hex
