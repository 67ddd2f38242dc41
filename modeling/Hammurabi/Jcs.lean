/-
This file is the canonical form of a JSON document and the message that is signed.

The writer follows the RFC 8785 profile of the bedrock: members sorted by the
UTF-16 code units of their keys, minimal escapes, integers only. Its text is the
compact text of the document with its members sorted, and it refuses exactly the
documents that carry another number somewhere. The signed message appends a zero
byte and the timestamp to it.

What a signature over that message binds is the content of the last section: two
messages are equal only for one timestamp and one document, up to the order of
object members at every depth.
-/

import Hammurabi.Crypto
import Hammurabi.Library.JsonReader

namespace Hammurabi

open Json Unicode

/-! ### The order of the keys -/

/-- Compare two strings by their UTF-16 code unit sequences. -/
def utf16Cmp (a b : String) : Ordering :=
  compare (encodeUtf16 a.toList) (encodeUtf16 b.toList)

/-- The order the keys are sorted by: not after. -/
def Utf16Le (a b : String) : Prop := utf16Cmp a b ≠ .gt

instance : DecidableRel Utf16Le := fun a b => inferInstanceAs (Decidable (utf16Cmp a b ≠ .gt))

theorem utf16Le_iff (a b : String) : Utf16Le a b ↔ (utf16Cmp a b).isLE = true := by
  unfold Utf16Le
  cases utf16Cmp a b <;> decide

instance : Std.Total Utf16Le where
  total a b := by
    rw [utf16Le_iff, utf16Le_iff, utf16Cmp, utf16Cmp, ← Std.OrientedCmp.isGE_eq_isLE]
    generalize compare (encodeUtf16 b.toList) (encodeUtf16 a.toList) = order
    cases order <;> decide

instance : IsTrans String Utf16Le where
  trans a b c := by
    rw [utf16Le_iff, utf16Le_iff, utf16Le_iff]
    exact Std.TransOrd.isLE_trans

/-- Only identical keys compare equal, so sorting leaves no choice between two keys. -/
instance : Std.Antisymm Utf16Le where
  antisymm a b below above := by
    rw [utf16Le_iff, utf16Cmp] at below above
    have units := Std.LawfulEqOrd.eq_of_compare (Std.OrientedCmp.isLE_antisymm below above)
    rw [← String.ofList_toList (s := a), encodeUtf16_injective units, String.ofList_toList]

/-! ### The writer -/

/-- Constrained number rule: integers only. Floats are refused, not approximated. -/
def writeNumber : Number → CryptoResult (List Char)
  | .posInt value => .ok (Nat.toDigits 10 value.toNat)
  | .negInt value _ => .ok ('-' :: Nat.toDigits 10 value.toInt.natAbs)
  | .float text => .error (.canonicalization
      (s!"non-integer number `{text}` is not canonicalizable in the integer-only " ++
        "signing subset; floats are refused by construction"))

/-- The string production: minimal escaping, every other character as itself. -/
def writeString (value : String) : List Char :=
  '"' :: value.toList.flatMap (fun
    | '"' => ['\\', '"']
    | '\\' => ['\\', '\\']
    | '\x08' => ['\\', 'b']
    | '\x0c' => ['\\', 'f']
    | '\n' => ['\\', 'n']
    | '\x0d' => ['\\', 'r']
    | '\t' => ['\\', 't']
    | c => if c.toNat < 0x20 then '\\' :: 'u' :: hex4 c.toNat else [c]) ++ ['"']

/-- One member of an object: its key, a colon, and its value if the lookup finds it. -/
def writeMember (key : String) (value : Option (CryptoResult (List Char))) :
    CryptoResult (List Char) := do
  match value with
  | some value =>
    let text ← value
    return writeString key ++ ':' :: text
  | none => return writeString key ++ [':']

mutual

/-- The canonical text of a value. -/
def writeValue : Value → CryptoResult (List Char)
  | .null => .ok ['n', 'u', 'l', 'l']
  | .bool true => .ok ['t', 'r', 'u', 'e']
  | .bool false => .ok ['f', 'a', 'l', 's', 'e']
  | .number value => writeNumber value
  | .string value => .ok (writeString value)
  | .array items => do
    let texts ← writeItems items
    return '[' :: commaSeparated texts ++ [']']
  | .object members => do
    let keys := (members.map Prod.fst).insertionSort Utf16Le
    let values := writeEach members
    let texts ← keys.mapM fun key => writeMember key (values.lookup key)
    return '\x7b' :: commaSeparated texts ++ ['\x7d']

/-- The items in order, up to the first that is refused. -/
def writeItems : List Value → CryptoResult (List (List Char))
  | [] => .ok []
  | item :: rest => do
    let text ← writeValue item
    let texts ← writeItems rest
    return text :: texts

/-- What writing each member's value gives, under its key. -/
def writeEach : List (String × Value) → List (String × CryptoResult (List Char))
  | [] => []
  | (key, value) :: rest => (key, writeValue value) :: writeEach rest

end

/-- Canonicalize a document to its bytes. -/
def canonicalize (value : Value) : CryptoResult (List UInt8) := do
  let text ← writeValue value
  return utf8 text

/-! ### What the writer writes -/

theorem writeString_eq (value : String) : writeString value = stringText value := by
  unfold writeString stringText
  congr 3
  funext c
  unfold escapeChar
  split <;> simp_all

theorem writeEach_eq (members : List (String × Value)) :
    writeEach members = members.map fun member => (member.1, writeValue member.2) := by
  induction members with
  | nil => rfl
  | cons member rest inductionHypothesis => rw [writeEach, inductionHypothesis, List.map_cons]

/-- Looking a member up under its own key finds it, in a listing that repeats no key. -/
theorem lookup_of_mem {Content : Type} (members : List (String × Content))
    (unique : (members.map Prod.fst).Nodup) (member : String × Content)
    (inside : member ∈ members) : members.lookup member.1 = some member.2 := by
  induction members with
  | nil => cases inside
  | cons head rest inductionHypothesis =>
    rw [List.map_cons, List.nodup_cons] at unique
    rcases List.mem_cons.mp inside with rfl | inRest
    · rw [List.lookup_cons, beq_self_eq_true]
    · have different : member.1 ≠ head.1 := by
        rintro same
        exact unique.1 (same ▸ List.mem_map_of_mem inRest)
      rw [List.lookup_cons, beq_eq_false_iff_ne.mpr different]
      exact inductionHypothesis unique.2 inRest

/-- The sorted keys are the keys of the sorted members. -/
theorem sortedKeys_eq (members : List (String × Value)) :
    (members.map Prod.fst).insertionSort Utf16Le =
      (members.insertionSort fun a b => Utf16Le a.1 b.1).map Prod.fst :=
  (List.map_insertionSort _ _ Prod.fst members fun _ _ _ _ => Iff.rfl).symm

theorem sortedMembers_eq (members : List (String × Value)) :
    (members.map (Value.sortMember Utf16Le)).insertionSort (fun a b => Utf16Le a.1 b.1) =
      (members.insertionSort fun a b => Utf16Le a.1 b.1).map (Value.sortMember Utf16Le) :=
  (List.map_insertionSort _ _ (Value.sortMember Utf16Le) members fun _ _ _ _ => Iff.rfl).symm

/-- A value is written as the text of its sorted form when every number in it is an integer,
and refused otherwise. -/
def WritesSorted (value : Value) : Prop :=
  (value.IntegerOnly → writeValue value = .ok (value.sortMembers Utf16Le).text) ∧
    (¬ value.IntegerOnly → ∃ detail, writeValue value = .error (.canonicalization detail))

theorem writeItems_ok (items : List Value) (each : ∀ item ∈ items, WritesSorted item)
    (integer : ∀ item ∈ items, item.IntegerOnly) :
    writeItems items = .ok ((items.map (Value.sortMembers Utf16Le)).map Value.text) := by
  induction items with
  | nil => rfl
  | cons item rest inductionHypothesis =>
    have tail := inductionHypothesis (fun item member => each item (List.mem_cons_of_mem _ member))
      fun item member => integer item (List.mem_cons_of_mem _ member)
    rw [writeItems, (each item List.mem_cons_self).1 (integer item List.mem_cons_self), tail]
    rfl

theorem writeItems_error (items : List Value) (each : ∀ item ∈ items, WritesSorted item)
    (float : ∃ item ∈ items, ¬ item.IntegerOnly) :
    ∃ detail, writeItems items = .error (.canonicalization detail) := by
  induction items with
  | nil =>
    obtain ⟨item, member, -⟩ := float
    cases member
  | cons item rest inductionHypothesis =>
    by_cases integer : item.IntegerOnly
    · obtain ⟨other, member, float⟩ := float
      have inRest : other ∈ rest := by
        rcases List.mem_cons.mp member with rfl | inRest
        · exact absurd integer float
        · exact inRest
      obtain ⟨detail, tail⟩ := inductionHypothesis
        (fun item member => each item (List.mem_cons_of_mem _ member)) ⟨other, inRest, float⟩
      rw [writeItems, (each item List.mem_cons_self).1 integer, tail]
      exact ⟨detail, rfl⟩
    · obtain ⟨detail, head⟩ := (each item List.mem_cons_self).2 integer
      rw [writeItems, head]
      exact ⟨detail, rfl⟩

/-- Writing the members of a listing under their keys, when each key finds its own member. -/
theorem writeMembers_ok (members : List (String × Value))
    (values : List (String × CryptoResult (List Char)))
    (found : ∀ member ∈ members, values.lookup member.1 = some (writeValue member.2))
    (each : ∀ member ∈ members, WritesSorted member.2)
    (integer : ∀ member ∈ members, member.2.IntegerOnly) :
    (members.map Prod.fst).mapM (fun key => writeMember key (values.lookup key)) =
      .ok ((members.map (Value.sortMember Utf16Le)).map Value.memberText) := by
  induction members with
  | nil => rfl
  | cons member rest inductionHypothesis =>
    have tail := inductionHypothesis
      (fun member inside => found member (List.mem_cons_of_mem _ inside))
      (fun member inside => each member (List.mem_cons_of_mem _ inside))
      (fun member inside => integer member (List.mem_cons_of_mem _ inside))
    have head : writeMember member.1 (values.lookup member.1) =
        .ok (Value.memberText (Value.sortMember Utf16Le member)) := by
      rw [found member List.mem_cons_self, writeMember,
        (each member List.mem_cons_self).1 (integer member List.mem_cons_self), writeString_eq]
      rfl
    rw [List.map_cons, List.mapM_cons, head, tail]
    rfl

theorem writeMembers_error (members : List (String × Value))
    (values : List (String × CryptoResult (List Char)))
    (found : ∀ member ∈ members, values.lookup member.1 = some (writeValue member.2))
    (each : ∀ member ∈ members, WritesSorted member.2)
    (float : ∃ member ∈ members, ¬ member.2.IntegerOnly) :
    ∃ detail, (members.map Prod.fst).mapM (fun key => writeMember key (values.lookup key)) =
      .error (.canonicalization detail) := by
  induction members with
  | nil =>
    obtain ⟨member, inside, -⟩ := float
    cases inside
  | cons member rest inductionHypothesis =>
    have head := found member List.mem_cons_self
    by_cases integer : member.2.IntegerOnly
    · obtain ⟨other, inside, float⟩ := float
      have inRest : other ∈ rest := by
        rcases List.mem_cons.mp inside with rfl | inRest
        · exact absurd integer float
        · exact inRest
      obtain ⟨detail, tail⟩ := inductionHypothesis
        (fun member inside => found member (List.mem_cons_of_mem _ inside))
        (fun member inside => each member (List.mem_cons_of_mem _ inside)) ⟨other, inRest, float⟩
      rw [List.map_cons, List.mapM_cons, head, writeMember,
        (each member List.mem_cons_self).1 integer, tail]
      exact ⟨detail, rfl⟩
    · obtain ⟨detail, refused⟩ := (each member List.mem_cons_self).2 integer
      rw [List.map_cons, List.mapM_cons, head, writeMember, refused]
      exact ⟨detail, rfl⟩

/-- In the sorted listing of an object, the lookup of a key finds the value written for it. -/
theorem found_in_sorted (members : List (String × Value))
    (unique : (members.map Prod.fst).Nodup) :
    ∀ member ∈ members.insertionSort (fun a b => Utf16Le a.1 b.1),
      (writeEach members).lookup member.1 = some (writeValue member.2) := by
  intro member inside
  have inMembers := (List.perm_insertionSort _ members).mem_iff.mp inside
  rw [writeEach_eq]
  refine lookup_of_mem _ ?_ (member.1, writeValue member.2) (List.mem_map_of_mem inMembers)
  rw [List.map_map]
  exact unique

/-- The canonical text is the compact text of the sorted document; a document with another
number somewhere is refused. -/
theorem writesSorted (value : Value) (unique : value.UniqueKeys) : WritesSorted value := by
  induction value with
  | null => exact ⟨fun _ => rfl, fun float => absurd Value.integerOnly_null float⟩
  | bool value =>
    refine ⟨fun _ => ?_, fun float => absurd (Value.integerOnly_bool value) float⟩
    cases value <;> rfl
  | number value =>
    cases value with
    | posInt value => exact ⟨fun _ => rfl, fun float => absurd (Value.integerOnly_posInt _) float⟩
    | negInt value negative =>
      exact ⟨fun _ => rfl, fun float => absurd (Value.integerOnly_negInt _ negative) float⟩
    | float text =>
      exact ⟨fun integer => absurd integer (Value.not_integerOnly_float text), fun _ => ⟨_, rfl⟩⟩
  | string value =>
    refine ⟨fun _ => ?_, fun float => absurd (Value.integerOnly_string value) float⟩
    rw [writeValue, writeString_eq]
    rfl
  | array items each =>
    rw [Value.uniqueKeys_array] at unique
    have items' := fun item member => each item member (unique item member)
    constructor
    · intro integer
      rw [Value.integerOnly_array] at integer
      rw [writeValue, writeItems_ok items items' integer, Value.sortMembers_array,
        Value.text_array]
      rfl
    · intro float
      rw [Value.integerOnly_array] at float
      obtain ⟨detail, refused⟩ := writeItems_error items items' (by simpa using float)
      rw [writeValue, refused]
      exact ⟨detail, rfl⟩
  | object members each =>
    rw [Value.uniqueKeys_object] at unique
    have sorted : ∀ member ∈ members.insertionSort (fun a b => Utf16Le a.1 b.1),
        WritesSorted member.2 := fun member inside =>
      have inMembers := (List.perm_insertionSort _ members).mem_iff.mp inside
      each member inMembers (unique.2 member inMembers)
    have found := found_in_sorted members unique.1
    constructor
    · intro integer
      rw [Value.integerOnly_object] at integer
      have written := writeMembers_ok _ _ found sorted fun member inside =>
        integer member ((List.perm_insertionSort _ members).mem_iff.mp inside)
      rw [writeValue, sortedKeys_eq]
      simp only [written, Value.sortMembers_object, Value.text_object, sortedMembers_eq]
      rfl
    · intro float
      rw [Value.integerOnly_object] at float
      simp only [not_forall] at float
      obtain ⟨member, inside, float⟩ := float
      obtain ⟨detail, refused⟩ := writeMembers_error _ _ found sorted
        ⟨member, (List.perm_insertionSort _ members).mem_iff.mpr inside, float⟩
      rw [writeValue, sortedKeys_eq]
      simp only [refused]
      exact ⟨detail, rfl⟩

/-- What `canonicalize` accepts, and the bytes it gives. -/
theorem canonicalize_ok_iff (value : Value) (unique : value.UniqueKeys) (bytes : List UInt8) :
    canonicalize value = .ok bytes ↔
      value.IntegerOnly ∧ bytes = utf8 (value.sortMembers Utf16Le).text := by
  have written := writesSorted value unique
  by_cases integer : value.IntegerOnly
  · rw [canonicalize, written.1 integer]
    constructor
    · intro same
      exact ⟨integer, (Except.ok.inj same).symm⟩
    · rintro ⟨-, rfl⟩
      rfl
  · obtain ⟨detail, refused⟩ := written.2 integer
    rw [canonicalize, refused]
    constructor
    · intro same
      cases same
    · rintro ⟨accepted, -⟩
      exact absurd accepted integer

theorem canonicalize_of_integerOnly (value : Value) (unique : value.UniqueKeys)
    (integer : value.IntegerOnly) :
    canonicalize value = .ok (utf8 (value.sortMembers Utf16Le).text) :=
  (canonicalize_ok_iff value unique _).mpr ⟨integer, rfl⟩

/-! ### The canonical signing seam -/

/-- The eight little-endian bytes of a timestamp. -/
def toLeBytes (timestamp : Int64) : List UInt8 :=
  (List.range 8).map fun k => UInt8.ofNat (timestamp.toUInt64.toNat / 256 ^ k)

/-- The exact message signed and verified for a payload: its canonical form, a zero byte, and
the timestamp. -/
def canonicalMessage (params : Value) (timestamp : Int64) : CryptoResult (List UInt8) := do
  let message ← canonicalize params
  return message ++ [0] ++ toLeBytes timestamp

/-- Sign a payload's canonical form bound to `timestamp`. -/
def signPayload (primitives : Primitives) (identity : Identity) (params : Value)
    (timestamp : Int64) : CryptoResult SignatureBytes := do
  let message ← canonicalMessage params timestamp
  return identity.signBytes primitives message

/-- Verify a payload signature against its canonical form and timestamp. -/
def verifyPayload (primitives : Primitives) (publicKey : PublicKeyBytes) (params : Value)
    (timestamp : Int64) (signature : SignatureBytes) : CryptoResult Unit := do
  let message ← canonicalMessage params timestamp
  verifyBytes primitives publicKey message signature.1

/-! ### What the message binds -/

theorem length_toLeBytes (timestamp : Int64) : (toLeBytes timestamp).length = 8 := by
  rw [toLeBytes, List.length_map, List.length_range]

/-- The lowest digits of a number determine it up to a power of the base. -/
theorem mod_pow_eq_of_digits (base count first second : Nat)
    (digits : ∀ k < count, first / base ^ k % base = second / base ^ k % base) :
    first % base ^ count = second % base ^ count := by
  induction count with
  | zero => rw [Nat.pow_zero, Nat.mod_one, Nat.mod_one]
  | succ count inductionHypothesis =>
    have lower := inductionHypothesis fun k small => digits k (Nat.lt_succ_of_lt small)
    rw [Nat.mod_pow_succ, Nat.mod_pow_succ, lower, digits count (Nat.lt_succ_self count)]

/-- The bytes determine the timestamp. -/
theorem toLeBytes_injective : Function.Injective toLeBytes := by
  intro first second same
  have digits : ∀ k < 8, first.toUInt64.toNat / 256 ^ k % 256 =
      second.toUInt64.toNat / 256 ^ k % 256 := by
    intro k small
    have byte := congrArg UInt8.toNat
      (List.map_inj_left.mp same k (List.mem_range.mpr small))
    rwa [UInt8.toNat_ofNat', UInt8.toNat_ofNat'] at byte
  have equal := mod_pow_eq_of_digits 256 8 _ _ digits
  rw [(by decide : 256 ^ 8 = 2 ^ 64), Nat.mod_eq_of_lt first.toUInt64.toNat_lt,
    Nat.mod_eq_of_lt second.toUInt64.toNat_lt] at equal
  cases first
  cases second
  exact congrArg Int64.ofUInt64 (UInt64.toNat_inj.mp equal)

/-- The canonical form has no control byte, so no zero byte. -/
theorem canonicalize_ge (value : Value) (unique : value.UniqueKeys) (bytes : List UInt8)
    (canonical : canonicalize value = .ok bytes) : ∀ byte ∈ bytes, 0x20 ≤ byte := by
  obtain ⟨integer, rfl⟩ := (canonicalize_ok_iff value unique bytes).mp canonical
  exact utf8_ge _ (text_printable _ ((Value.integerOnly_sortMembers _ value).mpr integer))

/-- The canonical form determines the document, up to the order of members. -/
theorem canonicalize_eq_iff (p q : Value) (uniqueP : p.UniqueKeys) (uniqueQ : q.UniqueKeys)
    (bytesP bytesQ : List UInt8) (canonicalP : canonicalize p = .ok bytesP)
    (canonicalQ : canonicalize q = .ok bytesQ) : bytesP = bytesQ ↔ p.SameUpToOrder q := by
  obtain ⟨integerP, rfl⟩ := (canonicalize_ok_iff p uniqueP bytesP).mp canonicalP
  obtain ⟨integerQ, rfl⟩ := (canonicalize_ok_iff q uniqueQ bytesQ).mp canonicalQ
  rw [Value.sameUpToOrder_iff Utf16Le p q uniqueP]
  constructor
  · intro same
    exact text_injective ((Value.integerOnly_sortMembers _ p).mpr integerP)
      ((Value.integerOnly_sortMembers _ q).mpr integerQ) (utf8_injective same)
  · intro same
    rw [same]

/-- Documents equal up to the order of members have one canonical form. -/
theorem canonicalize_of_same (p q : Value) (uniqueP : p.UniqueKeys) (uniqueQ : q.UniqueKeys)
    (same : p.SameUpToOrder q) (bytes : List UInt8) (canonical : canonicalize p = .ok bytes) :
    canonicalize q = .ok bytes := by
  rw [Value.sameUpToOrder_iff Utf16Le p q uniqueP] at same
  rw [canonicalize_ok_iff p uniqueP, ← Value.integerOnly_sortMembers Utf16Le, same] at canonical
  rwa [canonicalize_ok_iff q uniqueQ, ← Value.integerOnly_sortMembers Utf16Le]

/-- A message has its canonical part and its timestamp in one way only. -/
theorem message_inj (first second : List UInt8) (t u : Int64) :
    first ++ [0] ++ toLeBytes t = second ++ [0] ++ toLeBytes u ↔ first = second ∧ t = u := by
  rw [List.append_assoc, List.append_assoc]
  constructor
  · intro same
    have tails : ([0] ++ toLeBytes t).length = ([0] ++ toLeBytes u).length := by
      rw [List.length_append, List.length_append, length_toLeBytes, length_toLeBytes]
    obtain ⟨bodies, stamps⟩ := List.append_inj' same tails
    exact ⟨bodies, toLeBytes_injective (List.append_cancel_left stamps)⟩
  · rintro ⟨rfl, rfl⟩
    rfl

theorem canonicalMessage_ok_iff (params : Value) (timestamp : Int64) (message : List UInt8) :
    canonicalMessage params timestamp = .ok message ↔
      ∃ body, canonicalize params = .ok body ∧ message = body ++ [0] ++ toLeBytes timestamp := by
  rw [canonicalMessage]
  cases canonicalize params with
  | error refusal =>
    constructor
    · intro same
      cases same
    · rintro ⟨body, same, -⟩
      cases same
  | ok body =>
    constructor
    · intro same
      exact ⟨body, rfl, (Except.ok.inj same).symm⟩
    · rintro ⟨body, same, rfl⟩
      cases same
      rfl

/-- The first zero byte of a message is its separator. -/
theorem idxOf_separator (body : List UInt8) (printable : ∀ byte ∈ body, 0x20 ≤ byte)
    (timestamp : Int64) : (body ++ [0] ++ toLeBytes timestamp).idxOf 0 = body.length := by
  have noZero : (0 : UInt8) ∉ body := fun member => absurd (printable 0 member) (by decide)
  rw [List.append_assoc, List.idxOf_append_of_notMem noZero, List.singleton_append,
    List.idxOf_cons_self, Nat.add_zero]

/-- Two messages are equal exactly for one timestamp and one document up to the order of object
members at every depth. The canonical part has no byte below a space, so the first zero byte is
the separator, and exactly the eight timestamp bytes follow it. -/
theorem canonicalMessage_binding (p q : Value) (t u : Int64) (uniqueP : p.UniqueKeys)
    (uniqueQ : q.UniqueKeys) (messageP messageQ : List UInt8)
    (signedP : canonicalMessage p t = .ok messageP)
    (signedQ : canonicalMessage q u = .ok messageQ) :
    (messageP = messageQ ↔ t = u ∧ p.SameUpToOrder q) ∧
      ∃ body, canonicalize p = .ok body ∧ (∀ byte ∈ body, 0x20 ≤ byte) ∧
        messageP.idxOf 0 = body.length ∧ messageP.take body.length = body ∧
        messageP.drop (body.length + 1) = toLeBytes t ∧ (toLeBytes t).length = 8 := by
  obtain ⟨bodyP, canonicalP, rfl⟩ := (canonicalMessage_ok_iff p t messageP).mp signedP
  obtain ⟨bodyQ, canonicalQ, rfl⟩ := (canonicalMessage_ok_iff q u messageQ).mp signedQ
  have printableP := canonicalize_ge p uniqueP bodyP canonicalP
  have equal := canonicalize_eq_iff p q uniqueP uniqueQ bodyP bodyQ canonicalP canonicalQ
  refine ⟨?_, bodyP, canonicalP, printableP, idxOf_separator bodyP printableP t, ?_, ?_,
    length_toLeBytes t⟩
  · rw [message_inj, equal, and_comm]
  · rw [List.append_assoc, List.take_left]
  · rw [List.drop_left' (by rw [List.length_append, List.length_singleton])]

/-- Two listings of one object sign alike at one instant. -/
theorem canonicalMessage_binding_reordered :
    let p := Value.object [("b", .array [.bool true]), ("a", .number (.posInt 1))]
    let q := Value.object [("a", .number (.posInt 1)), ("b", .array [.bool true])]
    let message := utf8 "\x7b\"a\":1,\"b\":[true]\x7d".toList ++ [0] ++ toLeBytes 7
    (message = message ↔ (7 : Int64) = 7 ∧ p.SameUpToOrder q) ∧
      ∃ body, canonicalize p = .ok body ∧ (∀ byte ∈ body, 0x20 ≤ byte) ∧
        message.idxOf 0 = body.length ∧ message.take body.length = body ∧
        message.drop (body.length + 1) = toLeBytes 7 ∧ (toLeBytes 7).length = 8 :=
  canonicalMessage_binding _ _ 7 7 (by simp) (by simp) _ _ rfl rfl

/-! ### Reading the canonical form back -/

/-- What is refused is a document with a number that is no 64-bit integer. -/
theorem canonicalize_error_iff (value : Value) (unique : value.UniqueKeys) :
    (∃ refusal, canonicalize value = .error refusal) ↔
      ∃ number ∈ value.numbers, number.asU64 = none ∧ number.asI64 = none := by
  have accepted := canonicalize_ok_iff value unique
  have integers : ¬ value.IntegerOnly ↔
      ∃ number ∈ value.numbers, number.asU64 = none ∧ number.asI64 = none := by
    rw [Value.integerOnly_iff_numbers]
    simp only [Value.integerOnly_number_iff, not_forall, not_not, exists_prop]
  rw [← integers]
  cases outcome : canonicalize value with
  | ok bytes =>
    have integer := ((accepted bytes).mp outcome).1
    refine ⟨?_, fun float => absurd integer float⟩
    rintro ⟨refusal, refused⟩
    cases refused
  | error refusal =>
    refine ⟨fun _ integer => ?_, fun _ => ⟨refusal, rfl⟩⟩
    have same := (accepted _).mpr ⟨integer, rfl⟩
    rw [outcome] at same
    cases same

/-- Exactly the documents with another number somewhere are refused. What is written for the others
is the UTF-8 form of a text that a strict reader takes whole, back to the same document up to the
order of object members, and that document has the same canonical form. -/
theorem canonicalize_reads_back (value : Value) (unique : value.UniqueKeys) :
    ((∃ refusal, canonicalize value = .error refusal) ↔
      ∃ number ∈ value.numbers, number.asU64 = none ∧ number.asI64 = none) ∧
    ∀ bytes, canonicalize value = .ok bytes →
      ∃ text parsed, bytes = utf8 text ∧ Json.read text = some parsed ∧
        value.SameUpToOrder parsed ∧ canonicalize parsed = .ok bytes := by
  refine ⟨canonicalize_error_iff value unique, fun bytes canonical => ?_⟩
  obtain ⟨integer, rfl⟩ := (canonicalize_ok_iff value unique bytes).mp canonical
  have sorted : value.SameUpToOrder (value.sortMembers Utf16Le) := by
    rw [Value.sameUpToOrder_iff Utf16Le _ _ unique, Value.sortMembers_sortMembers]
  refine ⟨(value.sortMembers Utf16Le).text, value.sortMembers Utf16Le, rfl, ?_, sorted, ?_⟩
  · exact Json.read_text _ ((Value.integerOnly_sortMembers _ value).mpr integer)
  · exact canonicalize_of_same value _ unique (Value.uniqueKeys_sortMembers _ value unique) sorted _
      canonical

/-- Of a document with members out of order and a nested negative number. -/
theorem canonicalize_reads_back_reordered :
    let value := Value.object [("b", .array [.number (.negInt (-1) (by decide))]), ("a", .null)]
    ((∃ refusal, canonicalize value = .error refusal) ↔
      ∃ number ∈ value.numbers, number.asU64 = none ∧ number.asI64 = none) ∧
    ∀ bytes, canonicalize value = .ok bytes →
      ∃ text parsed, bytes = utf8 text ∧ Json.read text = some parsed ∧
        value.SameUpToOrder parsed ∧ canonicalize parsed = .ok bytes :=
  canonicalize_reads_back _ (by simp)

end Hammurabi
