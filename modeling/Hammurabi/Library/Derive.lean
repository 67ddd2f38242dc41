/-
This file is the field-by-field reading and writing of records as JSON documents.

A record is written as an object that lists its fields under their names. It is
read from an object that has every required field exactly once, whatever else the
object has; or from an array that lists the fields by position. An absent optional
field reads as null.
-/

import Mathlib.Algebra.Ring.Nat
import Hammurabi.Library.Json

namespace Json

/-! ### Scalars -/

def Value.ofUInt64 (value : UInt64) : Value := .number (.posInt value)

def Value.ofInt64 (value : Int64) : Value :=
  if negative : value < 0 then .number (.negInt value negative)
  else .number (.posInt value.toUInt64)

def readUInt64 : Value → Option UInt64
  | .number (.posInt value) => some value
  | _ => none

def readInt64 : Value → Option Int64
  | .number (.posInt value) => if value.toNat < 2 ^ 63 then some value.toInt64 else none
  | .number (.negInt value _) => some value
  | _ => none

theorem asStr_eq_some_iff (value : Value) (text : String) :
    value.asStr = some text ↔ value = .string text := by
  cases value <;> simp [Value.asStr]

theorem readUInt64_eq_some_iff (value : Value) (number : UInt64) :
    readUInt64 value = some number ↔ value = .ofUInt64 number := by
  constructor
  · intro read
    unfold readUInt64 at read
    split at read
    · rw [← Option.some.inj read, Value.ofUInt64]
    · cases read
  · rintro rfl
    rfl

@[simp] theorem readUInt64_ofUInt64 (value : UInt64) :
    readUInt64 (.ofUInt64 value) = some value := rfl

@[simp] theorem readInt64_ofInt64 (value : Int64) : readInt64 (.ofInt64 value) = some value := by
  unfold Value.ofInt64
  split
  · rfl
  · rename_i nonnegative
    have small : value.toUInt64.toNat < 2 ^ 63 := by
      have high := Int64.toInt_lt value
      have clamped : value.toUInt64.toNat = value.toInt.toNat :=
        Int64.toNat_toUInt64_of_le (Int64.not_lt.mp nonnegative)
      omega
    rw [readInt64, if_pos small]
    rfl

theorem integerOnly_ofInt64 (value : Int64) : (Value.ofInt64 value).IntegerOnly := by
  unfold Value.ofInt64
  split
  · exact Value.integerOnly_negInt _ _
  · exact Value.integerOnly_posInt _

theorem uniqueKeys_ofInt64 (value : Int64) : (Value.ofInt64 value).UniqueKeys := by
  unfold Value.ofInt64
  split
  · exact Value.uniqueKeys_number _
  · exact Value.uniqueKeys_number _

theorem depth_ofInt64 (value : Int64) : (Value.ofInt64 value).depth = 0 := by
  unfold Value.ofInt64
  split
  · rfl
  · rfl

/-! ### Records -/

/-- A field of a record: its name, and what is read in its place when it is absent, if it may
be. -/
structure Field where
  name : String
  absent : Option Value

def Field.required (name : String) : Field := ⟨name, none⟩

def Field.optional (name : String) : Field := ⟨name, some .null⟩

/-- What an object has under a field's name; a repeated field is refused. -/
def readField (members : List (String × Value)) (field : Field) : Option Value :=
  match members.filter fun member => member.1 = field.name with
  | [] => field.absent
  | [member] => some member.2
  | _ => none

/-- The fields by position; optional ones may be missing at the end. -/
def readPositions : List Field → List Value → Option (List Value)
  | [], [] => some []
  | [], _ :: _ => none
  | field :: fields, [] => do
    let value ← field.absent
    let values ← readPositions fields []
    return value :: values
  | _ :: fields, item :: items => do
    let values ← readPositions fields items
    return item :: values

/-- The values of a record's fields, in the order of the fields. -/
def readRecord (fields : List Field) : Value → Option (List Value)
  | .object members => fields.mapM (readField members)
  | .array items => readPositions fields items
  | _ => none

/-- With unique keys, a field reads as what the object has under its name. -/
theorem readField_eq_lookup (members : List (String × Value))
    (unique : (members.map Prod.fst).Nodup) (field : Field) :
    readField members field = (members.lookup field.name).or field.absent := by
  induction members with
  | nil => rfl
  | cons member rest inductionHypothesis =>
    rw [List.map_cons, List.nodup_cons] at unique
    rw [readField, List.lookup_cons]
    by_cases same : member.1 = field.name
    · have alone : rest.filter (fun other => other.1 = field.name) = [] := by
        refine List.filter_eq_nil_iff.mpr fun other inRest named => unique.1 ?_
        exact List.mem_map.mpr ⟨other, inRest, (of_decide_eq_true named).trans same.symm⟩
      rw [List.filter_cons_of_pos (by simpa using same), alone, beq_iff_eq.mpr same.symm]
      rfl
    · rw [List.filter_cons_of_neg (by simpa using same), beq_eq_false_iff_ne.mpr (Ne.symm same)]
      exact inductionHypothesis unique.2

theorem readField_of_mem (members : List (String × Value))
    (unique : (members.map Prod.fst).Nodup) (field : Field) (value : Value)
    (inside : (field.name, value) ∈ members) : readField members field = some value := by
  have single : members.filter (fun member => member.1 = field.name) = [(field.name, value)] := by
    induction members with
    | nil => cases inside
    | cons member rest inductionHypothesis =>
      rw [List.map_cons, List.nodup_cons] at unique
      rcases List.mem_cons.mp inside with rfl | inRest
      · rw [List.filter_cons_of_pos (by simp)]
        congr
        refine List.filter_eq_nil_iff.mpr fun other member same => unique.1 ?_
        exact List.mem_map.mpr ⟨other, member, of_decide_eq_true same⟩
      · have different : member.1 ≠ field.name := fun same =>
          unique.1 (same ▸ List.mem_map_of_mem (f := Prod.fst) inRest)
        rw [List.filter_cons_of_neg (by simpa using different)]
        exact inductionHypothesis unique.2 inRest
  rw [readField, single]

/-- A record reads back from the object that lists its fields. -/
theorem readRecord_object (fields : List Field) (members : List (String × Value))
    (unique : (fields.map Field.name).Nodup)
    (names : members.map Prod.fst = fields.map Field.name) :
    readRecord fields (.object members) = some (members.map Prod.snd) := by
  rw [← names] at unique
  rw [readRecord]
  have each : ∀ (fields : List Field) (part : List (String × Value)), part ⊆ members →
      part.map Prod.fst = fields.map Field.name →
      fields.mapM (readField members) = some (part.map Prod.snd) := by
    intro fields part inside names
    induction fields generalizing part with
    | nil =>
      obtain rfl := List.map_eq_nil_iff.mp names
      rfl
    | cons field rest inductionHypothesis =>
      obtain ⟨member, part, rfl⟩ : ∃ member tail, part = member :: tail :=
        List.exists_cons_of_ne_nil (by rintro rfl; cases names)
      rw [List.map_cons, List.map_cons, List.cons.injEq] at names
      have here : readField members field = some member.2 :=
        readField_of_mem members unique field member.2
          (names.1 ▸ inside List.mem_cons_self)
      have tail := inductionHypothesis part
        (fun other member => inside (List.mem_cons_of_mem _ member)) names.2
      rw [List.mapM_cons, here, tail]
      rfl
  exact each fields members (fun _ member => member) names

end Json
