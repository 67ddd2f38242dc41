/-
This file is the data model of JSON documents and their compact text.

A document is a tree of values. An object lists its members; the order of the
list is one arbitrary listing of a map, so the notion of equality that matters is
`SameUpToOrder`, which forgets it at every depth. Sorting the members by any
total, transitive order of the keys that separates distinct keys is a normal form
for that relation, on documents whose objects repeat no key.

The text is the compact one: no insignificant whitespace, minimal escapes, plain
decimal integers. A number that is not a 64-bit integer is carried as its text.
-/

import Mathlib.Data.List.Sort
import Mathlib.Data.List.Forall2
import Hammurabi.Library.Unicode

namespace Json

/-! ### Documents -/

/-- A JSON number: an unsigned or a strictly negative 64-bit integer, or anything else,
carried as the text that displays it. -/
inductive Number where
  | posInt (value : UInt64)
  | negInt (value : Int64) (negative : value < 0)
  | float (text : String)
  deriving DecidableEq, Repr

/-- The number as an unsigned 64-bit integer, if it is one. -/
def Number.asU64 : Number → Option UInt64
  | .posInt value => some value
  | _ => none

/-- The number as a signed 64-bit integer, if it is one. -/
def Number.asI64 : Number → Option Int64
  | .posInt value => if value < 0x8000000000000000 then some value.toInt64 else none
  | .negInt value _ => some value
  | .float _ => none

/-- The size of an integer, without its sign. -/
def Number.magnitude : Number → Nat
  | .posInt value => value.toNat
  | .negInt value _ => value.toInt.natAbs
  | .float _ => 0

/-- A JSON document. -/
inductive Value where
  | null
  | bool (value : Bool)
  | number (value : Number)
  | string (value : String)
  | array (items : List Value)
  | object (members : List (String × Value))
  deriving Repr

namespace Value

/-- Induction on a document, through the items of arrays and the members of objects. -/
@[induction_eliminator]
theorem induction {motive : Value → Prop} (null : motive .null)
    (bool : ∀ value, motive (.bool value)) (number : ∀ value, motive (.number value))
    (string : ∀ value, motive (.string value))
    (array : ∀ items, (∀ item ∈ items, motive item) → motive (.array items))
    (object : ∀ members, (∀ member ∈ members, motive member.2) → motive (.object members))
    (value : Value) : motive value :=
  Value.rec (motive_1 := motive) (motive_2 := fun items => ∀ item ∈ items, motive item)
    (motive_3 := fun members => ∀ member ∈ members, motive member.2)
    (motive_4 := fun member => motive member.2)
    null bool number string array object
    (fun _ none => nomatch none) (fun _ _ head tail => List.forall_mem_cons.mpr ⟨head, tail⟩)
    (fun _ none => nomatch none) (fun _ _ head tail => List.forall_mem_cons.mpr ⟨head, tail⟩)
    (fun _ _ second => second) value

/-! ### Properties at every depth -/

mutual

/-- A property of the nodes of a document holds at every depth. -/
def All (property : Value → Prop) : Value → Prop
  | .array items => property (.array items) ∧ AllItems property items
  | .object members => property (.object members) ∧ AllMembers property members
  | value => property value

def AllItems (property : Value → Prop) : List Value → Prop
  | [] => True
  | item :: rest => item.All property ∧ AllItems property rest

def AllMembers (property : Value → Prop) : List (String × Value) → Prop
  | [] => True
  | (_, value) :: rest => value.All property ∧ AllMembers property rest

end

theorem allItems_iff (property : Value → Prop) (items : List Value) :
    AllItems property items ↔ ∀ item ∈ items, item.All property := by
  induction items with
  | nil => simp [AllItems]
  | cons item rest inductionHypothesis => simp [AllItems, inductionHypothesis]

theorem allMembers_iff (property : Value → Prop) (members : List (String × Value)) :
    AllMembers property members ↔ ∀ member ∈ members, member.2.All property := by
  induction members with
  | nil => simp [AllMembers]
  | cons member rest inductionHypothesis => simp [AllMembers, inductionHypothesis]

@[simp] theorem all_array (property : Value → Prop) (items : List Value) :
    (Value.array items).All property ↔
      property (.array items) ∧ ∀ item ∈ items, item.All property := by
  rw [All, allItems_iff]

@[simp] theorem all_object (property : Value → Prop) (members : List (String × Value)) :
    (Value.object members).All property ↔
      property (.object members) ∧ ∀ member ∈ members, member.2.All property := by
  rw [All, allMembers_iff]

/-- No object of the document repeats a key. -/
def UniqueKeys (value : Value) : Prop :=
  value.All fun
    | .object members => (members.map Prod.fst).Nodup
    | _ => True

/-- Every number of the document is a 64-bit integer. -/
def IntegerOnly (value : Value) : Prop :=
  value.All fun
    | .number (.float _) => False
    | _ => True

@[simp] theorem uniqueKeys_array (items : List Value) :
    (Value.array items).UniqueKeys ↔ ∀ item ∈ items, item.UniqueKeys := by
  simp only [UniqueKeys, all_array, true_and]

@[simp] theorem uniqueKeys_object (members : List (String × Value)) :
    (Value.object members).UniqueKeys ↔
      (members.map Prod.fst).Nodup ∧ ∀ member ∈ members, member.2.UniqueKeys := by
  simp only [UniqueKeys, all_object]

@[simp] theorem integerOnly_array (items : List Value) :
    (Value.array items).IntegerOnly ↔ ∀ item ∈ items, item.IntegerOnly := by
  simp only [IntegerOnly, all_array, true_and]

@[simp] theorem integerOnly_object (members : List (String × Value)) :
    (Value.object members).IntegerOnly ↔ ∀ member ∈ members, member.2.IntegerOnly := by
  simp only [IntegerOnly, all_object, true_and]

@[simp] theorem uniqueKeys_null : Value.null.UniqueKeys := by simp [UniqueKeys, All]
@[simp] theorem uniqueKeys_bool (value : Bool) : (Value.bool value).UniqueKeys := by
  simp [UniqueKeys, All]
@[simp] theorem uniqueKeys_number (value : Number) : (Value.number value).UniqueKeys := by
  simp [UniqueKeys, All]
@[simp] theorem uniqueKeys_string (value : String) : (Value.string value).UniqueKeys := by
  simp [UniqueKeys, All]
@[simp] theorem integerOnly_null : Value.null.IntegerOnly := by simp [IntegerOnly, All]
@[simp] theorem integerOnly_bool (value : Bool) : (Value.bool value).IntegerOnly := by
  simp [IntegerOnly, All]
@[simp] theorem integerOnly_posInt (value : UInt64) :
    (Value.number (.posInt value)).IntegerOnly := by simp [IntegerOnly, All]
@[simp] theorem integerOnly_negInt (value : Int64) (negative : value < 0) :
    (Value.number (.negInt value negative)).IntegerOnly := by simp [IntegerOnly, All]
@[simp] theorem integerOnly_string (value : String) : (Value.string value).IntegerOnly := by
  simp [IntegerOnly, All]
@[simp] theorem not_integerOnly_float (text : String) :
    ¬ (Value.number (.float text)).IntegerOnly := by simp [IntegerOnly, All]

/-! ### The numbers of a document -/

mutual

/-- The numbers of a document, at every depth. -/
def numbers : Value → List Number
  | .number value => [value]
  | .array items => numbersOfItems items
  | .object members => numbersOfMembers members
  | _ => []

def numbersOfItems : List Value → List Number
  | [] => []
  | item :: rest => item.numbers ++ numbersOfItems rest

def numbersOfMembers : List (String × Value) → List Number
  | [] => []
  | (_, value) :: rest => value.numbers ++ numbersOfMembers rest

end

theorem mem_numbersOfItems (items : List Value) (number : Number) :
    number ∈ numbersOfItems items ↔ ∃ item ∈ items, number ∈ item.numbers := by
  induction items with
  | nil => simp [numbersOfItems]
  | cons item rest inductionHypothesis => simp [numbersOfItems, inductionHypothesis]

theorem mem_numbersOfMembers (members : List (String × Value)) (number : Number) :
    number ∈ numbersOfMembers members ↔ ∃ member ∈ members, number ∈ member.2.numbers := by
  induction members with
  | nil => simp [numbersOfMembers]
  | cons member rest inductionHypothesis =>
    simp only [numbersOfMembers, List.mem_append, inductionHypothesis, List.exists_mem_cons_iff]

@[simp] theorem mem_numbers_number (value number : Number) :
    number ∈ (Value.number value).numbers ↔ number = value := by
  rw [numbers, List.mem_singleton]

@[simp] theorem mem_numbers_array (items : List Value) (number : Number) :
    number ∈ (Value.array items).numbers ↔ ∃ item ∈ items, number ∈ item.numbers := by
  rw [numbers, mem_numbersOfItems]

@[simp] theorem mem_numbers_object (members : List (String × Value)) (number : Number) :
    number ∈ (Value.object members).numbers ↔ ∃ member ∈ members, number ∈ member.2.numbers := by
  rw [numbers, mem_numbersOfMembers]

/-- Something holds of every number of an array when it does of every number of each item. -/
theorem forall_numbers_array (property : Number → Prop) (items : List Value) :
    (∀ number ∈ (Value.array items).numbers, property number) ↔
      ∀ item ∈ items, ∀ number ∈ item.numbers, property number := by
  simp only [mem_numbers_array, forall_exists_index, and_imp]
  exact ⟨fun all item member number inside => all number item member inside,
    fun all number item member inside => all item member number inside⟩

theorem forall_numbers_object (property : Number → Prop) (members : List (String × Value)) :
    (∀ number ∈ (Value.object members).numbers, property number) ↔
      ∀ member ∈ members, ∀ number ∈ member.2.numbers, property number := by
  simp only [mem_numbers_object, forall_exists_index, and_imp]
  exact ⟨fun all member inside number within => all number member inside within,
    fun all number member inside within => all member inside number within⟩

theorem integerOnly_number_iff (number : Number) :
    (Value.number number).IntegerOnly ↔ ¬ (number.asU64 = none ∧ number.asI64 = none) := by
  cases number with
  | posInt value => simp [Number.asU64]
  | negInt value negative => simp [Number.asI64]
  | float text => simp [Number.asU64, Number.asI64]

/-- A document is made of integers when each of its numbers is one. -/
theorem integerOnly_iff_numbers (value : Value) :
    value.IntegerOnly ↔ ∀ number ∈ value.numbers, (Value.number number).IntegerOnly := by
  induction value with
  | null => simp [numbers]
  | bool value => simp [numbers]
  | number value => simp
  | string value => simp [numbers]
  | array items each =>
    rw [integerOnly_array, forall_numbers_array]
    exact forall₂_congr each
  | object members each =>
    rw [integerOnly_object, forall_numbers_object]
    exact forall₂_congr each

/-! ### Replacing the numbers -/

section MapNumbers

variable (f : Number → Number)

mutual

/-- A document with each of its numbers replaced. -/
def mapNumbers : Value → Value
  | .number value => .number (f value)
  | .array items => .array (mapNumbersOfItems items)
  | .object members => .object (mapNumbersOfMembers members)
  | value => value

def mapNumbersOfItems : List Value → List Value
  | [] => []
  | item :: rest => item.mapNumbers :: mapNumbersOfItems rest

def mapNumbersOfMembers : List (String × Value) → List (String × Value)
  | [] => []
  | (key, value) :: rest => (key, value.mapNumbers) :: mapNumbersOfMembers rest

end

/-- A member with the numbers of its value replaced. -/
def mapMember (member : String × Value) : String × Value := (member.1, member.2.mapNumbers f)

@[simp] theorem mapNumbers_array (items : List Value) :
    (Value.array items).mapNumbers f = .array (items.map (mapNumbers f)) := by
  have each : mapNumbersOfItems f items = items.map (mapNumbers f) := by
    induction items with
    | nil => rfl
    | cons item rest inductionHypothesis =>
      rw [mapNumbersOfItems, inductionHypothesis, List.map_cons]
  rw [mapNumbers, each]

@[simp] theorem mapNumbers_object (members : List (String × Value)) :
    (Value.object members).mapNumbers f = .object (members.map (mapMember f)) := by
  have each : mapNumbersOfMembers f members = members.map (mapMember f) := by
    induction members with
    | nil => rfl
    | cons member rest inductionHypothesis =>
      rw [mapNumbersOfMembers, inductionHypothesis, List.map_cons, mapMember]
  rw [mapNumbers, each]

/-- The numbers of the new document are the new numbers. -/
theorem forall_numbers_mapNumbers (property : Number → Prop) (value : Value) :
    (∀ number ∈ (value.mapNumbers f).numbers, property number) ↔
      ∀ number ∈ value.numbers, property (f number) := by
  induction value with
  | null => simp [mapNumbers, numbers]
  | bool value => simp [mapNumbers, numbers]
  | number value => simp [mapNumbers]
  | string value => simp [mapNumbers, numbers]
  | array items each =>
    rw [mapNumbers_array, forall_numbers_array, forall_numbers_array, List.forall_mem_map]
    exact forall₂_congr each
  | object members each =>
    rw [mapNumbers_object, forall_numbers_object, forall_numbers_object, List.forall_mem_map]
    exact forall₂_congr each

/-- A list is its own image when each of its elements is. -/
theorem map_eq_self_iff {Element : Type} (g : Element → Element) (list : List Element) :
    list.map g = list ↔ ∀ element ∈ list, g element = element := by
  induction list with
  | nil => simp
  | cons element rest inductionHypothesis =>
    rw [List.map_cons, List.cons.injEq, inductionHypothesis, List.forall_mem_cons]

/-- A document is unchanged exactly when each of its numbers is. -/
theorem mapNumbers_eq_self_iff (value : Value) :
    value.mapNumbers f = value ↔ ∀ number ∈ value.numbers, f number = number := by
  induction value with
  | null => simp [mapNumbers, numbers]
  | bool value => simp [mapNumbers, numbers]
  | number value => simp [mapNumbers]
  | string value => simp [mapNumbers, numbers]
  | array items each =>
    rw [mapNumbers_array, Value.array.injEq, map_eq_self_iff, forall_numbers_array]
    exact forall₂_congr each
  | object members each =>
    rw [mapNumbers_object, Value.object.injEq, map_eq_self_iff, forall_numbers_object]
    refine forall₂_congr fun member inside => ?_
    rw [← each member inside, mapMember]
    exact (Prod.mk.injEq ..).to_iff.trans (and_iff_right rfl)

end MapNumbers

/-! ### Depth -/

mutual

/-- How deep arrays and objects are nested. -/
def depth : Value → Nat
  | .array items => depthItems items + 1
  | .object members => depthMembers members + 1
  | _ => 0

def depthItems : List Value → Nat
  | [] => 0
  | item :: rest => max item.depth (depthItems rest)

def depthMembers : List (String × Value) → Nat
  | [] => 0
  | (_, value) :: rest => max value.depth (depthMembers rest)

end

/-! ### Reading an object -/

/-- The value an object holds under a key; the first one if the listing repeats the key. -/
def get (value : Value) (key : String) : Option Value :=
  match value with
  | .object members => members.lookup key
  | _ => none

/-- Put a member into an object's listing, in place of the one under its key if there is one. -/
def insertMember (members : List (String × Value)) (key : String) (value : Value) :
    List (String × Value) :=
  (key, value) :: members.filter fun member => member.1 ≠ key

theorem uniqueKeys_insertMember (members : List (String × Value)) (key : String) (value : Value)
    (unique : (Value.object members).UniqueKeys) (uniqueValue : value.UniqueKeys) :
    (Value.object (insertMember members key value)).UniqueKeys := by
  rw [uniqueKeys_object] at unique ⊢
  rw [insertMember, List.map_cons, List.nodup_cons, List.forall_mem_cons]
  refine ⟨⟨?_, unique.1.sublist (List.filter_sublist.map Prod.fst)⟩, uniqueValue, ?_⟩
  · intro member
    obtain ⟨other, kept, same⟩ := List.mem_map.mp member
    exact of_decide_eq_true (List.mem_filter.mp kept).2 same
  · exact fun member kept => unique.2 member (List.mem_filter.mp kept).1

/-- The text of a string value. -/
def asStr : Value → Option String
  | .string value => some value
  | _ => none

@[simp] theorem asStr_string (value : String) : (Value.string value).asStr = some value := rfl

/-- The items of an array. -/
def asArray : Value → Option (List Value)
  | .array items => some items
  | _ => none

/-- A number value as an unsigned 64-bit integer, if it is one. -/
def asU64 : Value → Option UInt64
  | .number held => held.asU64
  | _ => none

/-! ### Equality up to the order of members -/

mutual

/-- Two documents are equal up to the order of object members at every depth. -/
def SameUpToOrder : Value → Value → Prop
  | .array items, other => ∃ items', other = .array items' ∧ SameItems items items'
  | .object members, other => ∃ members', other = .object members' ∧ SameMembers members members'
  | value, other => other = value

/-- Item by item. -/
def SameItems : List Value → List Value → Prop
  | [], others => others = []
  | item :: rest, others => ∃ item' rest', others = item' :: rest' ∧
      item.SameUpToOrder item' ∧ SameItems rest rest'

/-- Member by member, each member finding its partner anywhere in the other listing. -/
def SameMembers : List (String × Value) → List (String × Value) → Prop
  | [], others => others = []
  | (key, value) :: rest, others => ∃ front value' back, others = front ++ (key, value') :: back ∧
      value.SameUpToOrder value' ∧ SameMembers rest (front ++ back)

end

/-! ### Sorting the members -/

section Sorting

variable (le : String → String → Prop) [DecidableRel le]

mutual

/-- A document with the members of every object listed in key order. -/
def sortMembers : Value → Value
  | .array items => .array (sortItems items)
  | .object members => .object ((sortEach members).insertionSort fun first second =>
      le first.1 second.1)
  | value => value

def sortItems : List Value → List Value
  | [] => []
  | item :: rest => item.sortMembers :: sortItems rest

def sortEach : List (String × Value) → List (String × Value)
  | [] => []
  | (key, value) :: rest => (key, value.sortMembers) :: sortEach rest

end

/-- A member with its value sorted. -/
def sortMember (member : String × Value) : String × Value :=
  (member.1, member.2.sortMembers le)

theorem sortItems_eq (items : List Value) :
    sortItems le items = items.map (sortMembers le) := by
  induction items with
  | nil => rfl
  | cons item rest inductionHypothesis => rw [sortItems, inductionHypothesis, List.map_cons]

theorem sortEach_eq (members : List (String × Value)) :
    sortEach le members = members.map (sortMember le) := by
  induction members with
  | nil => rfl
  | cons member rest inductionHypothesis =>
    rw [sortEach, inductionHypothesis, List.map_cons, sortMember]

@[simp] theorem sortMembers_array (items : List Value) :
    (Value.array items).sortMembers le = .array (items.map (sortMembers le)) := by
  rw [sortMembers, sortItems_eq]

@[simp] theorem sortMembers_object (members : List (String × Value)) :
    (Value.object members).sortMembers le =
      .object ((members.map (sortMember le)).insertionSort fun first second =>
        le first.1 second.1) := by
  rw [sortMembers, sortEach_eq]

/-- Sorting moves the numbers of a document, and keeps them. -/
theorem forall_numbers_sortMembers (property : Number → Prop) (value : Value) :
    (∀ number ∈ (value.sortMembers le).numbers, property number) ↔
      ∀ number ∈ value.numbers, property number := by
  induction value with
  | null => rfl
  | bool value => rfl
  | number value => rfl
  | string value => rfl
  | array items each =>
    rw [sortMembers_array, forall_numbers_array, forall_numbers_array, List.forall_mem_map]
    exact forall₂_congr each
  | object members each =>
    rw [sortMembers_object, forall_numbers_object, forall_numbers_object]
    simp only [(List.perm_insertionSort _ _).mem_iff, List.forall_mem_map]
    exact forall₂_congr each

theorem integerOnly_sortMembers (value : Value) :
    (value.sortMembers le).IntegerOnly ↔ value.IntegerOnly := by
  rw [integerOnly_iff_numbers, forall_numbers_sortMembers, ← integerOnly_iff_numbers]

/-- Sorting and replacing numbers do not depend on each other. -/
theorem sortMembers_mapNumbers (f : Number → Number) (value : Value) :
    (value.mapNumbers f).sortMembers le = (value.sortMembers le).mapNumbers f := by
  induction value with
  | null => rfl
  | bool value => rfl
  | number value => rfl
  | string value => rfl
  | array items each =>
    rw [mapNumbers_array, sortMembers_array, sortMembers_array, mapNumbers_array, List.map_map,
      List.map_map]
    exact congrArg Value.array (List.map_congr_left each)
  | object members each =>
    have both : members.map (sortMember le ∘ mapMember f) =
        members.map (mapMember f ∘ sortMember le) :=
      List.map_congr_left fun member inside => congrArg (Prod.mk member.1) (each member inside)
    rw [mapNumbers_object, sortMembers_object, sortMembers_object, mapNumbers_object,
      List.map_insertionSort (fun a b => le a.1 b.1) (fun a b => le a.1 b.1) (mapMember f) _
        fun _ _ _ _ => Iff.rfl,
      List.map_map, List.map_map, both]

/-- Orders that agree sort alike. -/
theorem sortMembers_congr (le' : String → String → Prop) [DecidableRel le']
    (same : ∀ a b, le a b ↔ le' a b) (value : Value) :
    value.sortMembers le = value.sortMembers le' := by
  obtain rfl : le = le' := funext fun a => funext fun b => propext (same a b)
  congr

/-- Sorting repeats no key that was not repeated. -/
theorem uniqueKeys_sortMembers (value : Value) (unique : value.UniqueKeys) :
    (value.sortMembers le).UniqueKeys := by
  induction value with
  | null => exact unique
  | bool value => exact unique
  | number value => exact unique
  | string value => exact unique
  | array items each =>
    rw [uniqueKeys_array] at unique
    rw [sortMembers_array, uniqueKeys_array, List.forall_mem_map]
    exact fun item member => each item member (unique item member)
  | object members each =>
    rw [uniqueKeys_object] at unique
    rw [sortMembers_object, uniqueKeys_object]
    constructor
    · rw [((List.perm_insertionSort _ _).map Prod.fst).nodup_iff, List.map_map]
      exact unique.1
    · simp only [(List.perm_insertionSort _ _).mem_iff, List.forall_mem_map]
      exact fun member inside => each member inside (unique.2 member inside)

theorem sameItems_of_map_eq (items : List Value)
    (each : ∀ item ∈ items, ∀ other : Value, item.sortMembers le = other.sortMembers le →
      item.SameUpToOrder other)
    (others : List Value) (same : items.map (sortMembers le) = others.map (sortMembers le)) :
    SameItems items others := by
  induction items generalizing others with
  | nil => exact List.map_eq_nil_iff.mp same.symm
  | cons item rest inductionHypothesis =>
    obtain ⟨other, others, rfl⟩ : ∃ other tail, others = other :: tail :=
      List.exists_cons_of_ne_nil (by rintro rfl; cases same)
    rw [List.map_cons, List.map_cons, List.cons.injEq] at same
    exact ⟨other, others, rfl, each item List.mem_cons_self other same.1,
      inductionHypothesis (fun item member => each item (List.mem_cons_of_mem _ member)) others
        same.2⟩

theorem sameMembers_of_map_perm (members : List (String × Value))
    (each : ∀ member ∈ members, ∀ other : Value,
      member.2.sortMembers le = other.sortMembers le → member.2.SameUpToOrder other)
    (others : List (String × Value))
    (same : (members.map (sortMember le)).Perm (others.map (sortMember le))) :
    SameMembers members others := by
  induction members generalizing others with
  | nil => exact List.map_eq_nil_iff.mp same.nil_eq.symm
  | cons member rest inductionHypothesis =>
    obtain ⟨key, value⟩ := member
    have paired : sortMember le (key, value) ∈ others.map (sortMember le) :=
      same.mem_iff.mp (by rw [List.map_cons]; exact List.mem_cons_self)
    obtain ⟨⟨key', value'⟩, member', equal⟩ := List.mem_map.mp paired
    obtain ⟨front, back, rfl⟩ := List.append_of_mem member'
    simp only [sortMember, Prod.mk.injEq] at equal
    obtain ⟨rfl, equal⟩ := equal
    refine ⟨front, value', back, rfl, each _ List.mem_cons_self value' equal.symm, ?_⟩
    refine inductionHypothesis (fun member inRest => each member (List.mem_cons_of_mem _ inRest))
      (front ++ back) ?_
    have moved := same.trans (List.perm_middle.map (sortMember le))
    rw [List.map_cons, List.map_cons] at moved
    simp only [sortMember, equal] at moved
    exact moved.cons_inv

/-- Documents with one sorted form are equal up to the order of members. -/
theorem sameUpToOrder_of_sortMembers_eq (value other : Value)
    (same : value.sortMembers le = other.sortMembers le) : value.SameUpToOrder other := by
  induction value generalizing other with
  | null => cases other <;> simp_all [sortMembers, SameUpToOrder]
  | bool value => cases other <;> simp_all [sortMembers, SameUpToOrder]
  | number value => cases other <;> simp_all [sortMembers, SameUpToOrder]
  | string value => cases other <;> simp_all [sortMembers, SameUpToOrder]
  | array items each =>
    cases other with
    | array others =>
      rw [sortMembers_array, sortMembers_array, Value.array.injEq] at same
      exact ⟨others, rfl, sameItems_of_map_eq le items each others same⟩
    | _ => simp [sortMembers] at same
  | object members each =>
    cases other with
    | object others =>
      rw [sortMembers_object, sortMembers_object, Value.object.injEq] at same
      have sorted := (List.perm_insertionSort
        (fun a b : String × Value => le a.1 b.1) (members.map (sortMember le))).symm
      rw [same] at sorted
      exact ⟨others, rfl, sameMembers_of_map_perm le members each others
        (sorted.trans (List.perm_insertionSort _ _))⟩
    | _ => simp [sortMembers] at same

theorem map_eq_of_sameItems (items : List Value)
    (each : ∀ item ∈ items, ∀ other : Value, item.SameUpToOrder other →
      item.sortMembers le = other.sortMembers le)
    (others : List Value) (same : SameItems items others) :
    items.map (sortMembers le) = others.map (sortMembers le) := by
  induction items generalizing others with
  | nil => rw [show others = [] from same]
  | cons item rest inductionHypothesis =>
    obtain ⟨item', rest', rfl, head, tail⟩ := same
    rw [List.map_cons, List.map_cons, each item List.mem_cons_self item' head,
      inductionHypothesis (fun item member => each item (List.mem_cons_of_mem _ member)) rest' tail]

theorem map_perm_of_sameMembers (members : List (String × Value))
    (each : ∀ member ∈ members, ∀ other : Value, member.2.SameUpToOrder other →
      member.2.sortMembers le = other.sortMembers le)
    (others : List (String × Value)) (same : SameMembers members others) :
    (members.map (sortMember le)).Perm (others.map (sortMember le)) := by
  induction members generalizing others with
  | nil => rw [show others = [] from same]
  | cons member rest inductionHypothesis =>
    obtain ⟨key, value⟩ := member
    obtain ⟨front, value', back, rfl, head, tail⟩ := same
    have heads : sortMember le (key, value) = sortMember le (key, value') :=
      congrArg (Prod.mk key) (each _ List.mem_cons_self value' head)
    have tails := inductionHypothesis
      (fun member inRest => each member (List.mem_cons_of_mem _ inRest)) (front ++ back) tail
    refine List.Perm.trans ?_ (List.perm_middle.map (sortMember le)).symm
    rw [List.map_cons, List.map_cons, heads]
    exact tails.cons _

variable [Std.Total le] [IsTrans String le]

/-- A sorted document is its own sorted form. -/
theorem sortMembers_sortMembers (value : Value) :
    (value.sortMembers le).sortMembers le = value.sortMembers le := by
  induction value with
  | null => rfl
  | bool value => rfl
  | number value => rfl
  | string value => rfl
  | array items each =>
    rw [sortMembers_array, sortMembers_array, List.map_map]
    exact congrArg Value.array (List.map_congr_left each)
  | object members each =>
    have : Std.Total fun a b : String × Value => le a.1 b.1 := ⟨fun a b => total_of le a.1 b.1⟩
    have : IsTrans (String × Value) fun a b => le a.1 b.1 :=
      ⟨fun _ _ _ => IsTrans.trans (r := le) _ _ _⟩
    have again : members.map (sortMember le ∘ sortMember le) = members.map (sortMember le) :=
      List.map_congr_left fun member inside => congrArg (Prod.mk member.1) (each member inside)
    rw [sortMembers_object, sortMembers_object,
      List.map_insertionSort (fun a b => le a.1 b.1) (fun a b => le a.1 b.1) (sortMember le) _
        fun _ _ _ _ => Iff.rfl,
      List.map_map, again, (List.pairwise_insertionSort _ _).insertionSort_eq]

variable [Std.Antisymm le]

/-- Listing members in key order is a normal form of any listing that repeats no key. -/
theorem insertionSort_eq_of_perm {first second : List (String × Value)}
    (unique : (first.map Prod.fst).Nodup) (perm : first.Perm second) :
    first.insertionSort (fun a b => le a.1 b.1) = second.insertionSort fun a b => le a.1 b.1 := by
  have : Std.Total fun a b : String × Value => le a.1 b.1 := ⟨fun a b => total_of le a.1 b.1⟩
  have : IsTrans (String × Value) fun a b => le a.1 b.1 :=
    ⟨fun _ _ _ => IsTrans.trans (r := le) _ _ _⟩
  have sorted : (first.insertionSort fun a b => le a.1 b.1).Perm
      (second.insertionSort fun a b => le a.1 b.1) :=
    (List.perm_insertionSort _ first).trans (perm.trans (List.perm_insertionSort _ second).symm)
  refine List.Perm.eq_of_pairwise ?_ (List.pairwise_insertionSort _ first)
    (List.pairwise_insertionSort _ second) sorted
  intro a b memberA memberB below above
  have inA := (List.perm_insertionSort _ first).mem_iff.mp memberA
  have inB := perm.mem_iff.mpr ((List.perm_insertionSort _ second).mem_iff.mp memberB)
  exact List.inj_on_of_nodup_map unique inA inB (antisymm (r := le) below above)

/-- Documents equal up to the order of members have one sorted form. -/
theorem sortMembers_eq_of_sameUpToOrder (value other : Value) (unique : value.UniqueKeys)
    (same : value.SameUpToOrder other) : value.sortMembers le = other.sortMembers le := by
  induction value generalizing other with
  | null => rw [show other = .null from same]
  | bool value => rw [show other = .bool value from same]
  | number value => rw [show other = .number value from same]
  | string value => rw [show other = .string value from same]
  | array items each =>
    obtain ⟨others, rfl, same⟩ := same
    rw [uniqueKeys_array] at unique
    rw [sortMembers_array, sortMembers_array, map_eq_of_sameItems le items
      (fun item member other => each item member other (unique item member)) others same]
  | object members each =>
    obtain ⟨others, rfl, same⟩ := same
    rw [uniqueKeys_object] at unique
    have keys : ((members.map (sortMember le)).map Prod.fst).Nodup := by
      rw [List.map_map]
      exact unique.1
    rw [sortMembers_object, sortMembers_object, insertionSort_eq_of_perm le keys
      (map_perm_of_sameMembers le members
        (fun member inside other => each member inside other (unique.2 member inside)) others same)]

end Sorting

/-- Two documents are equal up to the order of members when some order of the keys sorts them
alike; on documents that repeat no key, every total order of the keys decides it. -/
theorem sameUpToOrder_iff (le : String → String → Prop) [DecidableRel le] [Std.Total le]
    [IsTrans String le] [Std.Antisymm le] (value other : Value) (unique : value.UniqueKeys) :
    value.SameUpToOrder other ↔ value.sortMembers le = other.sortMembers le :=
  ⟨sortMembers_eq_of_sameUpToOrder le value other unique,
    sameUpToOrder_of_sortMembers_eq le value other⟩

end Value

end Json
