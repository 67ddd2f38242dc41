/-
This file is about objects that list the same members in another order.

Equality up to order pairs the members of two listings: put in a suitable order, the
second listing is the first one member for member. An object written from a record's
fields is then equal up to order to the object the record was read from exactly when
that one lists nothing but the fields, each with an equal value. What a derived reader
ignores is what a rewritten record loses.
-/

import Hammurabi.Library.Derive

namespace Json

namespace Value

/-! ### Members in another order -/

/-- Two members with one key, and values equal up to order. -/
def SameMember (member other : String × Value) : Prop :=
  member.1 = other.1 ∧ member.2.SameUpToOrder other.2

/-- Two listings have the same members when the second can be put in the order of the first. -/
theorem sameMembers_iff (members others : List (String × Value)) :
    SameMembers members others ↔
      ∃ listed, List.Forall₂ SameMember members listed ∧ listed.Perm others := by
  induction members generalizing others with
  | nil =>
    constructor
    · intro none
      rw [show others = [] from none]
      exact ⟨[], .nil, .refl _⟩
    · rintro ⟨listed, paired, perm⟩
      cases paired
      exact perm.nil_eq.symm
  | cons member rest inductionHypothesis =>
    obtain ⟨key, value⟩ := member
    constructor
    · rintro ⟨front, value', back, rfl, same, others⟩
      obtain ⟨listed, paired, perm⟩ := (inductionHypothesis _).mp others
      exact ⟨(key, value') :: listed, .cons ⟨rfl, same⟩ paired,
        (perm.cons _).trans List.perm_middle.symm⟩
    · rintro ⟨listed, paired, perm⟩
      obtain ⟨⟨key', value'⟩, tail, ⟨rfl, same⟩, pairedTail, rfl⟩ :=
        List.forall₂_cons_left_iff.mp paired
      obtain ⟨front, back, rfl⟩ := List.append_of_mem (perm.mem_iff.mp List.mem_cons_self)
      exact ⟨front, value', back, rfl, same, (inductionHypothesis _).mpr
        ⟨tail, pairedTail, (perm.trans List.perm_middle).cons_inv⟩⟩

theorem sameUpToOrder_object_iff (members others : List (String × Value)) :
    (Value.object members).SameUpToOrder (.object others) ↔
      ∃ listed, List.Forall₂ SameMember members listed ∧ listed.Perm others := by
  rw [← sameMembers_iff]
  constructor
  · rintro ⟨others', same, paired⟩
    cases same
    exact paired
  · exact fun paired => ⟨others, rfl, paired⟩

theorem sameUpToOrder_refl (value : Value) : value.SameUpToOrder value :=
  sameUpToOrder_of_sortMembers_eq (fun _ _ => True) value value rfl

/-- Another order of the members is the same object. -/
theorem sameUpToOrder_object_of_perm (members others : List (String × Value))
    (perm : members.Perm others) : (Value.object members).SameUpToOrder (.object others) :=
  (sameUpToOrder_object_iff members others).mpr
    ⟨members, List.forall₂_same.mpr fun member _ => ⟨rfl, sameUpToOrder_refl member.2⟩, perm⟩

/-- A value that reads as a text, or as an unsigned integer, is the one written for it. -/
theorem sameUpToOrder_of_asStr (value : Value) (text : String) (read : value.asStr = some text) :
    (Value.string text).SameUpToOrder value :=
  (asStr_eq_some_iff value text).mp read

theorem sameUpToOrder_of_readUInt64 (value : Value) (number : UInt64)
    (read : readUInt64 value = some number) : (Value.ofUInt64 number).SameUpToOrder value :=
  (readUInt64_eq_some_iff value number).mp read

/-- What is the same as an object is an object. -/
theorem not_sameUpToOrder_object (members : List (String × Value)) (value : Value)
    (plain : ∀ others, value ≠ .object others) : ¬ (Value.object members).SameUpToOrder value := by
  rintro ⟨others, same, -⟩
  exact plain others same

/-- Only a number is equal to it up to order. -/
theorem eq_number_of_sameUpToOrder (value : Value) (number : Number)
    (same : value.SameUpToOrder (.number number)) : value = .number number := by
  cases value with
  | array items =>
    obtain ⟨items', impossible, -⟩ := same
    cases impossible
  | object members =>
    obtain ⟨members', impossible, -⟩ := same
    cases impossible
  | null => exact same.symm
  | bool value => exact same.symm
  | number value => exact same.symm
  | string value => exact same.symm

/-- The members of the second listing have partners in the first. -/
theorem exists_mem_of_sameUpToOrder (members others : List (String × Value))
    (same : (Value.object members).SameUpToOrder (.object others)) (other : String × Value)
    (inside : other ∈ others) : ∃ member ∈ members, SameMember member other := by
  obtain ⟨listed, paired, perm⟩ := (sameUpToOrder_object_iff members others).mp same
  have inListed := perm.mem_iff.mpr inside
  clear perm same inside
  induction paired with
  | nil => cases inListed
  | cons here rest inductionHypothesis =>
    rcases List.mem_cons.mp inListed with rfl | inRest
    · exact ⟨_, List.mem_cons_self, here⟩
    · obtain ⟨member, inside, partner⟩ := inductionHypothesis inRest
      exact ⟨member, List.mem_cons_of_mem _ inside, partner⟩

end Value

/-! ### Records read in another order -/

/-- A field reads alike from any order of the members. -/
theorem readField_of_perm (first second : List (String × Value)) (perm : first.Perm second)
    (field : Field) : readField first field = readField second field := by
  have filtered := perm.filter fun member => decide (member.1 = field.name)
  rw [readField, readField]
  generalize first.filter (fun member => decide (member.1 = field.name)) = left at filtered ⊢
  generalize second.filter (fun member => decide (member.1 = field.name)) = right at filtered ⊢
  rcases left with - | ⟨member, - | ⟨another, more⟩⟩
  · rw [filtered.nil_eq]
  · rw [← List.singleton_perm.mp filtered]
  -- Both have two members or more, and neither is read.
  · obtain ⟨member', another', more', rfl⟩ : ∃ member' another' more',
        right = member' :: another' :: more' := by
      have lengths := filtered.length_eq
      rcases right with - | ⟨member', - | ⟨another', more'⟩⟩
      · cases lengths
      · cases lengths
      · exact ⟨member', another', more', rfl⟩
    rfl

theorem readRecord_of_perm (fields : List Field) (first second : List (String × Value))
    (perm : first.Perm second) :
    readRecord fields (.object first) = readRecord fields (.object second) := by
  rw [readRecord, readRecord, funext (readField_of_perm first second perm)]

/-- A required field reads as a value when it is the one member under its name. -/
theorem readField_required_iff (members : List (String × Value)) (field : Field)
    (required : field.absent = none) (value : Value) :
    readField members field = some value ↔
      members.filter (fun member => member.1 = field.name) = [(field.name, value)] := by
  have named : ∀ member ∈ members.filter (fun member => member.1 = field.name),
      member.1 = field.name :=
    fun member inside => of_decide_eq_true (List.mem_filter.mp inside).2
  rw [readField]
  generalize members.filter (fun member => decide (member.1 = field.name)) = found at named ⊢
  rcases found with - | ⟨⟨key, held⟩, - | ⟨another, more⟩⟩
  · simp only [required, reduceCtorEq]
  · obtain rfl : key = field.name := named _ List.mem_cons_self
    simp only [Option.some.injEq, List.cons.injEq, Prod.mk.injEq, true_and, and_true]
  · simp only [reduceCtorEq, List.cons.injEq, and_false]

/-- Then it is the only member under its name. -/
theorem mem_iff_of_readField (members : List (String × Value)) (field : Field)
    (required : field.absent = none) (value other : Value)
    (read : readField members field = some value) :
    (field.name, other) ∈ members ↔ other = value := by
  have found := (readField_required_iff members field required value).mp read
  have listed : (field.name, other) ∈ members ↔ (field.name, other) ∈
      members.filter (fun member => member.1 = field.name) := by
    simp only [List.mem_filter, decide_true, and_true]
  rw [listed, found, List.mem_singleton, Prod.mk.injEq, and_iff_right rfl]

/-- A record is read from an object field by field. -/
theorem readRecord_object_eq_some_iff (fields : List Field) (members : List (String × Value))
    (values : List Value) : readRecord fields (.object members) = some values ↔
      List.Forall₂ (fun field value => readField members field = some value) fields values := by
  rw [readRecord]
  induction fields generalizing values with
  | nil => simp only [List.mapM_nil, Option.pure_def, Option.some.injEq, List.forall₂_nil_left_iff,
      eq_comm]
  | cons field fields inductionHypothesis =>
    simp only [List.mapM_cons, Option.bind_eq_bind, Option.bind_eq_some_iff, Option.pure_def,
      Option.some.injEq, List.forall₂_cons_left_iff, inductionHypothesis]
    constructor
    · rintro ⟨value, here, rest, tail, rfl⟩
      exact ⟨value, rest, here, tail, rfl⟩
    · rintro ⟨value, rest, here, tail, rfl⟩
      exact ⟨value, here, rest, tail, rfl⟩

theorem mapM_eq_of_mem {Content Result : Type} (first second : Content → Option Result)
    (list : List Content) (same : ∀ content ∈ list, first content = second content) :
    list.mapM first = list.mapM second := by
  induction list with
  | nil => rfl
  | cons content rest inductionHypothesis =>
    rw [List.mapM_cons, List.mapM_cons, same content List.mem_cons_self,
      inductionHypothesis fun other inside => same other (List.mem_cons_of_mem _ inside)]

/-- An object that lists nothing but the fields is, in the order of the fields, the fields with the
values read. -/
theorem exists_listing_of_read (fields : List Field) (members : List (String × Value))
    (required : ∀ field ∈ fields, field.absent = none) (unique : (fields.map Field.name).Nodup)
    (values : List Value) (read : fields.mapM (readField members) = some values)
    (listed : ∀ member ∈ members, member.1 ∈ fields.map Field.name) :
    ∃ listing : List (String × Value), listing.map Prod.fst = fields.map Field.name ∧
      listing.map Prod.snd = values ∧ listing.Perm members := by
  induction fields generalizing members values with
  | nil =>
    cases read
    have empty : members = [] := List.eq_nil_iff_forall_not_mem.mpr fun member inside =>
      absurd (listed member inside) List.not_mem_nil
    rw [empty]
    exact ⟨[], rfl, rfl, .refl _⟩
  | cons field fields inductionHypothesis =>
    simp only [List.mapM_cons, Option.bind_eq_bind, Option.pure_def, Option.bind_eq_some_iff,
      Option.some.injEq] at read
    obtain ⟨value, here, others, rest, rfl⟩ := read
    rw [List.map_cons, List.nodup_cons] at unique
    rw [readField_required_iff members field (required field List.mem_cons_self)] at here
    have parted := List.filter_append_perm (fun member => decide (member.1 = field.name)) members
    rw [here] at parted
    -- The fields after the first read the same from the members that are not the first field.
    have same : fields.mapM (readField (members.filter fun member =>
        !decide (member.1 = field.name))) = some others := by
      rw [← rest]
      refine mapM_eq_of_mem _ _ fields fun other inside => ?_
      have different : other.name ≠ field.name := fun equal =>
        unique.1 (equal ▸ List.mem_map_of_mem inside)
      have kept : (members.filter fun member => !decide (member.1 = field.name)).filter
          (fun member => decide (member.1 = other.name)) =
          members.filter fun member => decide (member.1 = other.name) := by
        rw [List.filter_filter]
        refine List.filter_congr fun member _ => ?_
        by_cases named : member.1 = other.name
        · simp [named, different]
        · simp [named]
      rw [readField, readField, kept]
    obtain ⟨listing, names, held, perm⟩ := inductionHypothesis _
      (fun other inside => required other (List.mem_cons_of_mem _ inside)) unique.2 others same (by
        intro member inside
        obtain ⟨inMembers, other⟩ := List.mem_filter.mp inside
        rcases List.mem_cons.mp (listed member inMembers) with equal | inRest
        · simp [equal] at other
        · exact inRest)
    refine ⟨(field.name, value) :: listing, ?_, ?_, (perm.cons _).trans parted⟩
    · rw [List.map_cons, List.map_cons, names]
    · rw [List.map_cons, held]

/-- The object written from a record's fields is the one the record was read from, up to order,
exactly when that one lists the fields only, and each value written is the value read. -/
theorem sameUpToOrder_record_iff (fields : List Field)
    (required : ∀ field ∈ fields, field.absent = none) (unique : (fields.map Field.name).Nodup)
    (written members : List (String × Value))
    (names : written.map Prod.fst = fields.map Field.name) (values : List Value)
    (read : readRecord fields (.object members) = some values) :
    (Value.object written).SameUpToOrder (.object members) ↔
      (∀ member ∈ members, member.1 ∈ fields.map Field.name) ∧
        List.Forall₂ Value.SameUpToOrder (written.map Prod.snd) values := by
  rw [Value.sameUpToOrder_object_iff]
  constructor
  · rintro ⟨listed, paired, perm⟩
    have keys : listed.map Prod.fst = fields.map Field.name := by
      rw [← names, ← List.forall₂_eq_eq_eq, List.forall₂_map_left_iff, List.forall₂_map_right_iff]
      exact paired.flip.imp fun _ _ same => same.1.symm
    have again := readRecord_object fields listed unique keys
    rw [readRecord_of_perm fields listed members perm, read, Option.some.injEq] at again
    refine ⟨fun member inside => ?_, ?_⟩
    · rw [← keys]
      exact List.mem_map_of_mem (perm.mem_iff.mpr inside)
    · rw [again, List.forall₂_map_left_iff, List.forall₂_map_right_iff]
      exact paired.imp fun _ _ same => same.2
  · rintro ⟨listed, equal⟩
    obtain ⟨listing, keys, held, perm⟩ :=
      exists_listing_of_read fields members required unique values read listed
    refine ⟨listing, ?_, perm⟩
    have first : List.Forall₂ (fun member other : String × Value => member.1 = other.1) written
        listing := by
      rw [← List.forall₂_map_right_iff, ← List.forall₂_map_left_iff (f := Prod.fst),
        List.forall₂_eq_eq_eq, names, keys]
    have second : List.Forall₂ (fun member other : String × Value =>
        member.2.SameUpToOrder other.2) written listing := by
      rw [← held, List.forall₂_map_left_iff, List.forall₂_map_right_iff] at equal
      exact equal
    exact first.mp (fun _ _ key value => ⟨key, value⟩) second

end Json
