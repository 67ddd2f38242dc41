/-
This file is about records whose fields may be missing, and about objects read as maps.

A record is written cell by cell; an empty cell is left out. The object written is equal up to
order to a document exactly when that one has no other members, and has each cell's value
where the cell is filled and nothing where it is empty. An object read as a map holds the
members of the object, listed by key.
-/

import Mathlib.Data.String.Basic
import Hammurabi.Library.OrderedMap
import Hammurabi.Library.Reordering

namespace Json

open Value

/-! ### Cells -/

/-- The members of the filled cells. -/
def listCells (cells : List (String × Option Value)) : List (String × Value) :=
  cells.filterMap fun cell => cell.2.map fun value => (cell.1, value)

/-- A cell and what a document has in its place. -/
def SameCell (cell held : Option Value) : Prop :=
  (cell = none ∧ held = none) ∨
    ∃ value other, cell = some value ∧ held = some other ∧ value.SameUpToOrder other

theorem sameCell_none (held : Option Value) : SameCell none held ↔ held = none := by
  constructor
  · rintro (⟨-, absent⟩ | ⟨value, other, impossible, -⟩)
    · exact absent
    · cases impossible
  · exact fun absent => .inl ⟨rfl, absent⟩

theorem sameCell_some (value : Value) (held : Option Value) :
    SameCell (some value) held ↔ ∃ other, held = some other ∧ value.SameUpToOrder other := by
  constructor
  · rintro (⟨impossible, -⟩ | ⟨_, other, ⟨⟩, there, same⟩)
    · cases impossible
    · exact ⟨other, there, same⟩
  · rintro ⟨other, there, same⟩
    exact .inr ⟨value, other, rfl, there, same⟩

theorem lookup_eq_none_iff (members : List (String × Value)) (key : String) :
    members.lookup key = none ↔ key ∉ members.map Prod.fst := by
  rw [List.lookup_eq_none_iff]
  constructor
  · intro absent listed
    obtain ⟨member, inside, rfl⟩ := List.mem_map.mp listed
    exact absurd (absent member inside) (by simp)
  · intro unlisted member inside
    have different : key ≠ member.1 := fun same =>
      unlisted (List.mem_map.mpr ⟨member, inside, same.symm⟩)
    simpa using different

/-- One member among the others, as what is looked up of them. -/
theorem lookup_middle (front back : List (String × Value)) (name : String) (value : Value)
    (unique : ((front ++ (name, value) :: back).map Prod.fst).Nodup) :
    (front ++ (name, value) :: back).lookup name = some value ∧
      (front ++ back).lookup name = none ∧
      ∀ key, key ≠ name →
        (front ++ (name, value) :: back).lookup key = (front ++ back).lookup key := by
  rw [List.map_append, List.map_cons, List.nodup_middle, List.nodup_cons,
    ← List.map_append] at unique
  have absent := (lookup_eq_none_iff (front ++ back) name).mpr unique.1
  have absentFront : front.lookup name = none := by
    rw [List.lookup_append, Option.or_eq_none_iff] at absent
    exact absent.1
  refine ⟨?_, absent, fun key different => ?_⟩
  · rw [List.lookup_append, absentFront, List.lookup_cons_self, Option.none_or]
  · rw [List.lookup_append, List.lookup_append, List.lookup_cons, beq_eq_false_iff_ne.mpr different]

/-- One member is paired with some other, and the rest with the rest. -/
theorem sameUpToOrder_cons_iff (name : String) (value : Value)
    (rest members : List (String × Value)) :
    (Value.object ((name, value) :: rest)).SameUpToOrder (.object members) ↔
      ∃ front other back, members = front ++ (name, other) :: back ∧ value.SameUpToOrder other ∧
        (Value.object rest).SameUpToOrder (.object (front ++ back)) := by
  constructor
  · rintro ⟨_, ⟨⟩, front, other, back, split, same, others⟩
    exact ⟨front, other, back, split, same, _, rfl, others⟩
  · rintro ⟨front, other, back, split, same, _, ⟨⟩, others⟩
    exact ⟨_, rfl, front, other, back, split, same, others⟩

/-- The object of the cells is a document's object, up to order, exactly when that one has no
members but those of the cells, and the cells are as it has them. -/
theorem sameUpToOrder_listCells_iff (cells : List (String × Option Value))
    (members : List (String × Value)) (names : (cells.map Prod.fst).Nodup)
    (unique : (members.map Prod.fst).Nodup) :
    (Value.object (listCells cells)).SameUpToOrder (.object members) ↔
      (∀ member ∈ members, member.1 ∈ cells.map Prod.fst) ∧
        ∀ cell ∈ cells, SameCell cell.2 (members.lookup cell.1) := by
  induction cells generalizing members with
  | nil =>
    constructor
    · rintro ⟨_, ⟨⟩, rfl⟩
      exact ⟨fun member none => absurd none List.not_mem_nil,
        fun cell none => absurd none List.not_mem_nil⟩
    · rintro ⟨listed, -⟩
      refine ⟨members, rfl, List.eq_nil_iff_forall_not_mem.mpr fun member inside => ?_⟩
      exact absurd (listed member inside) List.not_mem_nil
  | cons cell cells inductionHypothesis =>
    obtain ⟨name, content⟩ := cell
    rw [List.map_cons, List.nodup_cons] at names
    have others : ∀ cell ∈ cells, cell.1 ≠ name := fun cell inside same =>
      names.1 (List.mem_map.mpr ⟨cell, inside, same⟩)
    cases content with
    | none =>
      -- an empty cell is left out of the object, and absent from the document
      rw [show listCells ((name, none) :: cells) = listCells cells from rfl,
        inductionHypothesis members names.2 unique, List.forall_mem_cons, sameCell_none,
        lookup_eq_none_iff, List.map_cons]
      constructor
      · rintro ⟨listed, held⟩
        refine ⟨fun member inside => List.mem_cons_of_mem _ (listed member inside), ?_, held⟩
        intro there
        obtain ⟨member, inside, same⟩ := List.mem_map.mp there
        exact names.1 (same ▸ listed member inside)
      · rintro ⟨listed, absent, held⟩
        refine ⟨fun member inside => ?_, held⟩
        rcases List.mem_cons.mp (listed member inside) with same | later
        · exact absurd (List.mem_map.mpr ⟨member, inside, same⟩) absent
        · exact later
    | some value =>
      rw [show listCells ((name, some value) :: cells) = (name, value) :: listCells cells from rfl,
        sameUpToOrder_cons_iff, List.forall_mem_cons, sameCell_some, List.map_cons]
      constructor
      · rintro ⟨front, other, back, rfl, same, rest⟩
        obtain ⟨here, absent, elsewhere⟩ := lookup_middle front back name other unique
        have uniqueRest : ((front ++ back).map Prod.fst).Nodup :=
          unique.sublist (((List.sublist_cons_self _ _).append_left front).map Prod.fst)
        obtain ⟨listed, held⟩ := (inductionHypothesis _ names.2 uniqueRest).mp rest
        refine ⟨fun member inside => ?_, ⟨other, here, same⟩, fun cell inside => ?_⟩
        · rw [List.mem_append, List.mem_cons, or_left_comm, ← List.mem_append] at inside
          rcases inside with rfl | inside
          · exact List.mem_cons_self
          · exact List.mem_cons_of_mem _ (listed member inside)
        · rw [elsewhere cell.1 (others cell inside)]
          exact held cell inside
      · rintro ⟨listed, ⟨other, here, same⟩, held⟩
        obtain ⟨front, back, rfl, -⟩ := List.lookup_eq_some_iff.mp here
        obtain ⟨-, absent, elsewhere⟩ := lookup_middle front back name other unique
        have uniqueRest : ((front ++ back).map Prod.fst).Nodup :=
          unique.sublist (((List.sublist_cons_self _ _).append_left front).map Prod.fst)
        refine ⟨front, other, back, rfl, same, (inductionHypothesis _ names.2 uniqueRest).mpr
          ⟨fun member inside => ?_, fun cell inside => ?_⟩⟩
        · have inMembers : member ∈ front ++ (name, other) :: back := by
            rw [List.mem_append, List.mem_cons, or_left_comm, ← List.mem_append]
            exact .inr inside
          rcases List.mem_cons.mp (listed member inMembers) with same | later
          · exact absurd (List.mem_map.mpr ⟨member, inside, same⟩)
              ((lookup_eq_none_iff (front ++ back) name).mp absent)
          · exact later
        · rw [← elsewhere cell.1 (others cell inside)]
          exact held cell inside

/-! ### Cells read back -/

theorem keys_listCells (cells : List (String × Option Value)) :
    ((listCells cells).map Prod.fst).Sublist (cells.map Prod.fst) := by
  induction cells with
  | nil => exact .slnil
  | cons cell cells inductionHypothesis =>
    obtain ⟨name, content⟩ := cell
    cases content with
    | none => exact inductionHypothesis.cons name
    | some value => exact inductionHypothesis.cons_cons name

/-- What is looked up in the object of the cells is what the cell holds. -/
theorem lookup_listCells (cells : List (String × Option Value))
    (names : (cells.map Prod.fst).Nodup) (name : String) (content : Option Value)
    (inside : (name, content) ∈ cells) : (listCells cells).lookup name = content := by
  induction cells with
  | nil => cases inside
  | cons cell cells inductionHypothesis =>
    obtain ⟨other, held⟩ := cell
    rw [List.map_cons, List.nodup_cons] at names
    rcases List.mem_cons.mp inside with same | later
    · cases same
      have absent : (listCells cells).lookup name = none :=
        (lookup_eq_none_iff _ _).mpr fun listed => names.1 ((keys_listCells cells).subset listed)
      cases content with
      | none => exact absent
      | some value => exact List.lookup_cons_self
    · have different : name ≠ other := by
        rintro rfl
        exact names.1 (List.mem_map.mpr ⟨_, later, rfl⟩)
      have rest := inductionHypothesis names.2 later
      cases held with
      | none => exact rest
      | some value =>
        rw [show listCells ((other, some value) :: cells) = (other, value) :: listCells cells from
          rfl, List.lookup_cons, beq_eq_false_iff_ne.mpr different]
        exact rest

/-- A record of cells reads back cell by cell, an empty one as what is read for the absent field. -/
theorem readRecord_listCells (fields : List Field) (cells : List (String × Option Value))
    (names : cells.map Prod.fst = fields.map Field.name) (unique : (fields.map Field.name).Nodup) :
    readRecord fields (.object (listCells cells)) =
      (fields.zip cells).mapM fun pair => pair.2.2.or pair.1.absent := by
  have uniqueCells : (cells.map Prod.fst).Nodup := names ▸ unique
  have uniqueKeys := uniqueCells.sublist (keys_listCells cells)
  have each : ∀ (fields : List Field) (part : List (String × Option Value)), part ⊆ cells →
      part.map Prod.fst = fields.map Field.name → fields.mapM (readField (listCells cells)) =
        (fields.zip part).mapM fun pair => pair.2.2.or pair.1.absent := by
    intro fields part inside names
    induction fields generalizing part with
    | nil => rfl
    | cons field fields inductionHypothesis =>
      obtain ⟨⟨name, content⟩, part, rfl⟩ : ∃ cell tail, part = cell :: tail :=
        List.exists_cons_of_ne_nil (by rintro rfl; cases names)
      rw [List.map_cons, List.map_cons, List.cons.injEq] at names
      have here : readField (listCells cells) field = content.or field.absent := by
        rw [readField_eq_lookup _ uniqueKeys, ← names.1,
          lookup_listCells cells uniqueCells name content (inside List.mem_cons_self)]
      rw [List.zip_cons_cons, List.mapM_cons, List.mapM_cons, here, inductionHypothesis part
        (fun _ member => inside (List.mem_cons_of_mem _ member)) names.2]
  exact each fields cells (fun _ member => member) names

/-! ### What a field's cell is -/

/-- An object with members of these names only. -/
def OnlyMembers (names : List String) (value : Value) : Prop :=
  ∃ members, value = .object members ∧ ∀ member ∈ members, member.1 ∈ names

theorem onlyMembers_object (names : List String) (members : List (String × Value)) :
    OnlyMembers names (.object members) ↔ ∀ member ∈ members, member.1 ∈ names := by
  constructor
  · rintro ⟨_, ⟨⟩, listed⟩
    exact listed
  · exact fun listed => ⟨members, rfl, listed⟩

/-- An optional content; null stands for none. -/
def readOptional {Content : Type} (read : Value → Option Content) :
    Value → Option (Option Content)
  | .null => some none
  | value => (read value).map some

theorem readOptional_of_ne_null {Content : Type} (read : Value → Option Content) (value : Value)
    (filled : value ≠ .null) : readOptional read value = (read value).map some := by
  cases value with
  | null => exact absurd rfl filled
  | _ => rfl

theorem readOptional_write {Content : Type} (read : Value → Option Content)
    (write : Content → Value) (reads : ∀ content, read (write content) = some content)
    (present : ∀ content, write content ≠ .null) (content : Option Content) :
    readOptional read ((content.map write).getD .null) = some content := by
  cases content with
  | none => rfl
  | some content =>
    rw [Option.map_some, Option.getD_some,
      readOptional_of_ne_null read (write content) (present content), reads]
    rfl

section Fields

variable (members : List (String × Value)) (unique : (Value.object members).UniqueKeys)
  (name : String) (value : Value)

include unique

theorem lookup_of_required (read : readField members (.required name) = some value) :
    members.lookup name = some value := by
  rw [readField_eq_lookup members ((uniqueKeys_object members).mp unique).1] at read
  exact (Option.or_none (o := members.lookup name)).symm.trans read

theorem lookup_of_optional (read : readField members (.optional name) = some value) :
    (members.lookup name = none ∧ value = .null) ∨ members.lookup name = some value := by
  rw [readField_eq_lookup members ((uniqueKeys_object members).mp unique).1] at read
  change (members.lookup name).or (some .null) = some value at read
  cases held : members.lookup name with
  | none =>
    rw [held] at read
    exact .inl ⟨rfl, (Option.some.inj read).symm⟩
  | some other =>
    rw [held] at read
    exact .inr read

/-- What an object holds has unique keys as well. -/
theorem uniqueKeys_of_lookup (held : members.lookup name = some value) : value.UniqueKeys := by
  obtain ⟨front, back, rfl, -⟩ := List.lookup_eq_some_iff.mp held
  exact ((uniqueKeys_object _).mp unique).2 (name, value)
    (List.mem_append_right _ List.mem_cons_self)

variable {Content : Type} (read : Value → Option Content) (write : Content → Value)
  (mirrored : Value → Prop)
  (each : ∀ value content, value.UniqueKeys → read value = some content →
    ((write content).SameUpToOrder value ↔ mirrored value))

include each

/-- A required field's cell is what the document has when its value is written back as it was. -/
theorem sameCell_required (content : Content)
    (held : readField members (.required name) = some value)
    (typed : read value = some content) :
    SameCell (some (write content)) (members.lookup name) ↔
      ∀ value, members.lookup name = some value → mirrored value := by
  have there := lookup_of_required members unique name value held
  have own := uniqueKeys_of_lookup members unique name value there
  rw [there, sameCell_some]
  simp only [Option.some.injEq, exists_eq_left', forall_eq', each value content own typed]

/-- So for an optional field, which moreover is not null. -/
theorem sameCell_optional (content : Option Content)
    (held : readField members (.optional name) = some value)
    (typed : readOptional read value = some content) :
    SameCell (content.map write) (members.lookup name) ↔
      members.lookup name ≠ some .null ∧
        ∀ value, members.lookup name = some value → mirrored value := by
  have null : value = .null → content = none := by
    rintro rfl
    exact (Option.some.inj typed).symm
  rcases lookup_of_optional members unique name value held with ⟨absent, isNull⟩ | there
  · rw [absent, null isNull, Option.map_none, sameCell_none]
    simp
  · have own := uniqueKeys_of_lookup members unique name value there
    rw [there]
    by_cases isNull : value = .null
    · rw [null isNull, Option.map_none, sameCell_none]
      simp [isNull]
    · rw [readOptional_of_ne_null read value isNull] at typed
      obtain ⟨found, reads, rfl⟩ := Option.map_eq_some_iff.mp typed
      rw [Option.map_some, sameCell_some]
      simp only [Option.some.injEq, exists_eq_left', forall_eq', each value found own reads, ne_eq,
        isNull, not_false_eq_true, true_and]

end Fields

/-! ### Records of texts -/

/-- Read a record whose fields are all texts. -/
def readTexts (names : List String) (value : Value) : Option (List String) :=
  (readRecord (names.map Field.required) value).bind fun values => values.mapM Value.asStr

/-- Write one. -/
def writeTexts (names : List String) (texts : List String) : Value :=
  .object (names.zip (texts.map Value.string))

theorem mapM_asStr (values : List Value) (texts : List String)
    (read : values.mapM Value.asStr = some texts) : values = texts.map Value.string := by
  induction values generalizing texts with
  | nil =>
    cases read
    rfl
  | cons value values inductionHypothesis =>
    simp only [List.mapM_cons, Option.bind_eq_bind, Option.bind_eq_some_iff, Option.pure_def,
      Option.some.injEq] at read
    obtain ⟨text, here, others, rest, rfl⟩ := read
    rw [inductionHypothesis others rest, (asStr_eq_some_iff value text).mp here, List.map_cons]

theorem mapM_asStr_strings (texts : List String) :
    (texts.map Value.string).mapM Value.asStr = some texts := by
  induction texts with
  | nil => rfl
  | cons text texts inductionHypothesis =>
    rw [List.map_cons, List.mapM_cons, inductionHypothesis]
    rfl

theorem names_required (names : List String) :
    (names.map Field.required).map Field.name = names := by
  rw [List.map_map]
  exact List.map_id names

/-- A record of texts reads back. -/
theorem readTexts_writeTexts (names texts : List String) (unique : names.Nodup)
    (length : texts.length = names.length) :
    readTexts names (writeTexts names texts) = some texts := by
  have keys : (names.zip (texts.map Value.string)).map Prod.fst = names :=
    List.map_fst_zip (by rw [List.length_map, length])
  have held : (names.zip (texts.map Value.string)).map Prod.snd = texts.map Value.string :=
    List.map_snd_zip (by rw [List.length_map, length])
  rw [readTexts, writeTexts, readRecord_object (names.map Field.required) _
    (by rwa [names_required]) (by rw [keys, names_required]), held]
  exact mapM_asStr_strings texts

/-- A record of texts is written back as it was when it was an object with its fields alone. -/
theorem writeTexts_sameUpToOrder_iff (names texts : List String) (unique : names.Nodup)
    (value : Value) (read : readTexts names value = some texts) :
    (writeTexts names texts).SameUpToOrder value ↔ OnlyMembers names value := by
  obtain ⟨values, fields, held⟩ := Option.bind_eq_some_iff.mp read
  have values_eq := mapM_asStr values texts held
  cases value with
  | object members =>
    have each := (readRecord_object_eq_some_iff _ members values).mp fields
    have length : texts.length = names.length := by
      have lengths := each.length_eq
      rw [values_eq, List.length_map, List.length_map] at lengths
      exact lengths.symm
    have keys : (names.zip (texts.map Value.string)).map Prod.fst =
        (names.map Field.required).map Field.name := by
      rw [names_required]
      exact List.map_fst_zip (by rw [List.length_map, length])
    have texts_eq : (names.zip (texts.map Value.string)).map Prod.snd = values := by
      rw [values_eq]
      exact List.map_snd_zip (by rw [List.length_map, length])
    rw [writeTexts, sameUpToOrder_record_iff (names.map Field.required) (by simp [Field.required])
      (by rwa [names_required]) _ members keys values fields, names_required, texts_eq,
      and_iff_left (List.forall₂_same.mpr fun value _ => sameUpToOrder_refl value),
      onlyMembers_object]
  | _ =>
    refine iff_of_false (not_sameUpToOrder_object _ _ (by simp)) ?_
    rintro ⟨members, ⟨⟩, -⟩

/-! ### Objects as maps -/

/-- The map an object stands for; a later member takes the place of an earlier one of its name. -/
def collect (members : List (String × Value)) : OrderedMap String Value :=
  members.foldl (fun map member => map.insert member.1 member.2) .empty

def readMap : Value → Option (OrderedMap String Value)
  | .object members => some (collect members)
  | _ => none

def writeMap (map : OrderedMap String Value) : Value := .object map.entries

theorem lookup_collect (members : List (String × Value))
    (unique : (members.map Prod.fst).Nodup) (key : String) :
    (collect members).lookup key = members.lookup key := by
  have general : ∀ map : OrderedMap String Value,
      (members.foldl (fun map member => map.insert member.1 member.2) map).lookup key =
        (members.lookup key).or (map.lookup key) := by
    induction members with
    | nil => exact fun map => rfl
    | cons member members inductionHypothesis =>
      intro map
      rw [List.map_cons, List.nodup_cons] at unique
      rw [List.foldl_cons, inductionHypothesis unique.2, OrderedMap.lookup_insert,
        OrderedMap.lookup_cons]
      split
      · rename_i same
        rw [(lookup_eq_none_iff members key).mpr (same ▸ unique.1)]
        rfl
      · rfl
  rw [collect, general, OrderedMap.lookup_empty, Option.or_none]

/-- What a map holds was a member of the object. -/
theorem mem_of_lookup_collect (members : List (String × Value)) (key : String) (value : Value)
    (held : (collect members).lookup key = some value) : (key, value) ∈ members := by
  have general : ∀ map : OrderedMap String Value,
      (members.foldl (fun map member => map.insert member.1 member.2) map).lookup key =
        some value → (key, value) ∈ members ∨ map.lookup key = some value := by
    clear held
    induction members with
    | nil => exact fun map held => .inr held
    | cons member members inductionHypothesis =>
      intro map held
      rcases inductionHypothesis _ held with later | now
      · exact .inl (List.mem_cons_of_mem _ later)
      · rw [OrderedMap.lookup_insert] at now
        split at now
        · rename_i same
          cases now
          rw [same]
          exact .inl List.mem_cons_self
        · exact .inr now
  rcases general .empty held with inside | none
  · exact inside
  · cases none

theorem mem_iff_lookup (members : List (String × Value)) (unique : (members.map Prod.fst).Nodup)
    (key : String) (value : Value) :
    (key, value) ∈ members ↔ members.lookup key = some value := by
  constructor
  · intro inside
    obtain ⟨front, back, rfl⟩ := List.append_of_mem inside
    exact (lookup_middle front back key value unique).1
  · intro held
    obtain ⟨front, back, rfl, -⟩ := List.lookup_eq_some_iff.mp held
    exact List.mem_append_right _ List.mem_cons_self

theorem nodup_keys (map : OrderedMap String Value) : (map.entries.map Prod.fst).Nodup := by
  refine List.Pairwise.map _ (fun first second below => ?_) map.ordered
  exact ne_of_lt below

/-- The map holds the members of the object. -/
theorem collect_perm (members : List (String × Value)) (unique : (members.map Prod.fst).Nodup) :
    (collect members).entries.Perm members := by
  refine (List.perm_ext_iff_of_nodup (nodup_keys _).of_map unique.of_map).mpr fun member => ?_
  obtain ⟨key, value⟩ := member
  rw [mem_iff_lookup members unique, ← lookup_collect members unique,
    OrderedMap.lookup_eq_some_iff]

/-- The entries of a map stand for it. -/
theorem collect_entries (map : OrderedMap String Value) : collect map.entries = map := by
  have same : (collect map.entries).entries = map.entries := by
    refine List.Perm.eq_of_pairwise (fun first second _ _ below above => ?_)
      (collect map.entries).ordered map.ordered (collect_perm _ (nodup_keys map))
    exact absurd (lt_trans below above) (lt_irrefl _)
  cases collected : collect map.entries
  rw [collected] at same
  cases same
  rfl

/-- A map reads back. -/
theorem readMap_writeMap (map : OrderedMap String Value) : readMap (writeMap map) = some map :=
  congrArg some (collect_entries map)

/-- An object is written back as it was from the map it stands for. -/
theorem writeMap_sameUpToOrder (value : Value) (map : OrderedMap String Value)
    (unique : value.UniqueKeys) (read : readMap value = some map) :
    (writeMap map).SameUpToOrder value := by
  cases value with
  | object members =>
    cases read
    rw [uniqueKeys_object] at unique
    exact sameUpToOrder_object_of_perm _ _ (collect_perm members unique.1)
  | _ => cases read

/-! ### What a text carries -/

/-- A document that a text of bounded nesting carries unchanged: no key is repeated, every number is
an integer, and it is nested less than so deep. -/
structure Portable (bound : Nat) (value : Value) : Prop where
  unique : value.UniqueKeys
  integer : value.IntegerOnly
  shallow : value.depth < bound

theorem depthItems_lt_iff (items : List Value) (bound : Nat) (positive : 0 < bound) :
    Value.depthItems items < bound ↔ ∀ item ∈ items, item.depth < bound := by
  induction items with
  | nil => exact iff_of_true positive fun item none => absurd none List.not_mem_nil
  | cons item items inductionHypothesis =>
    rw [Value.depthItems, Nat.max_lt, inductionHypothesis, List.forall_mem_cons]

theorem depthMembers_lt_iff (members : List (String × Value)) (bound : Nat)
    (positive : 0 < bound) :
    Value.depthMembers members < bound ↔ ∀ member ∈ members, member.2.depth < bound := by
  induction members with
  | nil => exact iff_of_true positive fun member none => absurd none List.not_mem_nil
  | cons member members inductionHypothesis =>
    rw [Value.depthMembers, Nat.max_lt, inductionHypothesis, List.forall_mem_cons]

theorem portable_array_iff (items : List Value) (bound : Nat) (positive : 0 < bound) :
    Portable (bound + 1) (.array items) ↔ ∀ item ∈ items, Portable bound item := by
  have each : (Value.array items).depth < bound + 1 ↔ ∀ item ∈ items, item.depth < bound := by
    rw [Value.depth, Nat.succ_lt_succ_iff, depthItems_lt_iff items bound positive]
  constructor
  · rintro ⟨unique, integer, shallow⟩ item inside
    exact ⟨(uniqueKeys_array items).mp unique item inside,
      (integerOnly_array items).mp integer item inside, each.mp shallow item inside⟩
  · intro portable
    exact ⟨(uniqueKeys_array items).mpr fun item inside => (portable item inside).unique,
      (integerOnly_array items).mpr fun item inside => (portable item inside).integer,
      each.mpr fun item inside => (portable item inside).shallow⟩

theorem portable_object_iff (members : List (String × Value)) (bound : Nat) (positive : 0 < bound) :
    Portable (bound + 1) (.object members) ↔
      (members.map Prod.fst).Nodup ∧ ∀ member ∈ members, Portable bound member.2 := by
  have each : (Value.object members).depth < bound + 1 ↔
      ∀ member ∈ members, member.2.depth < bound := by
    rw [Value.depth, Nat.succ_lt_succ_iff, depthMembers_lt_iff members bound positive]
  constructor
  · rintro ⟨unique, integer, shallow⟩
    obtain ⟨keys, uniqueEach⟩ := (uniqueKeys_object members).mp unique
    exact ⟨keys, fun member inside => ⟨uniqueEach member inside,
      (integerOnly_object members).mp integer member inside, each.mp shallow member inside⟩⟩
  · rintro ⟨keys, portable⟩
    exact ⟨(uniqueKeys_object members).mpr
        ⟨keys, fun member inside => (portable member inside).unique⟩,
      (integerOnly_object members).mpr fun member inside => (portable member inside).integer,
      each.mpr fun member inside => (portable member inside).shallow⟩

section Carrying

variable (bound : Nat) (positive : 0 < bound)

include positive

theorem portable_null : Portable bound .null := ⟨by simp, by simp, positive⟩

theorem portable_string (text : String) : Portable bound (.string text) :=
  ⟨by simp, by simp, positive⟩

theorem portable_ofUInt64 (value : UInt64) : Portable bound (.ofUInt64 value) :=
  ⟨by simp [Value.ofUInt64], by simp [Value.ofUInt64], positive⟩

/-- The object of cells is portable when their values are. -/
theorem portable_listCells (cells : List (String × Option Value))
    (names : (cells.map Prod.fst).Nodup)
    (each : ∀ cell ∈ cells, ∀ value, cell.2 = some value → Portable bound value) :
    Portable (bound + 1) (.object (listCells cells)) := by
  refine (portable_object_iff _ bound positive).mpr ⟨names.sublist (keys_listCells cells), ?_⟩
  intro member inside
  obtain ⟨cell, listed, same⟩ := List.mem_filterMap.mp inside
  obtain ⟨value, filled, rfl⟩ := Option.map_eq_some_iff.mp same
  exact each cell listed value filled

/-- A record of texts is portable. -/
theorem portable_writeTexts (names texts : List String) (unique : names.Nodup)
    (length : texts.length = names.length) : Portable (bound + 1) (writeTexts names texts) := by
  refine (portable_object_iff _ bound positive).mpr ⟨?_, fun member inside => ?_⟩
  · rw [List.map_fst_zip (by rw [List.length_map, length])]
    exact unique
  · obtain ⟨text, -, same⟩ := List.mem_map.mp (List.of_mem_zip (a := member.1) (b := member.2)
      inside).2
    rw [← same]
    exact portable_string bound positive text

/-- What is read of the fields of a record is portable when the record is. -/
theorem portable_of_readRecord (fields : List Field) (document : Value) (values : List Value)
    (read : readRecord fields document = some values) (portable : Portable (bound + 1) document)
    (absent : ∀ field ∈ fields, ∀ value, field.absent = some value → Portable bound value) :
    ∀ value ∈ values, Portable bound value := by
  cases document with
  | object members =>
    obtain ⟨keys, each⟩ := (portable_object_iff members bound positive).mp portable
    have held := (readRecord_object_eq_some_iff fields members values).mp read
    clear read
    induction held with
    | nil => exact fun value none => absurd none List.not_mem_nil
    | @cons field value fields values here rest inductionHypothesis =>
      obtain ⟨own, others⟩ := List.forall_mem_cons.mp absent
      refine List.forall_mem_cons.mpr ⟨?_, inductionHypothesis others⟩
      rw [readField_eq_lookup members keys] at here
      cases there : members.lookup field.name with
      | none =>
        rw [there] at here
        exact own value here
      | some other =>
        rw [there] at here
        obtain rfl := Option.some.inj here
        exact each _ ((mem_iff_lookup members keys field.name _).mpr there)
  | array items =>
    have each := (portable_array_iff items bound positive).mp portable
    clear portable
    change readPositions fields items = some values at read
    induction fields generalizing items values with
    | nil =>
      cases items with
      | nil =>
        cases read
        exact fun value none => absurd none List.not_mem_nil
      | cons item items => cases read
    | cons field fields inductionHypothesis =>
      obtain ⟨own, others⟩ := List.forall_mem_cons.mp absent
      cases items with
      | nil =>
        simp only [readPositions, Option.bind_eq_bind, Option.bind_eq_some_iff, Option.pure_def,
          Option.some.injEq] at read
        obtain ⟨value, missing, rest, tail, rfl⟩ := read
        exact List.forall_mem_cons.mpr
          ⟨own value missing, inductionHypothesis rest others [] each tail⟩
      | cons item items =>
        simp only [readPositions, Option.bind_eq_bind, Option.bind_eq_some_iff, Option.pure_def,
          Option.some.injEq] at read
        obtain ⟨rest, tail, rfl⟩ := read
        obtain ⟨here, later⟩ := List.forall_mem_cons.mp each
        exact List.forall_mem_cons.mpr ⟨here, inductionHypothesis rest others items later tail⟩
  | _ => cases read

/-- The entries of a map that is read are portable when its object is. -/
theorem portable_of_readMap (document : Value) (map : OrderedMap String Value)
    (read : readMap document = some map) (portable : Portable (bound + 1) document) :
    ∀ entry ∈ map.entries, Portable bound entry.2 := by
  cases document with
  | object members =>
    cases read
    intro entry inside
    have held := ((collect members).lookup_eq_some_iff entry.1 entry.2).mpr inside
    exact ((portable_object_iff members bound positive).mp portable).2 _
      (mem_of_lookup_collect members entry.1 entry.2 held)
  | _ => cases read

/-- The object of a map is portable when its entries are. -/
theorem portable_writeMap (map : OrderedMap String Value)
    (each : ∀ entry ∈ map.entries, Portable bound entry.2) : Portable (bound + 1) (writeMap map) :=
  (portable_object_iff map.entries bound positive).mpr ⟨nodup_keys map, each⟩

end Carrying

end Json
