/-
This file is the map that lists its entries in the order of their keys.

Each key is held once, by construction: the entries are strictly ordered by key.
An entry is written under a key, in its place or over the one that is there, and
the content under a key is changed where it stands; neither touches another key.
-/

import Mathlib.Data.List.Basic
import Mathlib.Order.Lattice

/-- A map from keys to contents, listed by key. -/
structure OrderedMap (Key Content : Type) [LinearOrder Key] where
  entries : List (Key × Content)
  ordered : entries.Pairwise fun first second => first.1 < second.1

namespace OrderedMap

variable {Key Content : Type} [LinearOrder Key]

/-! ### Operations on the entries -/

/-- The entries with one more in its place, over the one with the same key. -/
def insertEntry (key : Key) (content : Content) : List (Key × Content) → List (Key × Content)
  | [] => [(key, content)]
  | (other, held) :: rest =>
    if key < other then (key, content) :: (other, held) :: rest
    else if key = other then (key, content) :: rest
    else (other, held) :: insertEntry key content rest

/-- An entry with its content changed, if it has the key. -/
def adjustEntry (key : Key) (change : Content → Content) (entry : Key × Content) : Key × Content :=
  if entry.1 = key then (entry.1, change entry.2) else entry

theorem adjustEntry_fst (key : Key) (change : Content → Content) (entry : Key × Content) :
    (adjustEntry key change entry).1 = entry.1 := by
  unfold adjustEntry
  split
  · rfl
  · rfl

theorem mem_insertEntry (key : Key) (content : Content) (entries : List (Key × Content))
    (entry : Key × Content) (member : entry ∈ insertEntry key content entries) :
    entry = (key, content) ∨ entry ∈ entries := by
  induction entries with
  | nil => exact .inl (List.mem_singleton.mp member)
  | cons head rest inductionHypothesis =>
    unfold insertEntry at member
    split at member
    · exact List.mem_cons.mp member
    · split at member
      · rcases List.mem_cons.mp member with same | inRest
        · exact .inl same
        · exact .inr (List.mem_cons_of_mem _ inRest)
      · rcases List.mem_cons.mp member with same | inRest
        · exact .inr (List.mem_cons.mpr (.inl same))
        · rcases inductionHypothesis inRest with same | held
          · exact .inl same
          · exact .inr (List.mem_cons_of_mem _ held)

theorem ordered_insertEntry (key : Key) (content : Content) (entries : List (Key × Content))
    (ordered : entries.Pairwise fun first second => first.1 < second.1) :
    (insertEntry key content entries).Pairwise fun first second => first.1 < second.1 := by
  induction entries with
  | nil => exact List.pairwise_singleton _ _
  | cons head rest inductionHypothesis =>
    obtain ⟨above, orderedRest⟩ := List.pairwise_cons.mp ordered
    unfold insertEntry
    split
    · rename_i below
      refine List.pairwise_cons.mpr ⟨fun entry member => ?_, ordered⟩
      rcases List.mem_cons.mp member with rfl | inRest
      · exact below
      · exact lt_trans below (above entry inRest)
    · rename_i notBelow
      split
      · rename_i same
        subst same
        exact List.pairwise_cons.mpr ⟨above, orderedRest⟩
      · rename_i different
        refine List.pairwise_cons.mpr ⟨fun entry member => ?_, inductionHypothesis orderedRest⟩
        rcases mem_insertEntry key content rest entry member with rfl | inRest
        · exact lt_of_le_of_ne (not_lt.mp notBelow) (Ne.symm different)
        · exact above entry inRest

/-! ### The map -/

def empty : OrderedMap Key Content := ⟨[], List.Pairwise.nil⟩

def lookup (key : Key) (map : OrderedMap Key Content) : Option Content :=
  map.entries.lookup key

def insert (key : Key) (content : Content) (map : OrderedMap Key Content) :
    OrderedMap Key Content where
  entries := insertEntry key content map.entries
  ordered := ordered_insertEntry key content map.entries map.ordered

/-- The content under a key changed where it stands. -/
def adjust (key : Key) (change : Content → Content) (map : OrderedMap Key Content) :
    OrderedMap Key Content where
  entries := map.entries.map (adjustEntry key change)
  ordered := by
    rw [List.pairwise_map]
    refine map.ordered.imp fun {first second} below => ?_
    rwa [adjustEntry_fst, adjustEntry_fst]

def values (map : OrderedMap Key Content) : List Content := map.entries.map Prod.snd

def size (map : OrderedMap Key Content) : Nat := map.entries.length

/-! ### Looking up -/

@[simp] theorem lookup_empty (key : Key) : lookup key (empty : OrderedMap Key Content) = none := rfl

theorem lookup_cons (key : Key) (entry : Key × Content) (rest : List (Key × Content)) :
    (entry :: rest).lookup key = if key = entry.1 then some entry.2 else rest.lookup key := by
  rw [List.lookup_cons]
  split
  · rename_i same
    rw [if_pos (beq_iff_eq.mp same)]
  · rename_i different
    rw [if_neg (beq_eq_false_iff_ne.mp different)]

/-- What is looked up is what is written last. -/
theorem lookup_insert (key inserted : Key) (content : Content) (map : OrderedMap Key Content) :
    (map.insert inserted content).lookup key =
      if key = inserted then some content else map.lookup key := by
  change (insertEntry inserted content map.entries).lookup key = _
  unfold lookup
  induction map.entries with
  | nil => rw [insertEntry, lookup_cons]
  | cons head rest inductionHypothesis =>
    unfold insertEntry
    split
    · rw [lookup_cons]
    · split
      · rename_i same
        subst same
        rw [lookup_cons, lookup_cons]
        split
        · rfl
        · rfl
      · rename_i different
        rw [lookup_cons, lookup_cons, inductionHypothesis]
        by_cases atHead : key = head.1
        · rw [if_pos atHead, if_pos atHead, if_neg (atHead ▸ Ne.symm different)]
        · rw [if_neg atHead, if_neg atHead]

/-- A change is seen under its key alone. -/
theorem lookup_adjust (key adjusted : Key) (change : Content → Content)
    (map : OrderedMap Key Content) :
    (map.adjust adjusted change).lookup key =
      if key = adjusted then (map.lookup key).map change else map.lookup key := by
  change (map.entries.map (adjustEntry adjusted change)).lookup key = _
  unfold lookup
  induction map.entries with
  | nil =>
    split
    · rfl
    · rfl
  | cons head rest inductionHypothesis =>
    rw [List.map_cons, lookup_cons, lookup_cons, adjustEntry_fst, inductionHypothesis]
    by_cases atHead : key = head.1
    · rw [if_pos atHead, if_pos atHead]
      subst atHead
      by_cases same : head.1 = adjusted
      · rw [if_pos same, adjustEntry, if_pos same]
        rfl
      · rw [if_neg same, adjustEntry, if_neg same]
    · rw [if_neg atHead, if_neg atHead]

/-- What is looked up are the entries. -/
theorem lookup_eq_some_iff (key : Key) (content : Content) (map : OrderedMap Key Content) :
    map.lookup key = some content ↔ (key, content) ∈ map.entries := by
  obtain ⟨entries, ordered⟩ := map
  change entries.lookup key = some content ↔ (key, content) ∈ entries
  induction entries with
  | nil => simp
  | cons head rest inductionHypothesis =>
    obtain ⟨above, orderedRest⟩ := List.pairwise_cons.mp ordered
    rw [lookup_cons, List.mem_cons]
    split
    · rename_i atHead
      -- the rest holds only larger keys
      have notLater : (key, content) ∉ rest := fun later =>
        lt_irrefl head.1 (atHead ▸ above (key, content) later)
      rw [or_iff_left notLater, Prod.ext_iff, Option.some_inj, eq_comm (a := content)]
      exact (and_iff_right atHead).symm
    · rename_i notAtHead
      rw [inductionHypothesis orderedRest, or_iff_right]
      exact fun same => notAtHead (congrArg Prod.fst same)

/-- Maps are the same if every key is looked up in them alike. -/
theorem eq_of_lookup (first second : OrderedMap Key Content)
    (same : ∀ key, first.lookup key = second.lookup key) : first = second := by
  have distinct : ∀ map : OrderedMap Key Content, map.entries.Nodup := fun map =>
    map.ordered.imp fun below => fun equal => lt_irrefl _ (equal ▸ below)
  have perm : first.entries.Perm second.entries := by
    refine (List.perm_ext_iff_of_nodup (distinct first) (distinct second)).mpr fun entry => ?_
    obtain ⟨key, content⟩ := entry
    rw [← lookup_eq_some_iff, ← lookup_eq_some_iff, same]
  have entries : first.entries = second.entries :=
    perm.eq_of_pairwise (fun _ _ _ _ below above => absurd above (lt_asymm below)) first.ordered
      second.ordered
  cases first
  cases second
  cases entries
  rfl

theorem mem_values (content : Content) (map : OrderedMap Key Content) :
    content ∈ map.values ↔ ∃ key, map.lookup key = some content := by
  rw [values, List.mem_map]
  constructor
  · rintro ⟨⟨key, held⟩, member, rfl⟩
    exact ⟨key, (map.lookup_eq_some_iff key held).mpr member⟩
  · rintro ⟨key, held⟩
    exact ⟨(key, content), (map.lookup_eq_some_iff key content).mp held, rfl⟩

/-- Contents that carry their own keys are listed in the order of these. -/
theorem pairwise_values (map : OrderedMap Key Content) (keyOf : Content → Key)
    (own : ∀ key content, map.lookup key = some content → keyOf content = key) :
    map.values.Pairwise fun first second => keyOf first < keyOf second := by
  rw [values, List.pairwise_map]
  refine map.ordered.imp_of_mem fun {first second} inFirst inSecond below => ?_
  rw [own first.1 first.2 ((map.lookup_eq_some_iff _ _).mpr inFirst),
    own second.1 second.2 ((map.lookup_eq_some_iff _ _).mpr inSecond)]
  exact below

/-! ### Size -/

@[simp] theorem size_empty : size (empty : OrderedMap Key Content) = 0 := rfl

@[simp] theorem length_values (map : OrderedMap Key Content) : map.values.length = map.size :=
  List.length_map ..

@[simp] theorem size_adjust (key : Key) (change : Content → Content)
    (map : OrderedMap Key Content) : (map.adjust key change).size = map.size :=
  List.length_map ..

/-- A key that was not held makes the map one entry larger. -/
theorem size_insert_of_absent (key : Key) (content : Content) (map : OrderedMap Key Content)
    (absent : map.lookup key = none) : (map.insert key content).size = map.size + 1 := by
  obtain ⟨entries, ordered⟩ := map
  change entries.lookup key = none at absent
  change (insertEntry key content entries).length = entries.length + 1
  clear ordered
  induction entries with
  | nil => rfl
  | cons head rest inductionHypothesis =>
    rw [lookup_cons] at absent
    split at absent
    · cases absent
    · rename_i different
      unfold insertEntry
      split
      · rfl
      · rw [List.length_cons, inductionHypothesis absent, List.length_cons]

end OrderedMap
