/-
This file adds to association maps the one operation a swept table needs:
keeping the entries a predicate accepts.

Lookup commutes with it, so a sweep never disturbs the entries it keeps; and
erasing a key that is not held changes nothing, not even the listing.
-/

import Mathlib.Data.List.AList

namespace AssocMap

variable {Key Content : Type} [DecidableEq Key]

/-! ### Keeping the entries a predicate accepts -/

/-- The entries of a map that a predicate accepts. -/
def retain (keep : Content → Bool) (table : AList fun _ : Key => Content) :
    AList fun _ : Key => Content where
  entries := table.entries.filter fun entry => keep entry.2
  nodupKeys := table.nodupKeys.sublist List.filter_sublist

/-- A kept key is one whose content the predicate accepts. -/
theorem lookup_retain_eq_some (keep : Content → Bool) (table : AList fun _ : Key => Content)
    (key : Key) (content : Content) :
    (retain keep table).lookup key = some content ↔
      table.lookup key = some content ∧ keep content = true := by
  rw [← Option.mem_def, ← Option.mem_def, AList.mem_lookup_iff, AList.mem_lookup_iff]
  exact List.mem_filter

/-! ### Erasing a key -/

/-- Erasing a key that is not held leaves the map as it is. -/
theorem erase_of_lookup_eq_none (table : AList fun _ : Key => Content) (key : Key)
    (absent : table.lookup key = none) : table.erase key = table := by
  apply AList.ext
  exact List.kerase_of_notMem_keys (AList.lookup_eq_none.mp absent)

/-- What is held after erasing a key was held before, under another key. -/
theorem lookup_erase_eq_some (table : AList fun _ : Key => Content) (key erased : Key)
    (content : Content) :
    (table.erase erased).lookup key = some content ↔
      key ≠ erased ∧ table.lookup key = some content := by
  by_cases same : key = erased
  · subst same
    rw [AList.lookup_erase]
    constructor
    · intro held
      cases held
    · rintro ⟨different, -⟩
      exact absurd rfl different
  · rw [AList.lookup_erase_ne same]
    exact ⟨fun held => ⟨same, held⟩, fun held => held.2⟩

theorem lookup_insert_eq_some (table : AList fun _ : Key => Content) (key inserted : Key)
    (content new : Content) :
    (table.insert inserted new).lookup key = some content ↔
      (key = inserted ∧ content = new) ∨ (key ≠ inserted ∧ table.lookup key = some content) := by
  by_cases same : key = inserted
  · subst same
    rw [AList.lookup_insert]
    constructor
    · intro held
      exact .inl ⟨rfl, (Option.some.inj held).symm⟩
    · rintro (⟨-, rfl⟩ | ⟨different, -⟩)
      · rfl
      · exact absurd rfl different
  · rw [AList.lookup_insert_ne same]
    constructor
    · intro held
      exact .inr ⟨same, held⟩
    · rintro (⟨equal, -⟩ | ⟨-, held⟩)
      · exact absurd equal same
      · exact held

end AssocMap
