/-
This file is about what comes before what in a log that only grows.

Events of one sort follow from earlier ones: each has a cause before it. When no
cause serves two of them, there are at no time more of them than there are causes.
-/

import Mathlib.Data.List.Nodup
import Mathlib.Data.List.Perm.Subperm
import Mathlib.Logic.Basic

namespace Precedence

variable {Event : Type}

/-- Every event of the sort has a cause before it. -/
def Led (cause : Event → Event → Prop) (follows : Event → Prop) (log : List Event) : Prop :=
  ∀ front event back, log = front ++ event :: back → follows event →
    ∃ earlier ∈ front, cause earlier event

variable {cause other : Event → Event → Prop} {follows : Event → Prop}

theorem led_nil : Led cause follows [] := by
  intro front event back same
  exact absurd same.symm (List.append_ne_nil_of_right_ne_nil front (List.cons_ne_nil event back))

/-- One more event is led if its cause is there already. -/
theorem Led.append_singleton {log : List Event} (led : Led cause follows log) (event : Event)
    (caused : follows event → ∃ earlier ∈ log, cause earlier event) :
    Led cause follows (log ++ [event]) := by
  intro front last back same isLast
  rcases List.eq_nil_or_concat back with rfl | ⟨initial, final, rfl⟩
  · obtain ⟨rfl, single⟩ := List.append_inj' same rfl
    obtain rfl := (List.cons.inj single).1
    exact caused isLast
  · rw [List.concat_eq_append, ← List.cons_append, ← List.append_assoc] at same
    exact led front last initial (List.append_inj' same rfl).1 isLast

/-- What led an event still leads it when causes are only added. -/
theorem Led.mono {log : List Event} (led : Led cause follows log)
    (more : ∀ event ∈ log, ∀ earlier, cause earlier event → other earlier event) :
    Led other follows log := by
  intro front event back same isEvent
  obtain ⟨earlier, member, causes⟩ := led front event back same isEvent
  refine ⟨earlier, member, more event ?_ earlier causes⟩
  rw [same]
  exact List.mem_append_right _ List.mem_cons_self

/-- A log is led at every earlier time too. -/
theorem Led.of_prefix {front log : List Event} (led : Led cause follows log)
    (isFront : front <+: log) : Led cause follows front := by
  obtain ⟨back, rfl⟩ := isFront
  intro before event after same
  refine led before event (after ++ back) ?_
  rw [same, List.append_assoc, List.cons_append]

/-- Where no cause serves two events, the events are no more than the causes. -/
theorem Led.countP_le {log : List Event} (leads trails : Event → Bool)
    (led : Led cause (fun event => trails event = true) log) (distinct : log.Nodup)
    (sort : ∀ earlier event, cause earlier event → leads earlier = true)
    (single : ∀ earlier, ∀ event ∈ log, ∀ another ∈ log, trails event = true →
      trails another = true → cause earlier event → cause earlier another → event = another) :
    log.countP trails ≤ log.countP leads := by
  have caused : ∀ event ∈ log.filter trails, ∃ earlier ∈ log.filter leads,
      cause earlier event := by
    intro event member
    obtain ⟨inside, isEvent⟩ := List.mem_filter.mp member
    obtain ⟨front, back, same⟩ := List.append_of_mem inside
    obtain ⟨earlier, before, causes⟩ := led front event back same isEvent
    refine ⟨earlier, List.mem_filter.mpr ⟨?_, sort earlier event causes⟩, causes⟩
    rw [same]
    exact List.mem_append_left _ before
  choose! causeOf member causes using caused
  have named : ((log.filter trails).map causeOf).Nodup := by
    refine List.Nodup.map_on ?_ (distinct.filter trails)
    intro event isEvent another isAnother same
    obtain ⟨inside, trailing⟩ := List.mem_filter.mp isEvent
    obtain ⟨insideToo, trailingToo⟩ := List.mem_filter.mp isAnother
    refine single (causeOf event) event inside another insideToo trailing trailingToo
      (causes event isEvent) ?_
    rw [same]
    exact causes another isAnother
  have among : (log.filter trails).map causeOf ⊆ log.filter leads := by
    intro earlier isCause
    obtain ⟨event, isEvent, rfl⟩ := List.mem_map.mp isCause
    exact member event isEvent
  have lengths := (List.subperm_of_subset named among).length_le
  rwa [List.length_map, ← List.countP_eq_length_filter, ← List.countP_eq_length_filter] at lengths

end Precedence
