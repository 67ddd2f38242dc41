/-
This file is about the custody of tokens that are issued once and must not be spent
twice.

A token is in hand or in store, and never in both; it is in at most one hand. It is
issued into a hand, deposited from a hand into the store, withdrawn from the store
into a hand, and it may be lost from either. When only new tokens are issued, each
of these moves keeps the account sound, so no token is ever in two hands.
-/

import Mathlib.Data.Multiset.AddSub
import Mathlib.Data.Set.Insert

namespace Custody

variable {Token : Type}

/-- Where the tokens are: all that were issued, those in hand, and those in store. -/
structure Account (Token : Type) where
  issued : List Token
  held : Multiset Token
  stored : Set Token

/-- No token is issued twice, held twice, or both held and stored; none is made up. -/
structure Account.Sound (account : Account Token) : Prop where
  issued_nodup : account.issued.Nodup
  held_nodup : account.held.Nodup
  held_issued : ∀ token ∈ account.held, token ∈ account.issued
  stored_issued : ∀ token ∈ account.stored, token ∈ account.issued
  held_not_stored : ∀ token ∈ account.held, token ∉ account.stored

/-- One move of the tokens. Any of them may also lose some that were in store. -/
inductive Move (before after : Account Token) : Prop where
  | lose (issued : after.issued = before.issued) (held : after.held ≤ before.held)
      (stored : ∀ token ∈ after.stored, token ∈ before.stored)
  | issue (token : Token) (fresh : token ∉ before.issued)
      (issued : after.issued = before.issued ++ [token])
      (held : after.held = token ::ₘ before.held)
      (stored : ∀ other ∈ after.stored, other ∈ before.stored)
  | deposit (token : Token) (issued : after.issued = before.issued)
      (held : before.held = token ::ₘ after.held)
      (stored : ∀ other ∈ after.stored, other = token ∨ other ∈ before.stored)
  | withdraw (token : Token) (found : token ∈ before.stored)
      (issued : after.issued = before.issued)
      (held : after.held = token ::ₘ before.held)
      (stored : ∀ other ∈ after.stored, other ≠ token ∧ other ∈ before.stored)

/-- The account at the start: nothing issued. -/
def Account.empty : Account Token := ⟨[], 0, ∅⟩

theorem Account.sound_empty : (Account.empty : Account Token).Sound where
  issued_nodup := List.nodup_nil
  held_nodup := Multiset.nodup_zero
  held_issued token held := absurd held (Multiset.notMem_zero token)
  stored_issued token stored := absurd stored (Set.notMem_empty token)
  held_not_stored token held := absurd held (Multiset.notMem_zero token)

/-- Every move keeps an account sound. -/
theorem Account.Sound.move {before after : Account Token} (sound : before.Sound)
    (move : Move before after) : after.Sound := by
  cases move with
  | lose issued held stored =>
    refine ⟨?_, ?_, ?_, ?_, ?_⟩
    · rw [issued]
      exact sound.issued_nodup
    · exact Multiset.nodup_of_le held sound.held_nodup
    · intro token member
      rw [issued]
      exact sound.held_issued token (Multiset.mem_of_le held member)
    · intro token member
      rw [issued]
      exact sound.stored_issued token (stored token member)
    · intro token member inStore
      exact sound.held_not_stored token (Multiset.mem_of_le held member) (stored token inStore)
  | issue token fresh issued held stored =>
    refine ⟨?_, ?_, ?_, ?_, ?_⟩
    · rw [issued, List.nodup_append_comm]
      exact List.nodup_cons.mpr ⟨fresh, sound.issued_nodup⟩
    · rw [held, Multiset.nodup_cons]
      exact ⟨fun member => fresh (sound.held_issued token member), sound.held_nodup⟩
    · intro other member
      rw [issued, List.mem_append, List.mem_singleton]
      rw [held, Multiset.mem_cons] at member
      exact member.symm.imp_left (sound.held_issued other)
    · intro other member
      rw [issued]
      exact List.mem_append_left _ (sound.stored_issued other (stored other member))
    · intro other member inStore
      rw [held, Multiset.mem_cons] at member
      rcases member with rfl | before
      · exact fresh (sound.stored_issued other (stored other inStore))
      · exact sound.held_not_stored other before (stored other inStore)
  | deposit token issued held stored =>
    have nodup := sound.held_nodup
    rw [held, Multiset.nodup_cons] at nodup
    have held_before : ∀ other ∈ after.held, other ∈ before.held := by
      intro other member
      rw [held]
      exact Multiset.mem_cons_of_mem member
    refine ⟨?_, nodup.2, ?_, ?_, ?_⟩
    · rw [issued]
      exact sound.issued_nodup
    · intro other member
      rw [issued]
      exact sound.held_issued other (held_before other member)
    · intro other member
      rw [issued]
      rcases stored other member with rfl | before
      · exact sound.held_issued other (held ▸ Multiset.mem_cons_self other after.held)
      · exact sound.stored_issued other before
    · intro other member inStore
      rcases stored other inStore with rfl | before
      · exact nodup.1 member
      · exact sound.held_not_stored other (held_before other member) before
  | withdraw token found issued held stored =>
    refine ⟨?_, ?_, ?_, ?_, ?_⟩
    · rw [issued]
      exact sound.issued_nodup
    · rw [held, Multiset.nodup_cons]
      exact ⟨fun member => sound.held_not_stored token member found, sound.held_nodup⟩
    · intro other member
      rw [issued]
      rw [held, Multiset.mem_cons] at member
      rcases member with rfl | before
      · exact sound.stored_issued other found
      · exact sound.held_issued other before
    · intro other member
      rw [issued]
      exact sound.stored_issued other (stored other member).2
    · intro other member inStore
      rw [held, Multiset.mem_cons] at member
      rcases member with rfl | before
      · exact (stored other inStore).1 rfl
      · exact sound.held_not_stored other before (stored other inStore).2

end Custody
