/-
This file says what the treasury is for, in terms of the history of the gate.

A history is any finite sequence of settlements and redemptions, at arbitrary
clocks. A receipt is outstanding when some settlement of the history issued it
and nothing has ended it since: no redemption named its id, for whatever intent
and with whatever outcome, and no settlement happened at an instant from which
it counts as stale. The treasury holds exactly the outstanding receipts, so the
answer of the next redemption is determined by the history.
-/

import Mathlib.Data.List.Induction
import Hammurabi.Library.Runs
import Hammurabi.X402

namespace Hammurabi

open Json Runs

/-! ### Histories of the gate -/

/-- One atomic operation on the gate. -/
inductive GateOp where
  | settle (intentId : String) (payment : Option Value) (now : Int64) (ulid : Ulid)
  | mockSettle (intentId : String) (now : Int64) (ulid : Ulid)
  | redeem (receiptId intentId : String)

namespace GateOp

/-- The receipt a settlement issues on the mock backend. -/
def issues : GateOp → Option PaymentReceipt
  | .settle intentId _ now ulid => some (.cleared ulid intentId now)
  | .mockSettle intentId now ulid => some (.cleared ulid intentId now)
  | .redeem _ _ => none

/-- The clock of a settlement. -/
def settlesAt : GateOp → Option Int64
  | .settle _ _ now _ => some now
  | .mockSettle _ now _ => some now
  | .redeem _ _ => none

/-- The operation is a redemption that names the id. -/
def Presents (op : GateOp) (id : String) : Prop := ∃ intentId, op = .redeem id intentId

/-- The operation ends a receipt: a redemption that names it, for any intent, or a settlement at
an instant from which it is stale. -/
def Ends (receipt : PaymentReceipt) (op : GateOp) : Prop :=
  op.Presents receipt.receiptId ∨
    ∃ now, op.settlesAt = some now ∧ ¬ now.toInt - receipt.clearedAt.toInt < 600

/-- The gate after one operation. -/
def apply (gate : X402Gate) : GateOp → X402Gate
  | .settle intentId payment now ulid => (gate.settle intentId payment now ulid).2
  | .mockSettle intentId now ulid => (gate.mockSettle intentId now ulid).2
  | .redeem receiptId intentId => (gate.redeem receiptId intentId).2

end GateOp

/-- The gate after a history, from the start of the process. -/
def gateAfter (ops : List GateOp) : X402Gate := ops.foldl GateOp.apply .new

/-- No receipt id is issued twice. -/
def FreshIds (ops : List GateOp) : Prop :=
  (ops.filterMap fun op => op.issues.map PaymentReceipt.receiptId).Nodup

/-- A receipt was issued, not named by a redemption since, and fresh at every later settlement. -/
def Outstanding (ops : List GateOp) (receipt : PaymentReceipt) : Prop :=
  Since (fun op => op.issues = some receipt) (GateOp.Ends receipt) ops

/-! ### One operation -/

theorem gateAfter_append_singleton (ops : List GateOp) (op : GateOp) :
    gateAfter (ops ++ [op]) = op.apply (gateAfter ops) := by
  rw [gateAfter, List.foldl_append]
  rfl

theorem apply_backend (gate : X402Gate) (mock : gate.backend = .mock) (op : GateOp) :
    (op.apply gate).backend = .mock := by
  cases op with
  | settle intentId payment now ulid =>
    rw [GateOp.apply, X402Gate.settle_mock gate mock]
    exact mock
  | mockSettle intentId now ulid => exact mock
  | redeem receiptId intentId => rw [GateOp.apply, X402Gate.redeem_backend, mock]

theorem gateAfter_backend (ops : List GateOp) : (gateAfter ops).backend = .mock := by
  induction ops using List.reverseRecOn with
  | nil => rfl
  | append_singleton ops op inductionHypothesis =>
    rw [gateAfter_append_singleton]
    exact apply_backend _ inductionHypothesis op

/-- An operation that issues a receipt records it at its own clock. -/
theorem apply_of_issues (gate : X402Gate) (mock : gate.backend = .mock) (op : GateOp)
    (receipt : PaymentReceipt) (issued : op.issues = some receipt) :
    op.apply gate = gate.record receipt receipt.clearedAt ∧
      op.settlesAt = some receipt.clearedAt := by
  cases op with
  | settle intentId payment now ulid =>
    cases issued
    rw [GateOp.apply, X402Gate.settle_mock gate mock]
    exact ⟨rfl, rfl⟩
  | mockSettle intentId now ulid =>
    cases issued
    exact ⟨rfl, rfl⟩
  | redeem receiptId intentId => cases issued

/-- A settlement ends a receipt only by its clock. -/
theorem ends_of_settlesAt (op : GateOp) (receipt : PaymentReceipt) (now : Int64)
    (settles : op.settlesAt = some now) :
    op.Ends receipt ↔ ¬ now.toInt - receipt.clearedAt.toInt < 600 := by
  constructor
  · rintro (⟨intentId, rfl⟩ | ⟨other, same, stale⟩)
    · cases settles
    · rw [settles] at same
      cases same
      exact stale
  · exact fun stale => .inr ⟨now, settles, stale⟩

theorem ends_redeem (receiptId intentId : String) (receipt : PaymentReceipt) :
    (GateOp.redeem receiptId intentId).Ends receipt ↔ receipt.receiptId = receiptId := by
  constructor
  · rintro (⟨other, same⟩ | ⟨now, settles, -⟩)
    · exact (GateOp.redeem.inj same).1.symm
    · cases settles
  · rintro rfl
    exact .inl ⟨intentId, rfl⟩

/-! ### The treasury after a history -/

theorem freshIds_append_singleton (ops : List GateOp) (op : GateOp)
    (fresh : FreshIds (ops ++ [op])) :
    FreshIds ops ∧ ∀ earlier ∈ ops, ∀ old new, earlier.issues = some old →
      op.issues = some new → old.receiptId ≠ new.receiptId := by
  rw [FreshIds, List.filterMap_append, List.nodup_append] at fresh
  refine ⟨fresh.1, fun earlier member old new issuedOld issuedNew => ?_⟩
  refine fresh.2.2 _ ?_ _ ?_
  · exact List.mem_filterMap.mpr ⟨earlier, member, by rw [issuedOld, Option.map_some]⟩
  · exact List.mem_filterMap.mpr ⟨op, List.mem_singleton.mpr rfl, by
      rw [issuedNew, Option.map_some]⟩

/-- The treasury holds exactly the outstanding receipts. -/
theorem lookup_gateAfter (ops : List GateOp) (fresh : FreshIds ops) (id : String)
    (receipt : PaymentReceipt) :
    (gateAfter ops).receipts.lookup id = some receipt ↔
      Outstanding ops receipt ∧ receipt.receiptId = id := by
  induction ops using List.reverseRecOn with
  | nil =>
    constructor
    · intro held
      cases held
    · exact fun both => absurd both.1 (not_since_nil _ _)
  | append_singleton ops op inductionHypothesis =>
    obtain ⟨freshBefore, new⟩ := freshIds_append_singleton ops op fresh
    have before := inductionHypothesis freshBefore
    rw [gateAfter_append_singleton, Outstanding, since_append_singleton, ← Outstanding]
    cases issued : op.issues with
    | some issue =>
      obtain ⟨applied, settles⟩ := apply_of_issues _ (gateAfter_backend ops) op issue issued
      have different : Outstanding ops receipt → receipt.receiptId ≠ issue.receiptId := by
        intro outstanding
        obtain ⟨earlier, member, begun⟩ := outstanding.exists_begins
        exact new earlier member receipt issue begun issued
      rw [applied, X402Gate.lookup_record, before, ends_of_settlesAt op receipt _ settles,
        Option.some.injEq, not_not]
      constructor
      · rintro (⟨rfl, rfl⟩ | ⟨-, ⟨outstanding, rfl⟩, unstale⟩)
        · exact ⟨.inl rfl, rfl⟩
        · exact ⟨.inr ⟨outstanding, unstale⟩, rfl⟩
      · rintro ⟨rfl | ⟨outstanding, unstale⟩, rfl⟩
        · exact .inl ⟨rfl, rfl⟩
        · exact .inr ⟨different outstanding, ⟨outstanding, rfl⟩, unstale⟩
    | none =>
      cases op with
      | settle intentId payment now ulid => cases issued
      | mockSettle intentId now ulid => cases issued
      | redeem receiptId intentId =>
        rw [GateOp.apply, X402Gate.lookup_redeem, before, ends_redeem]
        constructor
        · rintro ⟨different, outstanding, rfl⟩
          exact ⟨.inr ⟨outstanding, different⟩, rfl⟩
        · rintro ⟨begun | ⟨outstanding, different⟩, rfl⟩
          · cases begun
          · exact ⟨different, outstanding, rfl⟩

/-- After a settlement at `now`, every held receipt cleared less than ten minutes before. -/
theorem clearedAt_gt_of_settlesAt (gate : X402Gate) (mock : gate.backend = .mock) (op : GateOp)
    (now : Int64) (settles : op.settlesAt = some now) (id : String) (receipt : PaymentReceipt)
    (held : (op.apply gate).receipts.lookup id = some receipt) :
    receipt.clearedAt.toInt > now.toInt - 600 := by
  obtain ⟨issue, issued⟩ : ∃ issue, op.issues = some issue := by
    cases op with
    | settle intentId payment clock ulid => exact ⟨_, rfl⟩
    | mockSettle intentId clock ulid => exact ⟨_, rfl⟩
    | redeem receiptId intentId => cases settles
  obtain ⟨applied, clock⟩ := apply_of_issues gate mock op issue issued
  obtain rfl : issue.clearedAt = now := Option.some.inj (clock.symm.trans settles)
  rw [applied, X402Gate.lookup_record] at held
  rcases held with ⟨-, rfl⟩ | ⟨-, -, unstale⟩
  · omega
  · omega

/-- What a redemption answers after any history, what it leaves alone, and what a settlement
leaves in the treasury. -/
theorem redeem_after_history (ops : List GateOp) (fresh : FreshIds ops) :
    (∀ id intentId,
      (∀ receipt, ((gateAfter ops).redeem id intentId).1 = .ok receipt ↔
        Outstanding ops receipt ∧ receipt.receiptId = id ∧ receipt.intentId = intentId) ∧
      (((gateAfter ops).redeem id intentId).1 = .error .intentMismatch ↔
        ∃ receipt, Outstanding ops receipt ∧ receipt.receiptId = id ∧
          receipt.intentId ≠ intentId) ∧
      (((gateAfter ops).redeem id intentId).1 = .error .unknownReceipt ↔
        ¬ ∃ receipt, Outstanding ops receipt ∧ receipt.receiptId = id) ∧
      ((gateAfter ops).receipts.lookup id = none →
        ((gateAfter ops).redeem id intentId).2 = gateAfter ops)) ∧
    ∀ op now, op.settlesAt = some now → ∀ id receipt,
      (gateAfter (ops ++ [op])).receipts.lookup id = some receipt →
        receipt.clearedAt.toInt > now.toInt - 600 := by
  have holds := lookup_gateAfter ops fresh
  refine ⟨fun id intentId => ⟨fun receipt => ?_, ?_, ?_, fun absent => ?_⟩, ?_⟩
  · rw [X402Gate.redeem_fst_eq_ok, holds, and_assoc]
  · rw [X402Gate.redeem_fst_eq_intentMismatch]
    refine exists_congr fun receipt => ?_
    rw [holds, and_assoc]
  · rw [X402Gate.redeem_fst_eq_unknownReceipt, Option.eq_none_iff_forall_ne_some, not_exists]
    refine forall_congr' fun receipt => ?_
    rw [ne_eq, holds]
  · rw [X402Gate.redeem_of_lookup_eq_none _ _ _ absent]
  · intro op now settles id receipt held
    rw [gateAfter_append_singleton] at held
    exact clearedAt_gt_of_settlesAt _ (gateAfter_backend ops) op now settles id receipt held

/-- A receipt survives a later settlement within ten minutes, and is then redeemed. -/
theorem redeem_after_history_settled :
    ((gateAfter [.mockSettle "a" 100 .nil, .settle "b" none 650 ⟨1, by decide⟩]).redeem
      "00000000000000000000000000" "a").1 = .ok (.cleared .nil "a" 100) := by
  refine ((redeem_after_history _ (by unfold FreshIds; decide)).1 _ _).1 _ |>.mpr
    ⟨⟨[], _, _, rfl, rfl, ?_⟩, by decide, rfl⟩
  intro later member
  obtain rfl := List.mem_singleton.mp member
  rw [ends_of_settlesAt _ _ 650 rfl]
  decide

end Hammurabi
