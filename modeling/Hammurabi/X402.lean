/-
This file is the monetization gate: the settlement backend and the treasury of
settled, unredeemed receipts.

Settling records a receipt under its own id, after sweeping the receipts that
have gone stale. Redeeming removes the receipt it names before comparing the
intent, so a receipt is burned by any presentation that locates it. Each of the
two runs under the write lock, so each is one atomic operation on the gate.

The facilitator backend is an HTTP client; what the remote service answers is a
parameter of its model.
-/

import Mathlib.Algebra.Ring.Int.Defs
import Mathlib.Algebra.Ring.Nat
import Hammurabi.Library.AssocMap
import Hammurabi.Library.Json
import Hammurabi.Library.Ulid

namespace Hammurabi

open Json

/-! ### Constants -/

def x402RestrictionNotice : String := "Action restricted. x402 payment of 0.50 USDC required."

/-- The gate's IRC handle. -/
def gateHandle : String := "gate/x402"

/-- Execution fee: 0.50 USDC in atomic units. -/
def executionFeeMicroUsdc : UInt64 := 500000

/-- Header carrying a settled receipt id on a retried execution request. -/
def receiptHeader : String := "x-402-receipt"

/-- Header binding the request to the intent the receipt was settled for. -/
def intentHeader : String := "x-intent-id"

def receiptStaleAfterSecs : Int64 := 600

/-! ### Terms, receipts and failures -/

/-- Machine-readable payment terms returned with every refusal. -/
structure PaymentTerms where
  x402Version : UInt8
  scheme : String
  network : String
  asset : String
  amountMicro : UInt64
  amountDisplay : String
  payTo : String
  intentId : String
  resolution : String
  deriving DecidableEq, Repr

def PaymentTerms.quote (intentId : String) : PaymentTerms where
  x402Version := 1
  scheme := "exact"
  network := "arbitrum-stylus-local-stub"
  asset := "USDC"
  amountMicro := executionFeeMicroUsdc
  amountDisplay := "0.50 USDC"
  payTo := "vault/handshake@127.0.0.1"
  intentId := intentId
  resolution := "POST /x402/settle \x7b\"intent_id\": ...\x7d"

/-- Proof that the fee cleared for one specific intent. -/
structure PaymentReceipt where
  receiptId : String
  intentId : String
  amountMicroUsdc : UInt64
  clearedAt : Int64
  deriving DecidableEq, Repr

/-- The receipt a settlement at `now` gives, under a new id. -/
def PaymentReceipt.cleared (ulid : Ulid) (intentId : String) (now : Int64) : PaymentReceipt where
  receiptId := ulid.toString
  intentId := intentId
  amountMicroUsdc := executionFeeMicroUsdc
  clearedAt := now

/-- Gate failures. -/
inductive X402Error where
  | unknownReceipt
  | intentMismatch
  deriving DecidableEq, Repr

def X402Error.toString : X402Error → String
  | .unknownReceipt => "unknown or already-redeemed receipt"
  | .intentMismatch => "receipt is bound to a different intent"

/-! ### Settlement backends -/

/-- Why a settlement attempt failed. -/
inductive SettlementError where
  | missingPayment
  | rejected (why : String)
  | transport (why : String)
  deriving DecidableEq, Repr

def SettlementError.toString : SettlementError → String
  | .missingPayment => "live settlement requires a client x402 payment payload"
  | .rejected why => s!"facilitator rejected payment: {why}"
  | .transport why => s!"facilitator transport error: {why}"

/-- The facilitator's answer to `/verify`. -/
structure VerifyResponse where
  isValid : Bool
  invalidReason : Option String

/-- The facilitator's answer to `/settle`. -/
structure SettleResponse where
  success : Bool
  transaction : Option String
  errorReason : Option String

/-- A live facilitator, as what its two endpoints answer to a payment. -/
structure FacilitatorClient where
  verify : Value → Except SettlementError VerifyResponse
  settle : Value → Except SettlementError SettleResponse

/-- Verify then settle the client's payment. A receipt comes only of a confirmed settlement. -/
def FacilitatorClient.settleIntent (client : FacilitatorClient) (intentId : String)
    (payment : Value) (now : Int64) (ulid : Ulid) : Except SettlementError PaymentReceipt := do
  let verify ← client.verify payment
  if !verify.isValid then
    throw (.rejected (verify.invalidReason.getD "payment failed verification"))
  let settle ← client.settle payment
  if !settle.success then
    throw (.rejected (settle.errorReason.getD "facilitator declined settlement"))
  return .cleared ulid intentId now

/-- How the gate settles the fee. -/
inductive SettlementBackend where
  | mock
  | facilitator (client : FacilitatorClient)

def SettlementBackend.settle (backend : SettlementBackend) (intentId : String)
    (payment : Option Value) (now : Int64) (ulid : Ulid) :
    Except SettlementError PaymentReceipt :=
  match backend with
  | .mock => .ok (.cleared ulid intentId now)
  | .facilitator client =>
    match payment with
    | none => .error .missingPayment
    | some payment => client.settleIntent intentId payment now ulid

/-! ### The treasury -/

/-- Saturating 64-bit subtraction. -/
def saturatingSub (minuend subtrahend : Int64) : Int64 :=
  Int64.ofInt (max (-2 ^ 63) (min (2 ^ 63 - 1) (minuend.toInt - subtrahend.toInt)))

theorem toInt_saturatingSub (minuend subtrahend : Int64) :
    (saturatingSub minuend subtrahend).toInt =
      max (-2 ^ 63) (min (2 ^ 63 - 1) (minuend.toInt - subtrahend.toInt)) := by
  rw [saturatingSub, Int64.toInt_ofInt_of_le]
  · omega
  · omega

/-- Saturation never reaches the bound, so it does not move the comparison with it. -/
theorem saturatingSub_lt_iff (minuend subtrahend : Int64) :
    saturatingSub minuend subtrahend < receiptStaleAfterSecs ↔
      minuend.toInt - subtrahend.toInt < 600 := by
  have bound : receiptStaleAfterSecs.toInt = 600 := by decide
  rw [Int64.lt_iff_toInt_lt, toInt_saturatingSub, bound]
  omega

/-- Whether a receipt survives a sweep at `now`. -/
def isFresh (now : Int64) (receipt : PaymentReceipt) : Bool :=
  saturatingSub now receipt.clearedAt < receiptStaleAfterSecs

@[simp] theorem isFresh_iff (now : Int64) (receipt : PaymentReceipt) :
    isFresh now receipt = true ↔ now.toInt - receipt.clearedAt.toInt < 600 := by
  rw [isFresh, decide_eq_true_iff, saturatingSub_lt_iff]

/-- The settled, unredeemed receipts, each held under its own id. -/
structure Treasury where
  held : AList fun _ : String => PaymentReceipt
  keyed : ∀ id receipt, held.lookup id = some receipt → receipt.receiptId = id

namespace Treasury

def empty : Treasury where
  held := ∅
  keyed := by
    intro id receipt found
    rw [AList.lookup_empty] at found
    cases found

/-- The receipt held under an id. -/
def lookup (treasury : Treasury) (id : String) : Option PaymentReceipt := treasury.held.lookup id

/-- Drop the receipts that are stale at `now`. -/
def evictStale (treasury : Treasury) (now : Int64) : Treasury where
  held := AssocMap.retain (isFresh now) treasury.held
  keyed id receipt found :=
    treasury.keyed id receipt ((AssocMap.lookup_retain_eq_some _ _ _ _).mp found).1

/-- Hold a receipt under its id. -/
def insert (treasury : Treasury) (receipt : PaymentReceipt) : Treasury where
  held := treasury.held.insert receipt.receiptId receipt
  keyed id other found := by
    rcases (AssocMap.lookup_insert_eq_some _ _ _ _ _).mp found with ⟨rfl, rfl⟩ | ⟨-, before⟩
    · rfl
    · exact treasury.keyed id other before

/-- Stop holding the receipt under an id. -/
def remove (treasury : Treasury) (id : String) : Treasury where
  held := treasury.held.erase id
  keyed other receipt found :=
    treasury.keyed other receipt ((AssocMap.lookup_erase_eq_some _ _ _ _).mp found).2

theorem receiptId_of_lookup (treasury : Treasury) (id : String) (receipt : PaymentReceipt)
    (found : treasury.lookup id = some receipt) : receipt.receiptId = id :=
  treasury.keyed id receipt found

theorem lookup_evictStale (treasury : Treasury) (now : Int64) (id : String)
    (receipt : PaymentReceipt) :
    (treasury.evictStale now).lookup id = some receipt ↔
      treasury.lookup id = some receipt ∧ now.toInt - receipt.clearedAt.toInt < 600 := by
  rw [← isFresh_iff]
  exact AssocMap.lookup_retain_eq_some _ _ _ _

theorem lookup_insert (treasury : Treasury) (new : PaymentReceipt) (id : String)
    (receipt : PaymentReceipt) :
    (treasury.insert new).lookup id = some receipt ↔
      (id = new.receiptId ∧ receipt = new) ∨
        (id ≠ new.receiptId ∧ treasury.lookup id = some receipt) :=
  AssocMap.lookup_insert_eq_some _ _ _ _ _

theorem lookup_remove (treasury : Treasury) (removed id : String) (receipt : PaymentReceipt) :
    (treasury.remove removed).lookup id = some receipt ↔
      id ≠ removed ∧ treasury.lookup id = some receipt :=
  AssocMap.lookup_erase_eq_some _ _ _ _

/-- Removing an id that is not held changes nothing. -/
theorem remove_of_lookup_eq_none (treasury : Treasury) (id : String)
    (absent : treasury.lookup id = none) : treasury.remove id = treasury := by
  unfold remove
  congr
  exact AssocMap.erase_of_lookup_eq_none _ _ absent

end Treasury

/-! ### The gate -/

/-- The payment gate: the treasury and the backend that fills it. -/
structure X402Gate where
  receipts : Treasury
  backend : SettlementBackend

namespace X402Gate

def withBackend (backend : SettlementBackend) : X402Gate where
  receipts := .empty
  backend := backend

def new : X402Gate := withBackend .mock

def termsFor (_gate : X402Gate) (intentId : String) : PaymentTerms := .quote intentId

/-- Sweep, then hold a receipt: what a settlement does under the write lock. -/
def record (gate : X402Gate) (receipt : PaymentReceipt) (now : Int64) : X402Gate :=
  { gate with receipts := (gate.receipts.evictStale now).insert receipt }

/-- Settle the fee for an intent through the backend and record the receipt. -/
def settle (gate : X402Gate) (intentId : String) (payment : Option Value) (now : Int64)
    (ulid : Ulid) : Except SettlementError PaymentReceipt × X402Gate :=
  match gate.backend.settle intentId payment now ulid with
  | .error refusal => (.error refusal, gate)
  | .ok receipt => (.ok receipt, gate.record receipt now)

/-- Mock payment resolution: settle the fee locally. -/
def mockSettle (gate : X402Gate) (intentId : String) (now : Int64) (ulid : Ulid) :
    PaymentReceipt × X402Gate :=
  let receipt := PaymentReceipt.cleared ulid intentId now
  (receipt, gate.record receipt now)

/-- Redeem a receipt for an intent. It is burned by any attempt that locates it. -/
def redeem (gate : X402Gate) (receiptId intentId : String) :
    Except X402Error PaymentReceipt × X402Gate :=
  match gate.receipts.lookup receiptId with
  | none => (.error .unknownReceipt, gate)
  | some receipt =>
    let burned := { gate with receipts := gate.receipts.remove receiptId }
    if receipt.intentId ≠ intentId then (.error .intentMismatch, burned) else (.ok receipt, burned)

/-! ### What one operation does -/

theorem settle_mock (gate : X402Gate) (mock : gate.backend = .mock) (intentId : String)
    (payment : Option Value) (now : Int64) (ulid : Ulid) :
    gate.settle intentId payment now ulid =
      (.ok (.cleared ulid intentId now), gate.record (.cleared ulid intentId now) now) := by
  rw [settle, mock]
  rfl

/-- After recording, the new receipt is held, and of the others those still fresh. -/
theorem lookup_record (gate : X402Gate) (new : PaymentReceipt) (now : Int64) (id : String)
    (receipt : PaymentReceipt) :
    (gate.record new now).receipts.lookup id = some receipt ↔
      (id = new.receiptId ∧ receipt = new) ∨
        (id ≠ new.receiptId ∧ gate.receipts.lookup id = some receipt ∧
          now.toInt - receipt.clearedAt.toInt < 600) := by
  rw [record, Treasury.lookup_insert, Treasury.lookup_evictStale]

/-- Redeeming always leaves the treasury without the id it names, and otherwise as it was. -/
theorem redeem_snd (gate : X402Gate) (receiptId intentId : String) :
    (gate.redeem receiptId intentId).2 =
      { gate with receipts := gate.receipts.remove receiptId } := by
  unfold redeem
  cases found : gate.receipts.lookup receiptId with
  | none => rw [Treasury.remove_of_lookup_eq_none _ _ found]
  | some receipt => exact (apply_ite Prod.snd _ _ _).trans (ite_self _)

@[simp] theorem redeem_backend (gate : X402Gate) (receiptId intentId : String) :
    (gate.redeem receiptId intentId).2.backend = gate.backend := by
  rw [redeem_snd]

theorem lookup_redeem (gate : X402Gate) (receiptId intentId id : String)
    (receipt : PaymentReceipt) :
    (gate.redeem receiptId intentId).2.receipts.lookup id = some receipt ↔
      id ≠ receiptId ∧ gate.receipts.lookup id = some receipt := by
  rw [redeem_snd]
  exact Treasury.lookup_remove _ _ _ _

theorem redeem_of_lookup_eq_none (gate : X402Gate) (receiptId intentId : String)
    (absent : gate.receipts.lookup receiptId = none) :
    gate.redeem receiptId intentId = (.error .unknownReceipt, gate) := by
  rw [redeem, absent]

/-- The answer of a redemption says what was held under the id. -/
theorem redeem_fst_eq_ok (gate : X402Gate) (receiptId intentId : String)
    (receipt : PaymentReceipt) :
    (gate.redeem receiptId intentId).1 = .ok receipt ↔
      gate.receipts.lookup receiptId = some receipt ∧ receipt.intentId = intentId := by
  unfold redeem
  cases gate.receipts.lookup receiptId with
  | none => simp
  | some held =>
    by_cases same : held.intentId = intentId
    · simp only [same, ne_eq, not_true_eq_false, if_false, Except.ok.injEq, Option.some.injEq]
      constructor
      · rintro rfl
        exact ⟨rfl, same⟩
      · exact fun both => both.1
    · simp only [same, ne_eq, not_false_eq_true, if_true, reduceCtorEq, Option.some.injEq,
        false_iff]
      rintro ⟨rfl, equal⟩
      exact same equal

theorem redeem_fst_eq_intentMismatch (gate : X402Gate) (receiptId intentId : String) :
    (gate.redeem receiptId intentId).1 = .error .intentMismatch ↔
      ∃ receipt, gate.receipts.lookup receiptId = some receipt ∧ receipt.intentId ≠ intentId := by
  unfold redeem
  cases gate.receipts.lookup receiptId with
  | none => simp
  | some held => by_cases same : held.intentId = intentId <;> simp [same]

theorem redeem_fst_eq_unknownReceipt (gate : X402Gate) (receiptId intentId : String) :
    (gate.redeem receiptId intentId).1 = .error .unknownReceipt ↔
      gate.receipts.lookup receiptId = none := by
  unfold redeem
  cases gate.receipts.lookup receiptId with
  | none => simp
  | some held => by_cases same : held.intentId = intentId <;> simp [same]

end X402Gate

end Hammurabi
