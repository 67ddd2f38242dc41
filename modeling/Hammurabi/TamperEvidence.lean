/-
This file settles which alterations of a settlement envelope its verifier notices.

The signature covers the intent and the issue instant. The digest is compared with the
intent's and the expiry with the issue instant, so with the key and the signature kept
these four are fixed, the intent up to the order of its members. The receipt and the
fee are carried for whoever settles, and no check reads them.
-/

import Hammurabi.Settlement

namespace Hammurabi

open Json Unicode

variable (primitives : Primitives)

/-- With the key and the signature of a minted credential, an envelope is accepted exactly within
the minted window and when it agrees with the packaged one on the intent, the digest and both
instants. Its receipt and its fee are any. -/
theorem verify_altered_iff (hex : HexRoundTrip primitives) (payload : Value)
    (receipt : PaymentReceipt) (minting : Int64) (entropy : MintEntropy)
    (credential : EphemeralCredential) (unique : payload.UniqueKeys)
    (minted : mint primitives payload receipt minting entropy = .ok credential)
    (ideal : ∀ message, canonicalMessage payload minting = .ok message →
      IdealSignature primitives entropy.seed message)
    (paid : PaymentReceipt) (altered : SettlementParams)
    (uniqueAltered : altered.intent.UniqueKeys)
    (sameKey : altered.signerPublicKeyHex =
      (OneShotEnvelope.package payload credential paid).params.signerPublicKeyHex)
    (sameSignature : altered.signatureHex =
      (OneShotEnvelope.package payload credential paid).params.signatureHex) (now : Int64) :
    let packaged := (OneShotEnvelope.package payload credential paid).params
    altered.verify primitives now = .ok () ↔
      packaged.intent.SameUpToOrder altered.intent ∧
        altered.payloadDigestHex = packaged.payloadDigestHex ∧
        altered.issuedAt = packaged.issuedAt ∧ altered.expiresAt = packaged.expiresAt ∧
        packaged.issuedAt ≤ now ∧ now < packaged.expiresAt := by
  intro packaged
  obtain ⟨canonical, canonicalized, -, rfl⟩ := (mint_eq_ok _ _ _ _ _ _).mp minted
  have signed : canonicalMessage payload minting = .ok (canonical ++ [0] ++ toLeBytes minting) :=
    (canonicalMessage_ok_iff _ _ _).mpr ⟨canonical, canonicalized, rfl⟩
  have binds := binds_altered_iff primitives hex payload altered.intent unique uniqueAltered
    receipt minting entropy (mintChaos primitives canonical payload minting entropy) canonical
    canonicalized (ideal _ signed) altered.payloadDigestHex altered.issuedAt
  rw [SettlementParams.verify_eq_ok, sameKey, sameSignature]
  constructor
  · rintro ⟨strictTtl, started, unexpired, bound⟩
    obtain ⟨same, digest, issued⟩ := binds.mp bound
    rw [issued] at strictTtl started
    rw [strictTtl] at unexpired
    exact ⟨same, digest, issued, strictTtl, started, unexpired⟩
  · rintro ⟨same, digest, issued, expires, started, unexpired⟩
    have bound := binds.mpr ⟨same, digest, issued⟩
    rw [← issued] at started
    rw [← expires] at unexpired
    exact ⟨expires.trans (congrArg (· + credentialTtlSecs) issued.symm), started, unexpired, bound⟩

/-- The packaged object verifies within its window, and not with its expiry moved, nor with another
amount. -/
theorem verify_altered_iff_object :
    let primitives := markingPrimitives (plainForm ++ [0] ++ toLeBytes 7)
    let receipt := PaymentReceipt.cleared .nil "a" 7
    let raised := Value.object [("side", .string "sell"), ("amount", .number (.posInt 4))]
    ∃ credential, mint primitives plainPayload receipt 7 plainEntropy = .ok credential ∧
      let packaged := (OneShotEnvelope.package plainPayload credential receipt).params
      packaged.verify primitives 66 = .ok () ∧
        ¬ { packaged with expiresAt := 68 }.verify primitives 66 = .ok () ∧
        ¬ { packaged with intent := raised }.verify primitives 66 = .ok () := by
  intro primitives receipt raised
  have minted := mint_plainPayload receipt 7
  have accepted := verify_altered_iff primitives (markingPrimitives_hex _) plainPayload receipt 7
    plainEntropy _ plainPayload_uniqueKeys minted (plainPayload_ideal 7) receipt
  have uniqueRaised : raised.UniqueKeys := by simp [raised]
  refine ⟨_, minted, ?_⟩
  intro packaged
  refine ⟨(accepted packaged plainPayload_uniqueKeys rfl rfl 66).mpr
    ⟨Value.sameUpToOrder_refl _, rfl, rfl, rfl, by decide, by decide⟩, ?_, ?_⟩
  · intro verified
    obtain ⟨-, -, -, moved, -⟩ := (accepted { packaged with expiresAt := 68 }
      plainPayload_uniqueKeys rfl rfl 66).mp verified
    exact absurd moved (by decide)
  · intro verified
    obtain ⟨same, -⟩ := (accepted { packaged with intent := raised } uniqueRaised rfl rfl 66).mp
      verified
    exact absurd ((same_plainPayload_iff raised uniqueRaised).mp same) (by decide)

/-- The packaged object verifies as well with another receipt and another fee. -/
theorem payment_alteration_verifies :
    let primitives := markingPrimitives (plainForm ++ [0] ++ toLeBytes 7)
    let receipt := PaymentReceipt.cleared .nil "a" 7
    HexRoundTrip primitives ∧
      (∀ message, canonicalMessage plainPayload 7 = .ok message →
        IdealSignature primitives plainEntropy.seed message) ∧
      ∃ credential, mint primitives plainPayload receipt 7 plainEntropy = .ok credential ∧
        let packaged := (OneShotEnvelope.package plainPayload credential receipt).params
        let altered := { packaged with receiptId := "", feeMicroUsdc := 0 }
        altered.signerPublicKeyHex = packaged.signerPublicKeyHex ∧
          altered.signatureHex = packaged.signatureHex ∧
          altered.verify primitives 66 = .ok () ∧
          altered.receiptId ≠ packaged.receiptId ∧
          altered.feeMicroUsdc ≠ packaged.feeMicroUsdc := by
  intro primitives receipt
  refine ⟨markingPrimitives_hex _, plainPayload_ideal 7, _, mint_plainPayload receipt 7, rfl, rfl,
    ?_, by decide, by decide⟩
  rw [SettlementParams.verify_eq_ok]
  exact (verify_eq_ok primitives _ plainPayload 66).mp
    (verify_plainPayload receipt 7 66 _ (by decide) (by decide))

end Hammurabi
