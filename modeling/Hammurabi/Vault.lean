/-
This file is the credential vault: minting an ephemeral credential for a burned
receipt, and verifying a credential against a presented payload.

A mint draws a key, signs the payload at the instant of the mint and attacks its
own signature before it releases anything. What it draws is an argument here, so
that a mint is a function. Verification checks the structural lifetime, the
window, the digest and the signature, in this order.

What a verifier accepts is stated once, as `Acceptable`, without the order of the
checks. The last section is the consequence for a minted credential: it is
accepted for the payload it was minted for and within the sixty seconds after the
mint, and for nothing else.
-/

import Hammurabi.Jcs
import Hammurabi.Library.Outcome
import Hammurabi.Library.Reordering
import Hammurabi.X402

namespace Hammurabi

open Json Unicode

/-! ### Constants -/

def credentialMintedNotice : String :=
  "Payment confirmed. Ephemeral Handshake credential minted."

/-- The vault's IRC handle. -/
def vaultHandle : String := "vault/handshake"

/-- Strict credential time to live. -/
def credentialTtlSecs : Int64 := 60

/-- Random bit-flip trials run against the signature during chaos testing. -/
def chaosSignatureTrials : UInt32 := 8

/-! ### Credentials -/

/-- Outcome of the chaos probes. -/
structure ChaosReport where
  honestVerified : Bool
  tamperedPayloadRejected : Bool
  shiftedTimestampRejected : Bool
  signatureBitflipsRejected : UInt32
  wrongKeyRejected : Bool
  deriving DecidableEq, Repr

def ChaosReport.allClear (report : ChaosReport) : Bool :=
  report.honestVerified && report.tamperedPayloadRejected && report.shiftedTimestampRejected &&
    report.signatureBitflipsRejected == chaosSignatureTrials && report.wrongKeyRejected

/-- The debug text of a report. -/
def ChaosReport.toString (report : ChaosReport) : String :=
  "ChaosReport \x7b honest_verified: " ++ ToString.toString report.honestVerified ++
    ", tampered_payload_rejected: " ++ ToString.toString report.tamperedPayloadRejected ++
    ", shifted_timestamp_rejected: " ++ ToString.toString report.shiftedTimestampRejected ++
    ", signature_bitflips_rejected: " ++ ToString.toString report.signatureBitflipsRejected ++
    ", wrong_key_rejected: " ++ ToString.toString report.wrongKeyRejected ++ " \x7d"

/-- The minted credential: public material only. -/
structure EphemeralCredential where
  credentialId : String
  intentId : String
  receiptId : String
  publicKeyHex : String
  signatureHex : String
  payloadDigestHex : String
  issuedAt : Int64
  expiresAt : Int64
  chaos : ChaosReport
  deriving DecidableEq, Repr

inductive VaultError where
  | canonicalization (detail : String)
  | chaos (report : ChaosReport)
  | outsideValidity (issuedAt expiresAt now : Int64)
  | malformedTtl
  | digestMismatch
  | malformed (detail : String)
  | signatureInvalid
  deriving DecidableEq, Repr

def VaultError.toString : VaultError → String
  | .canonicalization detail => s!"payload rejected by canonicalization: {detail}"
  | .chaos report => s!"chaos testing failed — credential destroyed: {report.toString}"
  | .outsideValidity issuedAt expiresAt now =>
    s!"credential expired or not yet valid (issued_at={issuedAt}, expires_at={expiresAt}, " ++
      s!"now={now})"
  | .malformedTtl => s!"credential TTL is not the strict {credentialTtlSecs}s window"
  | .digestMismatch => "payload digest mismatch — credential is bound to a different payload"
  | .malformed detail => s!"malformed credential material: {detail}"
  | .signatureInvalid => "signature invalid"

variable (primitives : Primitives)

/-! ### Chaos testing -/

/-- What a mint draws: its key, the bits it flips, the key of a stranger and a credential id. -/
structure MintEntropy where
  seed : Seed
  /-- The bit of the signature flipped in each trial. -/
  bits : Nat → Fin 512
  stranger : Seed
  credentialId : Ulid

/-- A signature with one bit flipped. -/
def flipBit (signature : SignatureBytes) (bit : Fin 512) : SignatureBytes where
  val := signature.1.modify (bit / 8) fun byte => byte ^^^ (1 <<< UInt8.ofNat (bit % 8))
  property := by rw [List.length_modify, signature.2]

/-- A payload changed into another one: a marker member for an object, a wrapper for the rest. -/
def tamper : Value → Value
  | .object members =>
    .object (Value.insertMember members "__chaos__" (.number (.posInt 1)))
  | other => .object [("__chaos__", other)]

/-- The signature is rejected on a payload at an instant. -/
def rejects (publicKey : PublicKeyBytes) (payload : Value) (timestamp : Int64)
    (signature : SignatureBytes) : Bool :=
  !(verifyPayload primitives publicKey payload timestamp signature).isOk

/-- Attack the freshly minted signature from four directions. -/
def chaosTest (publicKey : PublicKeyBytes) (payload : Value) (timestamp : Int64)
    (signature : SignatureBytes) (entropy : MintEntropy) : ChaosReport where
  honestVerified := (verifyPayload primitives publicKey payload timestamp signature).isOk
  tamperedPayloadRejected := rejects primitives publicKey (tamper payload) timestamp signature
  shiftedTimestampRejected :=
    rejects primitives publicKey payload (timestamp + 1) signature &&
      rejects primitives publicKey payload (timestamp - 1) signature
  signatureBitflipsRejected :=
    (List.range chaosSignatureTrials.toNat).foldl (fun rejected trial =>
      if rejects primitives publicKey payload timestamp (flipBit signature (entropy.bits trial))
      then rejected + 1 else rejected) 0
  wrongKeyRejected :=
    let message := (canonicalMessage payload timestamp).toOption.getD []
    !(verifyBytes primitives ((Identity.fromSeed entropy.stranger).publicKey primitives) message
      signature.1).isOk

/-! ### Minting -/

/-- Mint an ephemeral credential bound to a payload and an instant. -/
def mint (payload : Value) (receipt : PaymentReceipt) (now : Int64) (entropy : MintEntropy) :
    Except VaultError EphemeralCredential := do
  let canonical ← (canonicalize payload).mapError fun e => .canonicalization e.toString
  let digest := blake3Hash primitives canonical
  let identity := Identity.fromSeed entropy.seed
  let publicKey := identity.publicKey primitives
  let signature ← (signPayload primitives identity payload now).mapError fun e =>
    .canonicalization e.toString
  let chaos := chaosTest primitives publicKey payload now signature entropy
  if !chaos.allClear then
    throw (.chaos chaos)
  return {
    credentialId := entropy.credentialId.toString
    intentId := receipt.intentId
    receiptId := receipt.receiptId
    publicKeyHex := primitives.hexEncode publicKey.1
    signatureHex := primitives.hexEncode signature.1
    payloadDigestHex := primitives.hexEncode digest.1
    issuedAt := now
    expiresAt := now + credentialTtlSecs
    chaos := chaos }

/-! ### Verifying -/

/-- Decode a hexadecimal field of fixed length, in the error type of the caller. -/
def decodeBytes {Error : Type} (malformed : String → Error) (length : Nat) (text : String) :
    Except Error (FixedBytes length) :=
  match primitives.hexDecode text with
  | .error detail => .error (malformed detail)
  | .ok bytes =>
    match FixedBytes.ofList? length bytes with
    | none => .error (malformed s!"expected {length} bytes")
    | some bytes => .ok bytes

def decodeFixed (length : Nat) (text : String) : Except VaultError (FixedBytes length) :=
  decodeBytes primitives .malformed length text

/-- Verify a credential against a presented payload at the caller's time. -/
def verify (credential : EphemeralCredential) (payload : Value) (now : Int64) :
    Except VaultError Unit := do
  if credential.expiresAt ≠ credential.issuedAt + credentialTtlSecs then
    throw .malformedTtl
  if now < credential.issuedAt ∨ now ≥ credential.expiresAt then
    throw (.outsideValidity credential.issuedAt credential.expiresAt now)
  let canonical ← (canonicalize payload).mapError fun e => .canonicalization e.toString
  if primitives.hexEncode (blake3Hash primitives canonical).1 ≠ credential.payloadDigestHex then
    throw .digestMismatch
  let publicKey ← decodeFixed primitives 32 credential.publicKeyHex
  let signature ← decodeFixed primitives 64 credential.signatureHex
  (verifyPayload primitives publicKey payload credential.issuedAt signature).mapError
    fun _ => .signatureInvalid

/-! ### What a verifier accepts -/

/-- The material of a credential, in hexadecimal, binds a payload at an instant: the digest is that
of the canonical form, and the signature is valid under the key on the signed message. -/
def Binds (payload : Value) (digestHex publicKeyHex signatureHex : String)
    (issuedAt : Int64) : Prop :=
  ∃ canonical key signature,
    canonicalize payload = .ok canonical ∧
    primitives.hexEncode (blake3Hash primitives canonical).1 = digestHex ∧
    primitives.hexDecode publicKeyHex = .ok key.1 ∧
    primitives.hexDecode signatureHex = .ok signature.1 ∧
    verifySignature primitives key (canonical ++ [0] ++ toLeBytes issuedAt) signature = .ok ()

/-- What it takes to be accepted at `now`: the strict lifetime, the window and the binding. -/
structure Acceptable (payload : Value) (digestHex publicKeyHex signatureHex : String)
    (issuedAt expiresAt now : Int64) : Prop where
  strictTtl : expiresAt = issuedAt + credentialTtlSecs
  started : issuedAt ≤ now
  unexpired : now < expiresAt
  binds : Binds primitives payload digestHex publicKeyHex signatureHex issuedAt

theorem decodeBytes_eq_ok {Error : Type} (malformed : String → Error) (length : Nat)
    (text : String) (bytes : FixedBytes length) :
    decodeBytes primitives malformed length text = .ok bytes ↔
      primitives.hexDecode text = .ok bytes.1 := by
  unfold decodeBytes
  cases primitives.hexDecode text with
  | error detail => simp only [reduceCtorEq]
  | ok decoded =>
    rw [Except.ok.injEq, ← FixedBytes.ofList?_eq_some]
    cases found : FixedBytes.ofList? length decoded with
    | none => simp only [found, reduceCtorEq]
    | some fixed => simp only [found, Except.ok.injEq, Option.some.injEq]

/-- Verifying a payload is verifying its signed message. -/
theorem verifyPayload_eq_ok (publicKey : PublicKeyBytes) (payload : Value) (timestamp : Int64)
    (signature : SignatureBytes) :
    verifyPayload primitives publicKey payload timestamp signature = .ok () ↔
      ∃ canonical, canonicalize payload = .ok canonical ∧
        verifySignature primitives publicKey (canonical ++ [0] ++ toLeBytes timestamp)
          signature = .ok () := by
  rw [verifyPayload, Outcome.bind_eq_ok]
  simp only [verifyBytes_val]
  constructor
  · rintro ⟨message, signed, valid⟩
    obtain ⟨canonical, canonicalized, rfl⟩ := (canonicalMessage_ok_iff _ _ _).mp signed
    exact ⟨canonical, canonicalized, valid⟩
  · rintro ⟨canonical, canonicalized, valid⟩
    exact ⟨_, (canonicalMessage_ok_iff _ _ _).mpr ⟨canonical, canonicalized, rfl⟩, valid⟩

/-- The vault accepts exactly what is acceptable. -/
theorem verify_eq_ok (credential : EphemeralCredential) (payload : Value) (now : Int64) :
    verify primitives credential payload now = .ok () ↔
      Acceptable primitives payload credential.payloadDigestHex credential.publicKeyHex
        credential.signatureHex credential.issuedAt credential.expiresAt now := by
  simp only [verify, Outcome.guard_eq_ok, Outcome.bind_eq_ok, Outcome.mapError_eq_ok,
    decodeFixed, decodeBytes_eq_ok, verifyPayload_eq_ok]
  rw [not_ne_iff, not_or, Int64.not_lt, ge_iff_le, Int64.not_le]
  constructor
  · rintro ⟨strictTtl, ⟨started, unexpired⟩, canonical, canonicalized, digest, key, keyDecoded,
      signature, signatureDecoded, again, canonicalizedAgain, valid⟩
    obtain rfl : canonical = again :=
      Except.ok.inj (canonicalized.symm.trans canonicalizedAgain)
    exact ⟨strictTtl, started, unexpired, canonical, key, signature, canonicalized,
      not_ne_iff.mp digest, keyDecoded, signatureDecoded, valid⟩
  · rintro ⟨strictTtl, started, unexpired, canonical, key, signature, canonicalized, digest,
      keyDecoded, signatureDecoded, valid⟩
    exact ⟨strictTtl, ⟨started, unexpired⟩, canonical, canonicalized, not_ne_iff.mpr digest, key,
      keyDecoded, signature, signatureDecoded, canonical, canonicalized, valid⟩

/-! ### What a mint releases -/

/-- The credential of a mint that passes: the receipt's ids, the drawn key, its signature of the
message at the instant of the mint, and the digest of the canonical form. -/
def releasedCredential (canonical : List UInt8) (receipt : PaymentReceipt) (now : Int64)
    (entropy : MintEntropy) (chaos : ChaosReport) : EphemeralCredential where
  credentialId := entropy.credentialId.toString
  intentId := receipt.intentId
  receiptId := receipt.receiptId
  publicKeyHex := primitives.hexEncode (primitives.verifyingKey entropy.seed).1
  signatureHex := primitives.hexEncode
    (primitives.sign entropy.seed (canonical ++ [0] ++ toLeBytes now)).1
  payloadDigestHex := primitives.hexEncode (blake3Hash primitives canonical).1
  issuedAt := now
  expiresAt := now + credentialTtlSecs
  chaos := chaos

/-- The probes of a mint. -/
def mintChaos (canonical : List UInt8) (payload : Value) (now : Int64) (entropy : MintEntropy) :
    ChaosReport :=
  chaosTest primitives (primitives.verifyingKey entropy.seed) payload now
    (primitives.sign entropy.seed (canonical ++ [0] ++ toLeBytes now)) entropy

theorem signPayload_of_canonical (seed : Seed) (payload : Value) (now : Int64)
    (canonical : List UInt8) (canonicalized : canonicalize payload = .ok canonical) :
    signPayload primitives (Identity.fromSeed seed) payload now =
      .ok (primitives.sign seed (canonical ++ [0] ++ toLeBytes now)) := by
  rw [signPayload, (canonicalMessage_ok_iff _ _ _).mpr ⟨canonical, canonicalized, rfl⟩]
  rfl

/-- A payload with a canonical form is minted unless a probe misbehaves. -/
theorem mint_of_canonical (payload : Value) (receipt : PaymentReceipt) (now : Int64)
    (entropy : MintEntropy) (canonical : List UInt8)
    (canonicalized : canonicalize payload = .ok canonical) :
    mint primitives payload receipt now entropy =
      let chaos := mintChaos primitives canonical payload now entropy
      if chaos.allClear = true then
        .ok (releasedCredential primitives canonical receipt now entropy chaos)
      else .error (.chaos chaos) := by
  simp only [mint, canonicalized,
    signPayload_of_canonical primitives entropy.seed payload now canonical canonicalized]
  change (if (!(mintChaos primitives canonical payload now entropy).allClear) = true then _
    else _) = _
  cases (mintChaos primitives canonical payload now entropy).allClear <;> rfl

theorem mint_eq_ok (payload : Value) (receipt : PaymentReceipt) (now : Int64)
    (entropy : MintEntropy) (credential : EphemeralCredential) :
    mint primitives payload receipt now entropy = .ok credential ↔
      ∃ canonical, canonicalize payload = .ok canonical ∧
        (mintChaos primitives canonical payload now entropy).allClear = true ∧
        credential = releasedCredential primitives canonical receipt now entropy
          (mintChaos primitives canonical payload now entropy) := by
  cases canonicalized : canonicalize payload with
  | error refusal =>
    have refused : mint primitives payload receipt now entropy =
        .error (.canonicalization refusal.toString) := by
      rw [mint, canonicalized]
      rfl
    simp only [refused, reduceCtorEq, false_and, exists_false]
  | ok canonical =>
    rw [mint_of_canonical primitives payload receipt now entropy canonical canonicalized]
    constructor
    · intro released
      dsimp only at released
      split at released
      · exact ⟨canonical, rfl, ‹_›, (Except.ok.inj released).symm⟩
      · cases released
    · rintro ⟨other, same, clear, rfl⟩
      obtain rfl := Except.ok.inj same
      exact if_pos clear

/-! ### When the probes are clear -/

theorem xor_shift_ne (byte : UInt8) (k : Nat) (small : k < 8) :
    byte ^^^ (1 <<< UInt8.ofNat k) ≠ byte := by
  intro same
  have zero : (1 : UInt8) <<< UInt8.ofNat k = 0 := by
    rwa [← UInt8.xor_right_inj byte, UInt8.xor_zero]
  have every : ∀ k < 8, (1 : UInt8) <<< UInt8.ofNat k ≠ 0 := by decide
  exact every k small zero

/-- A flipped bit changes the signature. -/
theorem flipBit_ne (signature : SignatureBytes) (bit : Fin 512) :
    flipBit signature bit ≠ signature := by
  intro same
  have inside : (bit : Nat) / 8 < signature.1.length := by
    rw [signature.2]
    exact Nat.div_lt_of_lt_mul bit.2
  have bytes : signature.1.modify (bit / 8) (fun byte => byte ^^^ (1 <<< UInt8.ofNat (bit % 8))) =
      signature.1 := congrArg Subtype.val same
  have byte := congrArg (fun list => list[(bit : Nat) / 8]?) bytes
  simp only [List.getElem?_modify_eq, List.getElem?_eq_getElem inside] at byte
  exact xor_shift_ne _ _ (Nat.mod_lt _ (by decide)) (Option.some.inj byte)

/-- Under the ideal scheme, the signature of a message verifies a payload at an instant exactly when
they have this message. -/
theorem verifyPayload_sign_eq_ok (seed : Seed) (message : List UInt8)
    (ideal : IdealSignature primitives seed message) (payload : Value) (timestamp : Int64) :
    verifyPayload primitives (primitives.verifyingKey seed) payload timestamp
      (primitives.sign seed message) = .ok () ↔
        canonicalMessage payload timestamp = .ok message := by
  rw [verifyPayload, Outcome.bind_eq_ok]
  simp only [verifyBytes_val, ideal.verifies_iff]
  constructor
  · rintro ⟨other, signed, rfl⟩
    exact signed
  · exact fun signed => ⟨message, signed, rfl⟩

theorem rejects_iff (publicKey : PublicKeyBytes) (payload : Value) (timestamp : Int64)
    (signature : SignatureBytes) :
    rejects primitives publicKey payload timestamp signature = true ↔
      verifyPayload primitives publicKey payload timestamp signature ≠ .ok () := by
  rw [rejects, Bool.not_eq_true', ← Bool.not_eq_true, Outcome.isOk_iff]

/-- Under the ideal scheme, the signature of one message is rejected on any other. -/
theorem rejects_of_other_message (seed : Seed) (message : List UInt8)
    (ideal : IdealSignature primitives seed message) (payload : Value) (timestamp : Int64)
    (different : canonicalMessage payload timestamp ≠ .ok message) :
    rejects primitives (primitives.verifyingKey seed) payload timestamp
      (primitives.sign seed message) = true := by
  rw [rejects_iff, ne_eq, verifyPayload_sign_eq_ok primitives seed message ideal]
  exact different

/-- Under the ideal scheme, any other signature of a message is rejected on it. -/
theorem rejects_of_other_signature (seed : Seed) (message : List UInt8)
    (ideal : IdealSignature primitives seed message) (payload : Value) (timestamp : Int64)
    (signed : canonicalMessage payload timestamp = .ok message) (signature : SignatureBytes)
    (different : signature ≠ primitives.sign seed message) :
    rejects primitives (primitives.verifyingKey seed) payload timestamp signature = true := by
  rw [rejects_iff, ne_eq, verifyPayload, Outcome.bind_eq_ok]
  rintro ⟨other, same, valid⟩
  obtain rfl := Except.ok.inj (signed.symm.trans same)
  rw [verifyBytes_val, ideal.accepts] at valid
  exact different valid

section Probes

variable (payload : Value) (t : Int64) (entropy : MintEntropy) (canonical : List UInt8)
  (canonicalized : canonicalize payload = .ok canonical)
  (ideal : IdealSignature primitives entropy.seed (canonical ++ [0] ++ toLeBytes t))

include canonicalized ideal

theorem tamperedPayload_rejected (unique : payload.UniqueKeys)
    (uniqueTampered : (tamper payload).UniqueKeys)
    (tampered : ¬ payload.SameUpToOrder (tamper payload)) :
    (mintChaos primitives canonical payload t entropy).tamperedPayloadRejected = true := by
  refine rejects_of_other_message primitives _ _ ideal _ _ fun signed => ?_
  obtain ⟨form, formed, same⟩ := (canonicalMessage_ok_iff _ _ _).mp signed
  have forms := List.append_cancel_right (List.append_cancel_right same)
  exact tampered ((canonicalize_eq_iff payload _ unique uniqueTampered canonical form
    canonicalized formed).mp forms)

/-- The signature of one instant is rejected at any other. -/
theorem otherTimestamp_rejected (other : Int64) (different : other ≠ t) :
    rejects primitives (primitives.verifyingKey entropy.seed) payload other
      (primitives.sign entropy.seed (canonical ++ [0] ++ toLeBytes t)) = true := by
  refine rejects_of_other_message primitives _ _ ideal _ _ fun signed => ?_
  obtain ⟨form, formed, same⟩ := (canonicalMessage_ok_iff _ _ _).mp signed
  obtain rfl := Except.ok.inj (canonicalized.symm.trans formed)
  exact different (toLeBytes_injective (List.append_cancel_left same)).symm

theorem laterTimestamp_rejected :
    rejects primitives (primitives.verifyingKey entropy.seed) payload (t + 1)
      (primitives.sign entropy.seed (canonical ++ [0] ++ toLeBytes t)) = true :=
  otherTimestamp_rejected primitives payload t entropy canonical canonicalized ideal _ fun same =>
    absurd (Int64.add_eq_left.mp same) (by decide)

theorem shiftedTimestamp_rejected :
    (mintChaos primitives canonical payload t entropy).shiftedTimestampRejected = true := by
  rw [mintChaos, chaosTest, Bool.and_eq_true]
  refine ⟨laterTimestamp_rejected primitives payload t entropy canonical canonicalized ideal,
    otherTimestamp_rejected primitives payload t entropy canonical canonicalized ideal _
      fun same => ?_⟩
  exact absurd (Int64.add_eq_left.mp (Int64.sub_eq_iff_eq_add.mp same).symm) (by decide)

theorem signatureBitflips_rejected :
    (mintChaos primitives canonical payload t entropy).signatureBitflipsRejected =
      chaosSignatureTrials := by
  have message := (canonicalMessage_ok_iff payload t _).mpr ⟨canonical, canonicalized, rfl⟩
  have every : ∀ trial, rejects primitives (primitives.verifyingKey entropy.seed) payload t
      (flipBit (primitives.sign entropy.seed (canonical ++ [0] ++ toLeBytes t))
        (entropy.bits trial)) = true := by
    intro trial
    exact rejects_of_other_signature primitives _ _ ideal payload t message _ (flipBit_ne _ _)
  simp only [mintChaos, chaosTest, every, if_true]
  rfl

/-- Under the ideal scheme every probe is clear, as long as tampering changes the payload and the
stranger's key does not verify the signature. -/
theorem mintChaos_allClear (unique : payload.UniqueKeys)
    (uniqueTampered : (tamper payload).UniqueKeys)
    (tampered : ¬ payload.SameUpToOrder (tamper payload))
    (stranger : verifySignature primitives (primitives.verifyingKey entropy.stranger)
      (canonical ++ [0] ++ toLeBytes t)
      (primitives.sign entropy.seed (canonical ++ [0] ++ toLeBytes t)) ≠ .ok ()) :
    (mintChaos primitives canonical payload t entropy).allClear = true := by
  have message := (canonicalMessage_ok_iff payload t _).mpr ⟨canonical, canonicalized, rfl⟩
  have honest : (mintChaos primitives canonical payload t entropy).honestVerified = true := by
    rw [mintChaos, chaosTest, Outcome.isOk_iff, verifyPayload_sign_eq_ok primitives _ _ ideal]
    exact message
  have strangerRejected :
      (mintChaos primitives canonical payload t entropy).wrongKeyRejected = true := by
    simp only [mintChaos, chaosTest, message, Except.toOption, Option.getD_some, verifyBytes_val]
    rw [Bool.not_eq_true', ← Bool.not_eq_true, Outcome.isOk_iff]
    exact stranger
  rw [ChaosReport.allClear, honest,
    tamperedPayload_rejected primitives payload t entropy canonical canonicalized ideal unique
      uniqueTampered tampered,
    shiftedTimestamp_rejected primitives payload t entropy canonical canonicalized ideal,
    signatureBitflips_rejected primitives payload t entropy canonical canonicalized ideal,
    strangerRejected]
  rfl

end Probes

/-! ### The acceptance of a minted credential -/

/-- The key and the signature of a released credential bind exactly the payload it was minted for,
with its digest and at its instant. -/
theorem binds_altered_iff (hex : HexRoundTrip primitives) (payload other : Value)
    (uniquePayload : payload.UniqueKeys) (uniqueOther : other.UniqueKeys)
    (receipt : PaymentReceipt) (now : Int64) (entropy : MintEntropy) (chaos : ChaosReport)
    (canonical : List UInt8) (canonicalized : canonicalize payload = .ok canonical)
    (ideal : IdealSignature primitives entropy.seed (canonical ++ [0] ++ toLeBytes now))
    (digestHex : String) (issuedAt : Int64) :
    let credential := releasedCredential primitives canonical receipt now entropy chaos
    Binds primitives other digestHex credential.publicKeyHex credential.signatureHex issuedAt ↔
      payload.SameUpToOrder other ∧ digestHex = credential.payloadDigestHex ∧ issuedAt = now := by
  constructor
  · rintro ⟨form, key, signature, formOther, digest, keyDecoded, signatureDecoded, valid⟩
    rw [releasedCredential, hex] at keyDecoded signatureDecoded
    obtain rfl := Subtype.ext (Except.ok.inj keyDecoded)
    obtain rfl := Subtype.ext (Except.ok.inj signatureDecoded)
    obtain ⟨rfl, rfl⟩ := (message_inj _ _ _ _).mp ((ideal.verifies_iff _).mp valid)
    exact ⟨(canonicalize_eq_iff payload other uniquePayload uniqueOther form form canonicalized
      formOther).mp rfl, digest.symm, rfl⟩
  · rintro ⟨same, rfl, rfl⟩
    exact ⟨canonical, primitives.verifyingKey entropy.seed, _,
      canonicalize_of_same payload other uniquePayload uniqueOther same canonical canonicalized,
      rfl, hex _, hex _, (ideal.verifies_iff _).mpr rfl⟩

/-- The material of a released credential binds exactly the payload it was minted for. -/
theorem binds_released_iff (hex : HexRoundTrip primitives) (payload other : Value)
    (uniquePayload : payload.UniqueKeys) (uniqueOther : other.UniqueKeys)
    (receipt : PaymentReceipt) (now : Int64) (entropy : MintEntropy) (chaos : ChaosReport)
    (canonical : List UInt8) (canonicalized : canonicalize payload = .ok canonical)
    (ideal : IdealSignature primitives entropy.seed (canonical ++ [0] ++ toLeBytes now)) :
    let credential := releasedCredential primitives canonical receipt now entropy chaos
    Binds primitives other credential.payloadDigestHex credential.publicKeyHex
      credential.signatureHex credential.issuedAt ↔ payload.SameUpToOrder other :=
  (binds_altered_iff primitives hex payload other uniquePayload uniqueOther receipt now entropy
    chaos canonical canonicalized ideal _ _).trans (and_iff_left ⟨rfl, rfl⟩)

/-- A minted credential is accepted for the payload it was minted for, up to the order of object
members, and from the instant of the mint until sixty seconds later; and for nothing else. -/
theorem verify_mint_iff (hex : HexRoundTrip primitives) (payload : Value)
    (receipt : PaymentReceipt) (t : Int64) (entropy : MintEntropy)
    (credential : EphemeralCredential) (unique : payload.UniqueKeys)
    (inRange : t.toInt + 60 < 2 ^ 63)
    (minted : mint primitives payload receipt t entropy = .ok credential)
    (ideal : ∀ message, canonicalMessage payload t = .ok message →
      IdealSignature primitives entropy.seed message)
    (presented : Value) (uniquePresented : presented.UniqueKeys) (u : Int64) :
    verify primitives credential presented u = .ok () ↔
      payload.SameUpToOrder presented ∧ t.toInt ≤ u.toInt ∧ u.toInt < t.toInt + 60 := by
  obtain ⟨canonical, canonicalized, -, rfl⟩ := (mint_eq_ok _ _ _ _ _ _).mp minted
  have idealHere := ideal _ ((canonicalMessage_ok_iff _ _ _).mpr ⟨canonical, canonicalized, rfl⟩)
  have binds := binds_released_iff primitives hex payload presented unique uniquePresented receipt
    t entropy (mintChaos primitives canonical payload t entropy) canonical canonicalized idealHere
  have expiry : (t + credentialTtlSecs).toInt = t.toInt + 60 := by
    have ttl : credentialTtlSecs.toInt = 60 := by decide
    have low := Int64.le_toInt t
    rw [Int64.toInt_add, ttl, Int.bmod_eq_of_le (by omega) (by omega)]
  rw [verify_eq_ok]
  constructor
  · rintro ⟨-, started, unexpired, bound⟩
    exact ⟨binds.mp bound, Int64.le_iff_toInt_le.mp started,
      expiry ▸ Int64.lt_iff_toInt_lt.mp unexpired⟩
  · rintro ⟨same, started, unexpired⟩
    exact ⟨rfl, Int64.le_iff_toInt_le.mpr started,
      Int64.lt_iff_toInt_lt.mpr (expiry.symm ▸ unexpired), binds.mpr same⟩

/-- What a mint draws, all zeros but for the stranger's key. -/
def plainEntropy : MintEntropy where
  seed := .filled 32 0
  bits _ := 0
  stranger := .filled 32 1
  credentialId := .nil

theorem plainEntropy_stranger : plainEntropy.seed ≠ plainEntropy.stranger := by decide

/-- A payload with two members, the later key first. -/
def plainPayload : Value := .object [("side", .string "sell"), ("amount", .number (.posInt 3))]

/-- Its canonical form. -/
def plainForm : List UInt8 := utf8 "\x7b\"amount\":3,\"side\":\"sell\"\x7d".toList

theorem canonicalize_plainPayload : canonicalize plainPayload = .ok plainForm := rfl

theorem plainPayload_uniqueKeys : plainPayload.UniqueKeys := by simp [plainPayload]

/-- Another document is the payload, up to the order of its members, exactly when it has this
form. -/
theorem same_plainPayload_iff (presented : Value) (unique : presented.UniqueKeys) :
    plainPayload.SameUpToOrder presented ↔ canonicalize presented = .ok plainForm := by
  constructor
  · intro same
    exact canonicalize_of_same plainPayload presented plainPayload_uniqueKeys unique same plainForm
      canonicalize_plainPayload
  · intro formed
    exact (canonicalize_eq_iff plainPayload presented plainPayload_uniqueKeys unique plainForm
      plainForm canonicalize_plainPayload formed).mp rfl

/-- The primitives that mark what a mint of this payload signs are ideal for the message. -/
theorem plainPayload_ideal (now : Int64) (message : List UInt8)
    (formed : canonicalMessage plainPayload now = .ok message) :
    IdealSignature (markingPrimitives (plainForm ++ [0] ++ toLeBytes now)) plainEntropy.seed
      message := by
  have signed := (canonicalMessage_ok_iff plainPayload now _).mpr
    ⟨plainForm, canonicalize_plainPayload, rfl⟩
  cases signed.symm.trans formed
  exact markingPrimitives_ideal _ _

/-- The payload is minted, at whatever instant. -/
theorem mint_plainPayload (receipt : PaymentReceipt) (now : Int64) :
    let primitives := markingPrimitives (plainForm ++ [0] ++ toLeBytes now)
    mint primitives plainPayload receipt now plainEntropy =
      .ok (releasedCredential primitives plainForm receipt now plainEntropy
        (mintChaos primitives plainForm plainPayload now plainEntropy)) := by
  intro primitives
  have uniqueTampered : (tamper plainPayload).UniqueKeys := by
    simp [plainPayload, tamper, Value.insertMember]
  have tampered : ¬ plainPayload.SameUpToOrder (tamper plainPayload) := by
    rw [same_plainPayload_iff _ uniqueTampered]
    decide
  have clear := mintChaos_allClear primitives plainPayload now plainEntropy plainForm
    canonicalize_plainPayload (markingPrimitives_ideal _ _) plainPayload_uniqueKeys uniqueTampered
    tampered (markingPrimitives_stranger _ _ _ _ plainEntropy_stranger)
  exact (mint_eq_ok primitives plainPayload receipt now plainEntropy _).mpr
    ⟨plainForm, canonicalize_plainPayload, clear, rfl⟩

/-- It is accepted back within its window. -/
theorem verify_plainPayload (receipt : PaymentReceipt) (now later : Int64) (chaos : ChaosReport)
    (started : now ≤ later) (unexpired : later < now + credentialTtlSecs) :
    let primitives := markingPrimitives (plainForm ++ [0] ++ toLeBytes now)
    verify primitives (releasedCredential primitives plainForm receipt now plainEntropy chaos)
      plainPayload later = .ok () := by
  intro primitives
  refine (verify_eq_ok primitives _ plainPayload later).mpr ⟨rfl, started, unexpired, ?_⟩
  exact (binds_released_iff primitives (markingPrimitives_hex _) plainPayload plainPayload
    plainPayload_uniqueKeys plainPayload_uniqueKeys receipt now plainEntropy chaos plainForm
    canonicalize_plainPayload (markingPrimitives_ideal _ _)).mpr (Value.sameUpToOrder_refl _)

/-- A credential minted at 7 is good at 66, with the members in either order, and no more at 67 or
for another amount. -/
theorem verify_mint_iff_object :
    let primitives := markingPrimitives (plainForm ++ [0] ++ toLeBytes 7)
    let reordered := Value.object [("amount", .number (.posInt 3)), ("side", .string "sell")]
    let raised := Value.object [("side", .string "sell"), ("amount", .number (.posInt 4))]
    ∃ credential, mint primitives plainPayload (.cleared .nil "a" 7) 7 plainEntropy =
        .ok credential ∧
      verify primitives credential plainPayload 66 = .ok () ∧
      verify primitives credential reordered 66 = .ok () ∧
      verify primitives credential plainPayload 67 ≠ .ok () ∧
      verify primitives credential raised 66 ≠ .ok () := by
  intro primitives reordered raised
  have minted := mint_plainPayload (.cleared .nil "a" 7) 7
  have accepted := verify_mint_iff primitives (markingPrimitives_hex _) plainPayload
    (.cleared .nil "a" 7) 7 plainEntropy _ plainPayload_uniqueKeys (by decide) minted
    (plainPayload_ideal 7)
  have uniqueReordered : reordered.UniqueKeys := by simp [reordered]
  have uniqueRaised : raised.UniqueKeys := by simp [raised]
  refine ⟨_, minted, (accepted plainPayload plainPayload_uniqueKeys 66).mpr
    ⟨Value.sameUpToOrder_refl _, by decide, by decide⟩, (accepted reordered uniqueReordered 66).mpr
    ⟨(same_plainPayload_iff reordered uniqueReordered).mpr rfl, by decide, by decide⟩, ?_, ?_⟩
  · rw [ne_eq, accepted plainPayload plainPayload_uniqueKeys 67]
    rintro ⟨-, -, expired⟩
    exact absurd expired (by decide)
  · rw [ne_eq, accepted raised uniqueRaised 66, same_plainPayload_iff raised uniqueRaised]
    rintro ⟨formed, -⟩
    exact absurd formed (by decide)

end Hammurabi
