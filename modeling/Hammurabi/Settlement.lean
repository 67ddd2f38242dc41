/-
This file is the settlement envelope and the verifier a contract would run on it.

The envelope carries everything the verifier needs. Its path is written apart from
the vault's: it decodes the hexadecimal fields first, checks the digest next, and
rebuilds the signed message by hand before it checks lifetime, window and
signature. Both paths accept the same credentials, payloads and instants, also
after the envelope has been through its JSON form.
-/

import Hammurabi.Library.Derive
import Hammurabi.Vault

namespace Hammurabi

open Json

/-! ### Constants -/

/-- The settlement relay's IRC handle. -/
def relayHandle : String := "relay/1shot"

def oneshotEndpointStub : String :=
  "local://1shot/transactions/hammurabi-handoff-stub/execute"

def stylusVerifierStubAddress : String := "0x0000000000000000000000000000000000005710"

def arbitrumOneChainId : UInt64 := 42161

def verifierMethod : String := "verify_handoff"

/-! ### The envelope -/

/-- Everything the contract needs to run the verification again. -/
structure SettlementParams where
  intent : Value
  payloadDigestHex : String
  signerPublicKeyHex : String
  signatureHex : String
  issuedAt : Int64
  expiresAt : Int64
  receiptId : String
  feeMicroUsdc : UInt64

/-- The gasless broadcast envelope. -/
structure OneShotEnvelope where
  api : String
  endpoint : String
  broadcastMode : String
  chainId : UInt64
  contractAddress : String
  method : String
  idempotencyKey : String
  params : SettlementParams

/-- Package an intent payload, a minted credential and a burned receipt. -/
def OneShotEnvelope.package (intentPayload : Value) (credential : EphemeralCredential)
    (receipt : PaymentReceipt) : OneShotEnvelope where
  api := "1shot/v0-stub"
  endpoint := oneshotEndpointStub
  broadcastMode := "gasless-sponsored"
  chainId := arbitrumOneChainId
  contractAddress := stylusVerifierStubAddress
  method := verifierMethod
  idempotencyKey := credential.credentialId
  params := {
    intent := intentPayload
    payloadDigestHex := credential.payloadDigestHex
    signerPublicKeyHex := credential.publicKeyHex
    signatureHex := credential.signatureHex
    issuedAt := credential.issuedAt
    expiresAt := credential.expiresAt
    receiptId := receipt.receiptId
    feeMicroUsdc := receipt.amountMicroUsdc }

/-! ### The JSON form -/

namespace SettlementParams

def toJson (params : SettlementParams) : Value := .object [
  ("intent", params.intent),
  ("payload_digest_hex", .string params.payloadDigestHex),
  ("signer_public_key_hex", .string params.signerPublicKeyHex),
  ("signature_hex", .string params.signatureHex),
  ("issued_at", .ofInt64 params.issuedAt),
  ("expires_at", .ofInt64 params.expiresAt),
  ("receipt_id", .string params.receiptId),
  ("fee_micro_usdc", .ofUInt64 params.feeMicroUsdc)]

def fields : List Field := [.required "intent", .required "payload_digest_hex",
  .required "signer_public_key_hex", .required "signature_hex", .required "issued_at",
  .required "expires_at", .required "receipt_id", .required "fee_micro_usdc"]

def fromJson (value : Value) : Option SettlementParams := do
  let [intent, digest, key, signature, issuedAt, expiresAt, receiptId, fee] ←
    readRecord fields value | none
  return {
    intent := intent
    payloadDigestHex := ← digest.asStr
    signerPublicKeyHex := ← key.asStr
    signatureHex := ← signature.asStr
    issuedAt := ← readInt64 issuedAt
    expiresAt := ← readInt64 expiresAt
    receiptId := ← receiptId.asStr
    feeMicroUsdc := ← readUInt64 fee }

theorem fields_unique : (fields.map Field.name).Nodup := by decide

@[simp] theorem fromJson_toJson (params : SettlementParams) :
    fromJson params.toJson = some params := by
  rw [fromJson, toJson, readRecord_object fields _ fields_unique rfl]
  simp only [List.map_cons, List.map_nil, Option.bind_eq_bind, Option.bind_some,
    Value.asStr_string, readInt64_ofInt64, readUInt64_ofUInt64, Option.pure_def]

end SettlementParams

namespace OneShotEnvelope

/-- The final broadcast JSON. -/
def toBroadcastJson (envelope : OneShotEnvelope) : Value := .object [
  ("api", .string envelope.api),
  ("endpoint", .string envelope.endpoint),
  ("broadcast_mode", .string envelope.broadcastMode),
  ("chain_id", .ofUInt64 envelope.chainId),
  ("contract_address", .string envelope.contractAddress),
  ("method", .string envelope.method),
  ("idempotency_key", .string envelope.idempotencyKey),
  ("params", envelope.params.toJson)]

def fields : List Field := [.required "api", .required "endpoint", .required "broadcast_mode",
  .required "chain_id", .required "contract_address", .required "method",
  .required "idempotency_key", .required "params"]

def fromJson (value : Value) : Option OneShotEnvelope := do
  let [api, endpoint, mode, chainId, address, method, key, params] ←
    readRecord fields value | none
  return {
    api := ← api.asStr
    endpoint := ← endpoint.asStr
    broadcastMode := ← mode.asStr
    chainId := ← readUInt64 chainId
    contractAddress := ← address.asStr
    method := ← method.asStr
    idempotencyKey := ← key.asStr
    params := ← SettlementParams.fromJson params }

theorem fields_unique : (fields.map Field.name).Nodup := by decide

/-- An envelope survives its JSON form. -/
@[simp] theorem fromJson_toBroadcastJson (envelope : OneShotEnvelope) :
    fromJson envelope.toBroadcastJson = some envelope := by
  rw [fromJson, toBroadcastJson, readRecord_object fields _ fields_unique rfl]
  simp only [List.map_cons, List.map_nil, Option.bind_eq_bind, Option.bind_some,
    Value.asStr_string, readUInt64_ofUInt64, SettlementParams.fromJson_toJson, Option.pure_def]

end OneShotEnvelope

/-! ### The contract's verifier -/

/-- Failure modes of the handoff verifier. -/
inductive HandoffVerifyError where
  | malformedTtl
  | outsideValidity (issuedAt expiresAt now : Int64)
  | digestMismatch
  | signatureInvalid
  | malformed (detail : String)
  deriving DecidableEq, Repr

def HandoffVerifyError.toString : HandoffVerifyError → String
  | .malformedTtl => s!"credential TTL is not the strict {credentialTtlSecs}s window"
  | .outsideValidity issuedAt expiresAt now =>
    s!"outside validity window (issued_at={issuedAt}, expires_at={expiresAt}, now={now})"
  | .digestMismatch => "payload digest mismatch — envelope intent differs from the signed one"
  | .signatureInvalid => "signature invalid"
  | .malformed detail => s!"malformed material: {detail}"

variable (primitives : Primitives)

/-- The reference verifier: structural lifetime, window, and the signature over the rebuilt
message. -/
def verifyHandoff (signerPublicKey : PublicKeyBytes) (signature : SignatureBytes)
    (canonicalIntent : List UInt8) (issuedAt expiresAt now : Int64) :
    Except HandoffVerifyError Unit := do
  if expiresAt ≠ issuedAt + credentialTtlSecs then
    throw .malformedTtl
  if now < issuedAt ∨ now ≥ expiresAt then
    throw (.outsideValidity issuedAt expiresAt now)
  let msg := canonicalIntent ++ [0] ++ toLeBytes issuedAt
  (verifyBytes primitives signerPublicKey msg signature.1).mapError fun _ => .signatureInvalid

def decodeHexArray (length : Nat) (text : String) :
    Except HandoffVerifyError (FixedBytes length) :=
  decodeBytes primitives .malformed length text

/-- Decode the fields, canonicalize the intent, check the digest, and run the reference
verifier. -/
def SettlementParams.verify (params : SettlementParams) (now : Int64) :
    Except HandoffVerifyError Unit := do
  let publicKey ← decodeHexArray primitives 32 params.signerPublicKeyHex
  let signature ← decodeHexArray primitives 64 params.signatureHex
  let canonical ← (canonicalize params.intent).mapError fun e => .malformed e.toString
  if primitives.hexEncode (blake3Hash primitives canonical).1 ≠ params.payloadDigestHex then
    throw .digestMismatch
  verifyHandoff primitives publicKey signature canonical params.issuedAt params.expiresAt now

def OneShotEnvelope.verify (envelope : OneShotEnvelope) (now : Int64) :
    Except HandoffVerifyError Unit :=
  envelope.params.verify primitives now

/-! ### The two verifiers agree -/

/-- The contract accepts exactly what is acceptable. -/
theorem SettlementParams.verify_eq_ok (params : SettlementParams) (now : Int64) :
    params.verify primitives now = .ok () ↔
      Acceptable primitives params.intent params.payloadDigestHex params.signerPublicKeyHex
        params.signatureHex params.issuedAt params.expiresAt now := by
  simp only [SettlementParams.verify, verifyHandoff, decodeHexArray, Outcome.guard_eq_ok,
    Outcome.bind_eq_ok, Outcome.mapError_eq_ok, decodeBytes_eq_ok, verifyBytes_val]
  rw [not_ne_iff, not_or, Int64.not_lt, ge_iff_le, Int64.not_le]
  constructor
  · rintro ⟨key, keyDecoded, signature, signatureDecoded, canonical, canonicalized, digest,
      strictTtl, ⟨started, unexpired⟩, valid⟩
    exact ⟨strictTtl, started, unexpired, canonical, key, signature, canonicalized,
      not_ne_iff.mp digest, keyDecoded, signatureDecoded, valid⟩
  · rintro ⟨strictTtl, started, unexpired, canonical, key, signature, canonicalized, digest,
      keyDecoded, signatureDecoded, valid⟩
    exact ⟨key, keyDecoded, signature, signatureDecoded, canonical, canonicalized,
      not_ne_iff.mpr digest, strictTtl, ⟨started, unexpired⟩, valid⟩

/-- The vault and the contract accept the same credentials, for every payload, receipt and
instant; and the contract still does on the envelope read back from its JSON form. -/
theorem verify_package_iff (credential : EphemeralCredential) (payload : Value)
    (receipt : PaymentReceipt) (now : Int64) :
    let envelope := OneShotEnvelope.package payload credential receipt
    (verify primitives credential payload now = .ok () ↔
      envelope.verify primitives now = .ok ()) ∧
    ∃ again, OneShotEnvelope.fromJson envelope.toBroadcastJson = some again ∧
      (verify primitives credential payload now = .ok () ↔
        again.verify primitives now = .ok ()) := by
  intro envelope
  have agree : verify primitives credential payload now = .ok () ↔
      envelope.verify primitives now = .ok () := by
    rw [verify_eq_ok, OneShotEnvelope.verify, SettlementParams.verify_eq_ok]
    rfl
  exact ⟨agree, envelope, OneShotEnvelope.fromJson_toBroadcastJson envelope, agree⟩

end Hammurabi
