/-
This file is about the sizes of what the router answers, as texts of JSON.

The bridge reads an answer only within a limit of bytes. Almost all of an answer has a
fixed length: the names of its members, the texts that the code itself puts in, digests,
keys, signatures and ids. What varies is the payload, the texts that a client chose, and
the digits of the instants. So the size of every answer is told by its inputs.
-/

import Hammurabi.System

namespace Hammurabi

open Json Unicode

/-! ### Texts of a fixed length -/

/-- Hexadecimal texts are two lower-case digits a byte. -/
def HexText (primitives : Primitives) : Prop :=
  ∀ bytes, primitives.hexEncode bytes = Hex.encode bytes

theorem keyLength_hex (bytes : List UInt8) :
    keyLength (Hex.encode bytes) = 2 * bytes.length + 2 := by
  have each : ∀ number, escapeChar (Hex.digit number) = [Hex.digit number] ∧
      (Hex.digit number).toNat < 0x80 := by
    intro number
    have digits : ∀ number < 16, escapeChar (Nat.digitChar number) = [Nat.digitChar number] ∧
        (Nat.digitChar number).toNat < 0x80 := by decide
    exact digits _ (Nat.mod_lt _ (by decide))
  rw [keyLength_plain, Hex.encode, String.toList_ofList, Hex.length_encodeChars]
  intro c member
  rw [Hex.encode, String.toList_ofList] at member
  obtain ⟨byte, -, digits⟩ := List.mem_flatMap.mp member
  rcases List.mem_cons.mp digits with rfl | digits
  · exact each _
  · rw [List.mem_singleton.mp digits]
    exact each _

theorem keyLength_hexEncode (primitives : Primitives) (hexText : HexText primitives)
    {length : Nat} (bytes : FixedBytes length) :
    keyLength (primitives.hexEncode bytes.1) = 2 * length + 2 := by
  rw [hexText, keyLength_hex, bytes.2]

theorem keyLength_ulid (ulid : Ulid) : keyLength ulid.toString = 28 := by
  have every : (Ulid.alphabet.all fun c => escapeChar c = [c] ∧ c.toNat < 0x80) = true := by decide
  rw [keyLength_plain, Ulid.toString, String.toList_ofList, Ulid.length_toChars]
  intro c member
  rw [Ulid.toString, String.toList_ofList] at member
  obtain ⟨k, -, rfl⟩ := List.mem_map.mp member
  exact of_decide_eq_true (List.all_eq_true.mp every _ (List.get_mem _ _))

theorem length_utf8_toDigits (value digits : Nat) (some : 0 < digits)
    (small : value < 10 ^ digits) : (utf8 (Nat.toDigits 10 value)).length ≤ digits := by
  rw [length_utf8_ascii _ fun c member => ?_]
  · exact (Nat.length_toDigits_le_iff (by decide) some).mpr small
  · have digit := isDigit_toDigits value c member
    rw [Char.isDigit, Bool.and_eq_true, decide_eq_true_iff, decide_eq_true_iff] at digit
    exact Nat.lt_of_le_of_lt digit.2 (by decide)

/-- The text of an instant is at most twenty characters long. -/
theorem byteLength_ofInt64_le (value : Int64) : (Value.ofInt64 value).byteLength ≤ 20 := by
  have low := Int64.le_toInt value
  have high := Int64.toInt_lt value
  rw [Value.ofInt64, Value.byteLength]
  split
  · rw [Value.text, numberText, utf8_cons]
    have short := length_utf8_toDigits value.toInt.natAbs 19 (by decide) (by omega)
    have sign : (String.utf8EncodeChar '-').length = 1 := rfl
    rw [List.length_append, sign]
    omega
  · rw [Value.text, numberText]
    refine length_utf8_toDigits _ 20 (by decide) ?_
    have bound := value.toUInt64.toNat_lt
    omega

/-! ### Feeds and intents -/

/-- The bytes of a feed as a document: its lines, the commas between them, and the brackets. -/
def feedLength (lines : List MeshMessage) : Nat :=
  (lines.map fun line => line.toJson.byteLength).sum + (lines.length - 1) + 2

theorem byteLength_feed (lines : List MeshMessage) :
    (Value.array (lines.map MeshMessage.toJson)).byteLength = feedLength lines := by
  rw [byteLength_array, List.map_map, List.length_map]
  rfl

/-- The size of the mock intent. -/
theorem byteLength_mock (ulid : Ulid) :
    (AgentIntent.mockEthLimitOrder ulid).payload.byteLength = 239 := by
  have id := keyLength_ulid ulid
  have order : (AgentIntent.mockEthLimitOrder .nil).order.toJson.byteLength = 126 := by
    decide +kernel
  have keys : keyLength "intent_id" = 11 ∧ keyLength "agent_handle" = 14 ∧
      keyLength "action" = 8 ∧ keyLength "order" = 7 := by decide +kernel
  have texts : keyLength mockAgentHandle = 15 ∧ keyLength "execute_limit_order" = 21 := by
    decide +kernel
  rw [AgentIntent.payload, byteLength_object _ (List.cons_ne_nil _ _)]
  dsimp only [AgentIntent.mockEthLimitOrder] at order ⊢
  simp only [List.map_cons, List.map_nil, List.sum_cons, List.sum_nil, List.length_cons,
    List.length_nil, byteLength_string, order, id, keys, texts]
  rfl

/-! ### Settlements and refusals -/

/-- The size of the body of a settlement without a payment. -/
theorem byteLength_settlement (intentId : String) :
    (Value.object [("intent_id", .string intentId)]).byteLength = keyLength intentId + 14 := by
  have name : keyLength "intent_id" = 11 := by decide +kernel
  rw [byteLength_object _ (List.cons_ne_nil _ _)]
  simp only [List.map_cons, List.map_nil, List.sum_cons, List.sum_nil, List.length_cons,
    List.length_nil, byteLength_string, name]
  omega

/-- The bytes of the receipt of a settlement. -/
def receiptLength (intentId : String) (now : Int64) : Nat :=
  keyLength intentId + (Value.ofInt64 now).byteLength + 97

theorem byteLength_receipt (ulid : Ulid) (intentId : String) (now : Int64) :
    (PaymentReceipt.cleared ulid intentId now).toJson.byteLength = receiptLength intentId now := by
  have names : keyLength "receipt_id" = 12 ∧ keyLength "intent_id" = 11 ∧
      keyLength "amount_micro_usdc" = 19 ∧ keyLength "cleared_at" = 12 := by decide +kernel
  have fee : (Value.ofUInt64 executionFeeMicroUsdc).byteLength = 6 := by decide
  have id := keyLength_ulid ulid
  rw [PaymentReceipt.toJson, byteLength_object _ (List.cons_ne_nil _ _)]
  dsimp only [PaymentReceipt.cleared]
  simp only [List.map_cons, List.map_nil, List.sum_cons, List.sum_nil, List.length_cons,
    List.length_nil, byteLength_string, names, fee, id, receiptLength]
  omega

/-- The bytes of what a refused execution is answered with. -/
def quoteLength (intentId : String) : Nat := keyLength intentId + 285

theorem byteLength_quote (intentId : String) :
    (Value.object [("error", .string "payment_required"),
      ("accepts", .array [(PaymentTerms.quote intentId).toJson])]).byteLength =
        quoteLength intentId := by
  have names : keyLength "x402_version" = 14 ∧ keyLength "scheme" = 8 ∧
      keyLength "network" = 9 ∧ keyLength "asset" = 7 ∧ keyLength "amount_micro" = 14 ∧
      keyLength "amount_display" = 16 ∧ keyLength "pay_to" = 8 ∧ keyLength "intent_id" = 11 ∧
      keyLength "resolution" = 12 := by decide +kernel
  have texts : keyLength "exact" = 7 ∧ keyLength "arbitrum-stylus-local-stub" = 28 ∧
      keyLength "USDC" = 6 ∧ keyLength "0.50 USDC" = 11 ∧
      keyLength "vault/handshake@127.0.0.1" = 27 ∧
      keyLength "POST /x402/settle \x7b\"intent_id\": ...\x7d" = 40 := by decide +kernel
  have numbers : (Value.ofUInt64 (UInt8.toUInt64 1)).byteLength = 1 ∧
      (Value.ofUInt64 executionFeeMicroUsdc).byteLength = 6 := by decide +kernel
  have terms : (PaymentTerms.quote intentId).toJson.byteLength = keyLength intentId + 244 := by
    rw [PaymentTerms.toJson, byteLength_object _ (List.cons_ne_nil _ _)]
    dsimp only [PaymentTerms.quote]
    simp only [List.map_cons, List.map_nil, List.sum_cons, List.sum_nil, List.length_cons,
      List.length_nil, byteLength_string, names, texts, numbers]
    omega
  have outer : keyLength "error" = 7 ∧ keyLength "accepts" = 9 ∧
      keyLength "payment_required" = 18 := by decide +kernel
  rw [byteLength_object _ (List.cons_ne_nil _ _)]
  simp only [List.map_cons, List.map_nil, List.sum_cons, List.sum_nil, List.length_cons,
    List.length_nil, byteLength_string, byteLength_array, terms, outer, quoteLength]
  omega

/-! ### Envelopes -/

/-- A credential whose texts are those of a digest, a key, a signature and a ULID. -/
structure EphemeralCredential.Sized (credential : EphemeralCredential) : Prop where
  digest : keyLength credential.payloadDigestHex = 66
  key : keyLength credential.publicKeyHex = 66
  signature : keyLength credential.signatureHex = 130
  credentialId : keyLength credential.credentialId = 28

theorem sized_released (primitives : Primitives) (hexText : HexText primitives)
    (canonical : List UInt8) (receipt : PaymentReceipt) (now : Int64) (entropy : MintEntropy)
    (chaos : ChaosReport) :
    (releasedCredential primitives canonical receipt now entropy chaos).Sized where
  digest := keyLength_hexEncode primitives hexText (blake3Hash primitives canonical)
  key := keyLength_hexEncode primitives hexText (primitives.verifyingKey entropy.seed)
  signature := keyLength_hexEncode primitives hexText (primitives.sign entropy.seed _)
  credentialId := keyLength_ulid entropy.credentialId

/-- The bytes of the envelope of an intent under a receipt, with the text of the two instants. -/
def envelopeLength (payload : Value) (receipt : PaymentReceipt) (now : Int64) : Nat :=
  payload.byteLength + keyLength receipt.receiptId +
    (Value.ofUInt64 receipt.amountMicroUsdc).byteLength + (Value.ofInt64 now).byteLength +
    (Value.ofInt64 (now + credentialTtlSecs)).byteLength + 691

/-- What the envelope of an intent adds to the text of its payload: the frame, with the text of the
two instants. -/
def frameLength (now : Int64) : Nat :=
  725 + (Value.ofInt64 now).byteLength + (Value.ofInt64 (now + credentialTtlSecs)).byteLength

theorem envelopeLength_cleared (payload : Value) (ulid : Ulid) (intentId : String)
    (cleared now : Int64) :
    envelopeLength payload (.cleared ulid intentId cleared) now =
      payload.byteLength + frameLength now := by
  have receipt := keyLength_ulid ulid
  have fee : (Value.ofUInt64 executionFeeMicroUsdc).byteLength = 6 := by decide
  rw [envelopeLength, frameLength, PaymentReceipt.cleared]
  dsimp only
  rw [receipt, fee]
  omega

/-- The size of the parameters of an envelope. -/
theorem byteLength_params (payload : Value) (credential : EphemeralCredential)
    (sized : credential.Sized) (receipt : PaymentReceipt) :
    (OneShotEnvelope.package payload credential receipt).params.toJson.byteLength =
      payload.byteLength + keyLength receipt.receiptId +
        (Value.ofUInt64 receipt.amountMicroUsdc).byteLength +
        (Value.ofInt64 credential.issuedAt).byteLength +
        (Value.ofInt64 credential.expiresAt).byteLength + 396 := by
  have keys : keyLength "intent" + keyLength "payload_digest_hex" +
      keyLength "signer_public_key_hex" + keyLength "signature_hex" + keyLength "issued_at" +
      keyLength "expires_at" + keyLength "receipt_id" + keyLength "fee_micro_usdc" = 117 := by
    decide +kernel
  rw [SettlementParams.toJson, byteLength_object _ (List.cons_ne_nil _ _)]
  dsimp only [OneShotEnvelope.package]
  simp only [List.map_cons, List.map_nil, List.sum_cons, List.sum_nil, List.length_cons,
    List.length_nil, byteLength_string, sized.digest, sized.key, sized.signature]
  omega

/-- The size of an envelope. -/
theorem byteLength_package (payload : Value) (credential : EphemeralCredential)
    (sized : credential.Sized) (receipt : PaymentReceipt) :
    (OneShotEnvelope.package payload credential receipt).toBroadcastJson.byteLength =
      payload.byteLength + keyLength receipt.receiptId +
        (Value.ofUInt64 receipt.amountMicroUsdc).byteLength +
        (Value.ofInt64 credential.issuedAt).byteLength +
        (Value.ofInt64 credential.expiresAt).byteLength + 691 := by
  have params := byteLength_params payload credential sized receipt
  have constants : keyLength "1shot/v0-stub" + keyLength oneshotEndpointStub +
      keyLength "gasless-sponsored" + (Value.ofUInt64 arbitrumOneChainId).byteLength +
      keyLength stylusVerifierStubAddress + keyLength verifierMethod = 158 := by decide +kernel
  have keys : keyLength "api" + keyLength "endpoint" + keyLength "broadcast_mode" +
      keyLength "chain_id" + keyLength "contract_address" + keyLength "method" +
      keyLength "idempotency_key" + keyLength "params" = 92 := by decide +kernel
  rw [OneShotEnvelope.toBroadcastJson, byteLength_object _ (List.cons_ne_nil _ _)]
  simp only [List.map_cons, List.map_nil, List.sum_cons, List.sum_nil, List.length_cons,
    List.length_nil, byteLength_string, params]
  dsimp only [OneShotEnvelope.package]
  rw [sized.credentialId]
  omega

/-- The size of the envelope of a released credential. -/
theorem byteLength_released (primitives : Primitives) (hexText : HexText primitives)
    (payload : Value) (canonical : List UInt8) (receipt : PaymentReceipt) (now : Int64)
    (entropy : MintEntropy) (chaos : ChaosReport) :
    (OneShotEnvelope.package payload (releasedCredential primitives canonical receipt now entropy
      chaos) receipt).toBroadcastJson.byteLength = envelopeLength payload receipt now := by
  rw [byteLength_package payload _
    (sized_released primitives hexText canonical receipt now entropy chaos) receipt]
  rfl

end Hammurabi
