/-
This file is the byte-oriented seam of the cryptographic bedrock: the errors, the
Ed25519 identity and the two verification entry points.

The primitives themselves are crates outside the repository, so they are the
fields of a structure the development is parametric in. What the repository
relies on about them is stated separately, as propositions a theorem may assume.
-/

import Hammurabi.Library.Hex

namespace Hammurabi

/-! ### Errors -/

/-- The unified error of the bedrock. -/
inductive CryptoError where
  | invalidKey (detail : String)
  | signatureInvalid
  | keystore (detail : String)
  | sealFailed
  | featureGated (detail : String)
  | token (detail : String)
  | canonicalization (detail : String)
  deriving DecidableEq, Repr

/-- The displayed text of an error. -/
def CryptoError.toString : CryptoError → String
  | .invalidKey detail => s!"invalid key: {detail}"
  | .signatureInvalid => "signature verification failed"
  | .keystore detail => s!"keystore error: {detail}"
  | .sealFailed => "seal/open failed"
  | .featureGated detail => s!"feature gated: {detail}"
  | .token detail => s!"token error: {detail}"
  | .canonicalization detail => s!"canonicalization rejected: {detail}"

abbrev CryptoResult := Except CryptoError

/-! ### Byte arrays of fixed length -/

/-- An array of exactly `length` bytes. -/
abbrev FixedBytes (length : Nat) := {bytes : List UInt8 // bytes.length = length}

/-- The array that repeats one byte, as `[byte; length]`. -/
def FixedBytes.filled (length : Nat) (byte : UInt8) : FixedBytes length :=
  ⟨List.replicate length byte, List.length_replicate⟩

/-- A byte string as an array of fixed length, when it has that length. -/
def FixedBytes.ofList? (length : Nat) (bytes : List UInt8) : Option (FixedBytes length) :=
  if fits : bytes.length = length then some ⟨bytes, fits⟩ else none

@[simp] theorem FixedBytes.ofList?_val {length : Nat} (bytes : FixedBytes length) :
    FixedBytes.ofList? length bytes.1 = some bytes := by
  rw [FixedBytes.ofList?, dif_pos bytes.2]

theorem FixedBytes.ofList?_eq_some (length : Nat) (bytes : List UInt8)
    (fixed : FixedBytes length) :
    FixedBytes.ofList? length bytes = some fixed ↔ bytes = fixed.1 := by
  constructor
  · intro same
    rw [FixedBytes.ofList?] at same
    split at same
    · rw [← Option.some.inj same]
    · cases same
  · rintro rfl
    exact FixedBytes.ofList?_val fixed

/-- A raw Ed25519 public key: the sovereign address. -/
abbrev PublicKeyBytes := FixedBytes 32

abbrev SignatureBytes := FixedBytes 64

abbrev Seed := FixedBytes 32

/-! ### The primitives -/

/-- What the bedrock takes from the crates it is built on. -/
structure Primitives where
  blake3 : List UInt8 → FixedBytes 32
  /-- The public key of the signing key a seed expands to. -/
  verifyingKey : Seed → PublicKeyBytes
  sign : Seed → List UInt8 → SignatureBytes
  /-- Why a byte array is not a public key, if it is not one. -/
  keyRefusal : PublicKeyBytes → Option String
  accepts : PublicKeyBytes → List UInt8 → SignatureBytes → Bool
  hexEncode : List UInt8 → String
  hexDecode : String → Except String (List UInt8)

variable (primitives : Primitives)

/-- BLAKE3 digest: the ledger and convergence hash. -/
def blake3Hash (bytes : List UInt8) : FixedBytes 32 := primitives.blake3 bytes

/-! ### Identities -/

/-- An Ed25519 keypair, as the seed it is expanded from. -/
structure Identity where
  seed : Seed

def Identity.fromSeed (seed : Seed) : Identity := ⟨seed⟩

def Identity.publicKey (identity : Identity) : PublicKeyBytes :=
  primitives.verifyingKey identity.seed

def Identity.signBytes (identity : Identity) (message : List UInt8) : SignatureBytes :=
  primitives.sign identity.seed message

/-- Verify an Ed25519 signature over a message against a public key. -/
def verifySignature (publicKey : PublicKeyBytes) (message : List UInt8)
    (signature : SignatureBytes) : CryptoResult Unit :=
  match primitives.keyRefusal publicKey with
  | some refusal => .error (.invalidKey refusal)
  | none =>
    if primitives.accepts publicKey message signature then .ok () else .error .signatureInvalid

/-- Verify a raw signature; one of the wrong length is a verification failure. -/
def verifyBytes (publicKey : PublicKeyBytes) (message : List UInt8)
    (signature : List UInt8) : CryptoResult Unit :=
  match FixedBytes.ofList? 64 signature with
  | none => .error .signatureInvalid
  | some signature => verifySignature primitives publicKey message signature

@[simp] theorem verifyBytes_val (publicKey : PublicKeyBytes) (message : List UInt8)
    (signature : SignatureBytes) :
    verifyBytes primitives publicKey message signature.1 =
      verifySignature primitives publicKey message signature := by
  simp only [verifyBytes, FixedBytes.ofList?_val]

/-! ### What is assumed of the primitives -/

/-- Hexadecimal decoding inverts hexadecimal encoding. -/
def HexRoundTrip : Prop :=
  ∀ bytes, primitives.hexDecode (primitives.hexEncode bytes) = .ok bytes

/-- The ideal signature scheme, at one key and one message it signs: the key verifies exactly its
own signatures, and no other message has the signature of this one.

Signatures are 64 bytes, so no scheme can give all messages different signatures; what is
idealised is that the signature at hand is not also the signature of another message. -/
structure IdealSignature (seed : Seed) (message : List UInt8) : Prop where
  accepts : ∀ other signature,
    verifySignature primitives (primitives.verifyingKey seed) other signature = .ok () ↔
      signature = primitives.sign seed other
  binds : ∀ other, primitives.sign seed other = primitives.sign seed message → other = message

/-- The signature of a message verifies on that message alone. -/
theorem IdealSignature.verifies_iff {primitives : Primitives} {seed : Seed}
    {message : List UInt8} (ideal : IdealSignature primitives seed message)
    (other : List UInt8) :
    verifySignature primitives (primitives.verifyingKey seed) other
        (primitives.sign seed message) = .ok () ↔ other = message := by
  rw [ideal.accepts]
  constructor
  · intro same
    exact ideal.binds other same.symm
  · rintro rfl
    rfl

/-! ### An instance of what is assumed -/

/-- Primitives in which one message has a signature of its own under every key. -/
def markingPrimitives (marked : List UInt8) : Primitives where
  blake3 _ := .filled 32 0
  verifyingKey seed := seed
  sign seed message := ⟨seed.1 ++ List.replicate 32 (if message = marked then 1 else 0), by
    rw [List.length_append, seed.2, List.length_replicate]⟩
  keyRefusal _ := none
  accepts key message signature :=
    signature.1 = key.1 ++ List.replicate 32 (if message = marked then 1 else 0)
  hexEncode := Hex.encode
  hexDecode := Hex.decode

theorem markingPrimitives_hex (marked : List UInt8) : HexRoundTrip (markingPrimitives marked) :=
  Hex.decode_encode

theorem markingPrimitives_verifies (marked message : List UInt8) (key : PublicKeyBytes)
    (signature : SignatureBytes) :
    verifySignature (markingPrimitives marked) key message signature = .ok () ↔
      signature = (markingPrimitives marked).sign key message := by
  rw [Subtype.ext_iff]
  simp only [verifySignature, markingPrimitives, decide_eq_true_eq, ite_eq_left_iff, reduceCtorEq,
    imp_false, not_not]

theorem markingPrimitives_ideal (marked : List UInt8) (seed : Seed) :
    IdealSignature (markingPrimitives marked) seed marked where
  accepts message signature := markingPrimitives_verifies marked message seed signature
  binds other same := by
    have marks := List.append_cancel_left (congrArg Subtype.val same)
    by_contra different
    rw [if_neg different, if_pos rfl] at marks
    exact absurd marks (by decide)

/-- No other key verifies the signature of a key. -/
theorem markingPrimitives_stranger (marked message : List UInt8) (seed stranger : Seed)
    (different : seed ≠ stranger) :
    verifySignature (markingPrimitives marked) stranger message
      ((markingPrimitives marked).sign seed message) ≠ .ok () := by
  rw [ne_eq, markingPrimitives_verifies]
  intro same
  exact different (Subtype.ext (List.append_cancel_right (congrArg Subtype.val same)))

end Hammurabi
