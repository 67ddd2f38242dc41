/-
This file is the lifetime arithmetic of the vault and the contract under either build
profile.

Minting and verifying are written out once more, with each addition and subtraction of
seconds as one that may abort. Where none does, they are the functions of the vault
and of the settlement; so what is new is only where a run of them aborts, and this
depends on which checks come before the addition.
-/

import Hammurabi.Library.Overflow
import Hammurabi.Settlement

namespace Hammurabi

open Json Overflow

variable (profile : Profile) (primitives : Primitives)

/-! ### The functions -/

/-- Verify a credential, with an addition that may abort. -/
def verifyIn (credential : EphemeralCredential) (payload : Value) (now : Int64) :
    ExceptT VaultError Option Unit := do
  let strictExpiry ← profile.add credential.issuedAt credentialTtlSecs
  if credential.expiresAt ≠ strictExpiry then
    throw .malformedTtl
  if now < credential.issuedAt ∨ now ≥ credential.expiresAt then
    throw (.outsideValidity credential.issuedAt credential.expiresAt now)
  let canonical ← (canonicalize payload).mapError fun e => VaultError.canonicalization e.toString
  if primitives.hexEncode (blake3Hash primitives canonical).1 ≠ credential.payloadDigestHex then
    throw .digestMismatch
  let publicKey ← decodeFixed primitives 32 credential.publicKeyHex
  let signature ← decodeFixed primitives 64 credential.signatureHex
  (verifyPayload primitives publicKey payload credential.issuedAt signature).mapError
    fun _ => VaultError.signatureInvalid

/-- The reference verifier, with an addition that may abort. -/
def verifyHandoffIn (signerPublicKey : PublicKeyBytes) (signature : SignatureBytes)
    (canonicalIntent : List UInt8) (issuedAt expiresAt now : Int64) :
    ExceptT HandoffVerifyError Option Unit := do
  let strictExpiry ← profile.add issuedAt credentialTtlSecs
  if expiresAt ≠ strictExpiry then
    throw .malformedTtl
  if now < issuedAt ∨ now ≥ expiresAt then
    throw (.outsideValidity issuedAt expiresAt now)
  let msg := canonicalIntent ++ [0] ++ toLeBytes issuedAt
  (verifyBytes primitives signerPublicKey msg signature.1).mapError
    fun _ => HandoffVerifyError.signatureInvalid

/-- Verify an envelope: the addition comes after the decoding and the digest. -/
def SettlementParams.verifyIn (params : SettlementParams) (now : Int64) :
    ExceptT HandoffVerifyError Option Unit := do
  let publicKey ← decodeHexArray primitives 32 params.signerPublicKeyHex
  let signature ← decodeHexArray primitives 64 params.signatureHex
  let canonical ← (canonicalize params.intent).mapError fun e =>
    HandoffVerifyError.malformed e.toString
  if primitives.hexEncode (blake3Hash primitives canonical).1 ≠ params.payloadDigestHex then
    throw .digestMismatch
  verifyHandoffIn profile primitives publicKey signature canonical params.issuedAt
    params.expiresAt now

/-- Whether a timestamp shifted either way is rejected; the earlier one is tried when the later one
was rejected. -/
def shiftedTimestampRejectedIn (publicKey : PublicKeyBytes) (payload : Value) (timestamp : Int64)
    (signature : SignatureBytes) : Option Bool := do
  let later ← profile.add timestamp 1
  if rejects primitives publicKey payload later signature then
    let earlier ← profile.sub timestamp 1
    return rejects primitives publicKey payload earlier signature
  else
    return false

/-- Attack a signature, with a shift of the timestamp that may abort. -/
def chaosTestIn (publicKey : PublicKeyBytes) (payload : Value) (timestamp : Int64)
    (signature : SignatureBytes) (entropy : MintEntropy) : Option ChaosReport := do
  let shifted ← shiftedTimestampRejectedIn profile primitives publicKey payload timestamp signature
  return { chaosTest primitives publicKey payload timestamp signature entropy with
    shiftedTimestampRejected := shifted }

/-- Mint a credential: the expiry is added up after the probes are clear. -/
def mintIn (payload : Value) (receipt : PaymentReceipt) (now : Int64) (entropy : MintEntropy) :
    ExceptT VaultError Option EphemeralCredential := do
  let canonical ← (canonicalize payload).mapError fun e => VaultError.canonicalization e.toString
  let digest := blake3Hash primitives canonical
  let identity := Identity.fromSeed entropy.seed
  let publicKey := identity.publicKey primitives
  let signature ← (signPayload primitives identity payload now).mapError fun e =>
    VaultError.canonicalization e.toString
  let chaos ← chaosTestIn profile primitives publicKey payload now signature entropy
  if !chaos.allClear then
    throw (.chaos chaos)
  let expiry ← profile.add now credentialTtlSecs
  return {
    credentialId := entropy.credentialId.toString
    intentId := receipt.intentId
    receiptId := receipt.receiptId
    publicKeyHex := primitives.hexEncode publicKey.1
    signatureHex := primitives.hexEncode signature.1
    payloadDigestHex := primitives.hexEncode digest.1
    issuedAt := now
    expiresAt := expiry
    chaos := chaos }

/-! ### Where they abort -/

/-- The addition of a lifetime does not abort. -/
def Lasts (issuedAt : Int64) : Prop := profile.Allows (issuedAt.toInt + 60)

theorem add_ttl (issuedAt : Int64) :
    (Lasts profile issuedAt →
      profile.add issuedAt credentialTtlSecs = some (issuedAt + credentialTtlSecs)) ∧
    (¬ Lasts profile issuedAt → profile.add issuedAt credentialTtlSecs = none) := by
  have ttl : credentialTtlSecs.toInt = 60 := by decide
  rw [Profile.add_eq, ttl]
  exact ⟨fun lasts => if_pos lasts, fun exceeds => if_neg exceeds⟩

/-- The vault's verification aborts when the lifetime cannot be added. -/
theorem verifyIn_eq_some_iff (credential : EphemeralCredential) (payload : Value) (now : Int64)
    (result : Except VaultError Unit) :
    verifyIn profile primitives credential payload now = some result ↔
      Lasts profile credential.issuedAt ∧ result = verify primitives credential payload now := by
  refine eq_some_iff_of_cases (fun lasts => ?_) (fun exceeds => ?_) result
  · rw [verifyIn, (add_ttl profile _).1 lasts]
    refine arrives_guard fun _ => arrives_guard fun _ => arrives_bind fun canonical _ => ?_
    exact arrives_guard fun _ => arrives_bind fun publicKey _ => arrives_bind fun signature _ => rfl
  · rw [verifyIn, (add_ttl profile _).2 exceeds]
    rfl

theorem verifyHandoffIn_eq_some_iff (signerPublicKey : PublicKeyBytes)
    (signature : SignatureBytes) (canonicalIntent : List UInt8) (issuedAt expiresAt now : Int64)
    (result : Except HandoffVerifyError Unit) :
    verifyHandoffIn profile primitives signerPublicKey signature canonicalIntent issuedAt expiresAt
        now = some result ↔
      Lasts profile issuedAt ∧ result = verifyHandoff primitives signerPublicKey signature
        canonicalIntent issuedAt expiresAt now := by
  refine eq_some_iff_of_cases (fun lasts => ?_) (fun exceeds => ?_) result
  · rw [verifyHandoffIn, (add_ttl profile _).1 lasts]
    exact arrives_guard fun _ => arrives_guard fun _ => rfl
  · rw [verifyHandoffIn, (add_ttl profile _).2 exceeds]
    rfl

/-- The material of an envelope decodes, and its digest is that of its intent. -/
def SettlementParams.Matches (params : SettlementParams) : Prop :=
  ∃ publicKey signature canonical,
    decodeHexArray primitives 32 params.signerPublicKeyHex = .ok publicKey ∧
    decodeHexArray primitives 64 params.signatureHex = .ok signature ∧
    canonicalize params.intent = .ok canonical ∧
    primitives.hexEncode (blake3Hash primitives canonical).1 = params.payloadDigestHex

/-- The envelope's verification aborts when the lifetime cannot be added and nothing was wrong
before. -/
theorem SettlementParams.verifyIn_eq_some_iff (params : SettlementParams) (now : Int64)
    (result : Except HandoffVerifyError Unit) :
    params.verifyIn profile primitives now = some result ↔
      (params.Matches primitives → Lasts profile params.issuedAt) ∧
        result = params.verify primitives now := by
  refine eq_some_iff_of_cases (fun lasts => ?_) (fun exceeds => ?_) result
  · refine arrives_bind fun publicKey keyDecoded => arrives_bind fun signature decoded => ?_
    refine arrives_bind fun canonical canonicalized => arrives_guard fun digest => ?_
    rw [Outcome.mapError_eq_ok] at canonicalized
    exact (verifyHandoffIn_eq_some_iff profile primitives _ _ _ _ _ _ _).mpr
      ⟨lasts ⟨publicKey, signature, canonical, keyDecoded, decoded, canonicalized,
        not_ne_iff.mp digest⟩, rfl⟩
  · rw [Classical.not_imp] at exceeds
    obtain ⟨⟨publicKey, signature, canonical, keyDecoded, decoded, canonicalized, digest⟩,
      exceeds⟩ := exceeds
    rw [SettlementParams.verifyIn, keyDecoded, decoded, canonicalized]
    change (if _ then _ else verifyHandoffIn _ _ _ _ _ _ _ _) = none
    rw [if_neg (not_ne_iff.mpr digest), verifyHandoffIn, (add_ttl profile _).2 exceeds]
    rfl

/-- The shifts of the timestamp do not abort: the later one, and the earlier one if it is tried. -/
def Shifts (publicKey : PublicKeyBytes) (payload : Value) (timestamp : Int64)
    (signature : SignatureBytes) : Prop :=
  profile.Allows (timestamp.toInt + 1) ∧
    (rejects primitives publicKey payload (timestamp + 1) signature = true →
      profile.Allows (timestamp.toInt - 1))

theorem shiftedTimestampRejectedIn_eq_some_iff (publicKey : PublicKeyBytes) (payload : Value)
    (timestamp : Int64) (signature : SignatureBytes) (rejected : Bool) :
    shiftedTimestampRejectedIn profile primitives publicKey payload timestamp signature =
        some rejected ↔
      Shifts profile primitives publicKey payload timestamp signature ∧
        rejected = (rejects primitives publicKey payload (timestamp + 1) signature &&
          rejects primitives publicKey payload (timestamp - 1) signature) := by
  have one : (1 : Int64).toInt = 1 := by decide
  rw [shiftedTimestampRejectedIn, Profile.add_eq, Profile.sub_eq, one, Shifts]
  by_cases later : profile.Allows (timestamp.toInt + 1)
  · rw [if_pos later]
    change (if _ then _ else _) = some rejected ↔ _
    cases rejects primitives publicKey payload (timestamp + 1) signature with
    | false =>
      rw [if_neg Bool.false_ne_true, Bool.false_and]
      simp [later, eq_comm]
    | true =>
      rw [if_pos rfl, Bool.true_and]
      by_cases earlier : profile.Allows (timestamp.toInt - 1)
      · simp [later, earlier, eq_comm]
      · simp [later, earlier]
  · simp [later]

/-- The self-attack aborts when a shift does. -/
theorem chaosTestIn_eq_some_iff (publicKey : PublicKeyBytes) (payload : Value)
    (timestamp : Int64) (signature : SignatureBytes) (entropy : MintEntropy)
    (report : ChaosReport) :
    chaosTestIn profile primitives publicKey payload timestamp signature entropy = some report ↔
      Shifts profile primitives publicKey payload timestamp signature ∧
        report = chaosTest primitives publicKey payload timestamp signature entropy := by
  have shifted := shiftedTimestampRejectedIn_eq_some_iff profile primitives publicKey payload
    timestamp signature
  refine eq_some_iff_of_cases (fun shifts => ?_) (fun aborts => ?_) report
  · rw [chaosTestIn, (shifted _).mpr ⟨shifts, rfl⟩]
    rfl
  · rw [chaosTestIn]
    cases reached : shiftedTimestampRejectedIn profile primitives publicKey payload timestamp
      signature with
    | none => rfl
    | some rejected => exact absurd ((shifted rejected).mp reached).1 aborts

/-- A mint that gets to its probes does not abort in them; nor afterwards, if they are clear. -/
def MintArrives (payload : Value) (now : Int64) (entropy : MintEntropy) : Prop :=
  ∀ canonical, canonicalize payload = .ok canonical →
    Shifts profile primitives (primitives.verifyingKey entropy.seed) payload now
      (primitives.sign entropy.seed (canonical ++ [0] ++ toLeBytes now)) ∧
    ((mintChaos primitives canonical payload now entropy).allClear = true → Lasts profile now)

/-- What a mint of a payload with a canonical form comes to. -/
theorem mintIn_of_canonical (payload : Value) (receipt : PaymentReceipt) (now : Int64)
    (entropy : MintEntropy) (canonical : List UInt8)
    (canonicalized : canonicalize payload = .ok canonical) :
    mintIn profile primitives payload receipt now entropy =
      (chaosTestIn profile primitives (primitives.verifyingKey entropy.seed) payload now
        (primitives.sign entropy.seed (canonical ++ [0] ++ toLeBytes now)) entropy).bind
        fun chaos =>
          if chaos.allClear = true then
            (profile.add now credentialTtlSecs).map fun expiry =>
              .ok { releasedCredential primitives canonical receipt now entropy chaos with
                expiresAt := expiry }
          else some (.error (.chaos chaos)) := by
  simp only [mintIn, canonicalized,
    signPayload_of_canonical primitives entropy.seed payload now canonical canonicalized]
  change (ExceptT.bind (ExceptT.lift (chaosTestIn profile primitives
    (primitives.verifyingKey entropy.seed) payload now
    (primitives.sign entropy.seed (canonical ++ [0] ++ toLeBytes now)) entropy)) _) = _
  cases chaosTestIn profile primitives (primitives.verifyingKey entropy.seed) payload now
    (primitives.sign entropy.seed (canonical ++ [0] ++ toLeBytes now)) entropy with
  | none => rfl
  | some chaos =>
    change (if (!chaos.allClear) = true then _ else _) = (if chaos.allClear = true then _ else _)
    cases chaos.allClear with
    | false => rfl
    | true =>
      rw [if_neg (by decide), if_pos rfl]
      cases profile.add now credentialTtlSecs with
      | none => rfl
      | some expiry => rfl

/-- A mint aborts in its probes, or when the expiry cannot be added up. -/
theorem mintIn_eq_some_iff (payload : Value) (receipt : PaymentReceipt) (now : Int64)
    (entropy : MintEntropy) (result : Except VaultError EphemeralCredential) :
    mintIn profile primitives payload receipt now entropy = some result ↔
      MintArrives profile primitives payload now entropy ∧
        result = mint primitives payload receipt now entropy := by
  cases canonicalized : canonicalize payload with
  | error refusal =>
    have arrives : MintArrives profile primitives payload now entropy := fun canonical same =>
      absurd (canonicalized.symm.trans same) (by simp)
    refine eq_some_iff_of_cases (fun _ => ?_) (fun aborts => absurd arrives aborts) result
    rw [mintIn, mint, canonicalized]
    rfl
  | ok canonical =>
    have attacked := chaosTestIn_eq_some_iff profile primitives
      (primitives.verifyingKey entropy.seed) payload now
      (primitives.sign entropy.seed (canonical ++ [0] ++ toLeBytes now)) entropy
    rw [mintIn_of_canonical profile primitives payload receipt now entropy canonical canonicalized,
      mint_of_canonical primitives payload receipt now entropy canonical canonicalized]
    refine eq_some_iff_of_cases (fun arrives => ?_) (fun aborts => ?_) result
    · obtain ⟨shifts, lasts⟩ := arrives canonical canonicalized
      rw [(attacked _).mpr ⟨shifts, rfl⟩, Option.bind_some]
      by_cases clear : (mintChaos primitives canonical payload now entropy).allClear = true
      · rw [mintChaos] at clear lasts
        simp only [mintChaos, clear, if_true, (add_ttl profile now).1 (lasts clear)]
        rfl
      · rw [mintChaos] at clear
        simp only [mintChaos, clear]
        rfl
    · cases reached : chaosTestIn profile primitives (primitives.verifyingKey entropy.seed) payload
        now (primitives.sign entropy.seed (canonical ++ [0] ++ toLeBytes now)) entropy with
      | none => rfl
      | some chaos =>
        obtain ⟨shifts, rfl⟩ := (attacked chaos).mp reached
        rw [Option.bind_some]
        by_cases clear : (mintChaos primitives canonical payload now entropy).allClear = true
        · have exceeds : ¬ Lasts profile now := fun lasts => aborts fun other same => by
            obtain rfl := Except.ok.inj (canonicalized.symm.trans same)
            exact ⟨shifts, fun _ => lasts⟩
          rw [mintChaos] at clear
          rw [if_pos clear, (add_ttl profile now).2 exceeds]
          rfl
        · refine absurd (fun other same => ?_) aborts
          obtain rfl := Except.ok.inj (canonicalized.symm.trans same)
          exact ⟨shifts, fun clear' => absurd clear' clear⟩

end Hammurabi
