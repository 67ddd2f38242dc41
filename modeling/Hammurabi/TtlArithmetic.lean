/-
This file settles where the lifetime arithmetic overflows, and what an overflow can do.

An issue instant within sixty seconds of the last 64-bit one cannot be given a
lifetime, and the first and the last instant cannot be shifted both ways. Nothing
checks for either, so with overflow checks a verifier aborts on such an instant where
it should answer. Without them the sum wraps to an expiry long before the issue, and
since the window is checked beside the sum, such a credential is never live.
-/

import Hammurabi.SelfAttack

namespace Hammurabi

open Json Overflow Unicode

variable (primitives : Primitives)

/-! ### Where the arithmetic overflows -/

theorem lasts_debug_iff (issuedAt : Int64) :
    Lasts .debug issuedAt ↔ issuedAt.toInt + 60 < 2 ^ 63 := by
  have low := Int64.le_toInt issuedAt
  rw [Lasts, Profile.Allows, Fits]
  simp only [reduceCtorEq, false_or]
  omega

theorem shifts_debug_iff (publicKey : PublicKeyBytes) (payload : Value) (timestamp : Int64)
    (signature : SignatureBytes) :
    Shifts .debug primitives publicKey payload timestamp signature ↔
      timestamp.toInt + 1 < 2 ^ 63 ∧
        (-2 ^ 63 < timestamp.toInt ∨
          verifyPayload primitives publicKey payload (timestamp + 1) signature = .ok ()) := by
  have low := Int64.le_toInt timestamp
  have high := Int64.toInt_lt timestamp
  rw [Shifts, rejects_iff, Profile.Allows, Profile.Allows, Fits, Fits]
  simp only [reduceCtorEq, false_or]
  constructor
  · rintro ⟨later, earlier⟩
    refine ⟨later.2, ?_⟩
    by_cases verified :
        verifyPayload primitives publicKey payload (timestamp + 1) signature = .ok ()
    · exact .inr verified
    · exact .inl (by have := (earlier verified).1; omega)
  · rintro ⟨later, inner | verified⟩
    · exact ⟨⟨by omega, later⟩, fun _ => ⟨by omega, by omega⟩⟩
    · exact ⟨⟨by omega, later⟩, fun rejected => absurd verified rejected⟩

/-- Under the ideal scheme a mint overflows unless its payload has no canonical form, or its instant
is neither the first nor the last and the expiry is not added up or can be. -/
theorem mintArrives_debug_iff (payload : Value) (unique : payload.UniqueKeys) (now : Int64)
    (entropy : MintEntropy) (ideal : IdealMint primitives payload now entropy) :
    MintArrives .debug primitives payload now entropy ↔
      (∀ canonical, canonicalize payload ≠ .ok canonical) ∨
        (-2 ^ 63 < now.toInt ∧ now.toInt + 1 < 2 ^ 63 ∧
          (CarriesMarker payload ∨ now.toInt + 60 < 2 ^ 63)) := by
  cases canonicalized : canonicalize payload with
  | error refusal =>
    refine iff_of_true (fun canonical same => ?_) (.inl fun canonical same => ?_)
    · cases canonicalized.symm.trans same
    · cases same
  | ok canonical =>
    have message : canonicalMessage payload now = .ok (canonical ++ [0] ++ toLeBytes now) :=
      (canonicalMessage_ok_iff _ _ _).mpr ⟨canonical, canonicalized, rfl⟩
    have rejected := (rejects_iff _ _ _ _ _).mp (laterTimestamp_rejected primitives payload now
      entropy canonical canonicalized (ideal.signature _ message))
    have clear := mintChaos_allClear_iff primitives payload unique canonical canonicalized now
      entropy ideal
    have arrives : MintArrives .debug primitives payload now entropy ↔
        (now.toInt + 1 < 2 ^ 63 ∧ -2 ^ 63 < now.toInt) ∧
          (¬ CarriesMarker payload → now.toInt + 60 < 2 ^ 63) := by
      rw [← clear, ← lasts_debug_iff, MintArrives]
      simp only [canonicalized, Except.ok.injEq, forall_eq', shifts_debug_iff, rejected, or_false]
    have accepted : ¬ ∀ other, (Except.ok canonical : CryptoResult (List UInt8)) ≠ .ok other :=
      fun none => none canonical rfl
    rw [arrives]
    by_cases marked : CarriesMarker payload
    · simp only [marked, accepted, not_true_eq_false, false_imp_iff, and_true, false_or, true_or]
      exact and_comm
    · simp only [marked, accepted, not_false_eq_true, true_imp_iff, false_or]
      constructor
      · rintro ⟨⟨later, inner⟩, expiry⟩
        exact ⟨inner, later, expiry⟩
      · rintro ⟨inner, later, expiry⟩
        exact ⟨⟨later, inner⟩, expiry⟩

/-- With overflow checks, the verifiers arrive when sixty seconds can be added to the issue instant,
or, for an envelope, something else was refused before; the self-attack arrives when the timestamp
can be shifted later, and earlier if it comes to that; and a mint arrives when its payload is
refused, or it survives its shifts and need not or can add up the expiry. -/
theorem no_overflow_iff :
    (∀ (credential : EphemeralCredential) (payload : Value) (now : Int64),
      (∃ result, verifyIn .debug primitives credential payload now = some result) ↔
        credential.issuedAt.toInt + 60 < 2 ^ 63) ∧
    (∀ (publicKey : PublicKeyBytes) (signature : SignatureBytes) (canonicalIntent : List UInt8)
      (issuedAt expiresAt now : Int64),
      (∃ result, verifyHandoffIn .debug primitives publicKey signature canonicalIntent issuedAt
        expiresAt now = some result) ↔ issuedAt.toInt + 60 < 2 ^ 63) ∧
    (∀ (params : SettlementParams) (now : Int64),
      (∃ result, params.verifyIn .debug primitives now = some result) ↔
        (¬ params.Matches primitives ∨ params.issuedAt.toInt + 60 < 2 ^ 63)) ∧
    (∀ (publicKey : PublicKeyBytes) (payload : Value) (timestamp : Int64)
      (signature : SignatureBytes) (entropy : MintEntropy),
      (∃ report, chaosTestIn .debug primitives publicKey payload timestamp signature entropy =
        some report) ↔
        timestamp.toInt + 1 < 2 ^ 63 ∧
          (-2 ^ 63 < timestamp.toInt ∨
            verifyPayload primitives publicKey payload (timestamp + 1) signature = .ok ())) ∧
    ∀ (payload : Value) (receipt : PaymentReceipt) (now : Int64) (entropy : MintEntropy),
      payload.UniqueKeys → IdealMint primitives payload now entropy →
      ((∃ result, mintIn .debug primitives payload receipt now entropy = some result) ↔
        (∀ canonical, canonicalize payload ≠ .ok canonical) ∨
          (-2 ^ 63 < now.toInt ∧ now.toInt + 1 < 2 ^ 63 ∧
            (CarriesMarker payload ∨ now.toInt + 60 < 2 ^ 63))) := by
  refine ⟨fun credential payload now => ?_,
    fun publicKey signature canonicalIntent issuedAt expiresAt now => ?_, fun params now => ?_,
    fun publicKey payload timestamp signature entropy => ?_,
    fun payload receipt now entropy unique ideal => ?_⟩
  · simp only [verifyIn_eq_some_iff, exists_and_left, exists_eq, and_true, lasts_debug_iff]
  · simp only [verifyHandoffIn_eq_some_iff, exists_and_left, exists_eq, and_true, lasts_debug_iff]
  · simp only [SettlementParams.verifyIn_eq_some_iff, exists_and_left, exists_eq, and_true,
      lasts_debug_iff, imp_iff_not_or]
  · simp only [chaosTestIn_eq_some_iff, exists_and_left, exists_eq, and_true, shifts_debug_iff]
  · simp only [mintIn_eq_some_iff, exists_and_left, exists_eq, and_true]
    exact mintArrives_debug_iff primitives payload unique now entropy ideal

/-- Of an object, minted sixty-one seconds before the end of time, and not one second later. -/
theorem no_overflow_iff_object :
    let arrives := fun now : Int64 =>
      ∃ result, mintIn .debug (markingPrimitives (plainForm ++ [0] ++ toLeBytes now)) plainPayload
        (.cleared .nil "a" 7) now plainEntropy = some result
    arrives (Int64.ofInt (2 ^ 63 - 61)) ∧ ¬ arrives (Int64.ofInt (2 ^ 63 - 60)) := by
  intro arrives
  have exactly (now : Int64) := (no_overflow_iff
    (markingPrimitives (plainForm ++ [0] ++ toLeBytes now))).2.2.2.2 plainPayload
    (.cleared .nil "a" 7) now plainEntropy plainPayload_uniqueKeys
    (markingPrimitives_idealMint plainPayload now plainForm canonicalize_plainPayload)
  refine ⟨(exactly _).mpr (.inr ⟨by decide, by decide, .inr (by decide)⟩), fun arrived => ?_⟩
  rcases (exactly _).mp arrived with refused | ⟨-, -, marked | early⟩
  · exact refused plainForm canonicalize_plainPayload
  · cases marked
  · exact absurd early (by decide)

/-- A credential issued at the last instant. -/
def lastCredential (primitives : Primitives) : EphemeralCredential :=
  releasedCredential primitives (utf8 "null".toList) (.cleared .nil "a" 7) Int64.maxValue
    plainEntropy ⟨true, true, true, 8, true⟩

/-- At the last instant everything overflows. -/
theorem last_instant_overflows :
    let primitives := markingPrimitives []
    let credential := lastCredential primitives
    verifyIn .debug primitives credential .null 0 = none ∧
      verifyHandoffIn .debug primitives plainEntropy.seed (.filled 64 0) [] Int64.maxValue 0 0 =
        none ∧
      (OneShotEnvelope.package .null credential (.cleared .nil "a" 7)).params.verifyIn .debug
        primitives 0 = none ∧
      chaosTestIn .debug primitives plainEntropy.seed .null Int64.maxValue (.filled 64 0)
        plainEntropy = none ∧
      mintIn .debug primitives .null (.cleared .nil "a" 7) Int64.maxValue plainEntropy = none := by
  intro primitives credential
  have aborts : ¬ Lasts .debug Int64.maxValue := by
    rw [lasts_debug_iff]
    decide
  have unshifted : ∀ key payload signature,
      ¬ Shifts .debug primitives key payload Int64.maxValue signature := by
    intro key payload signature
    rw [shifts_debug_iff]
    exact fun shifts => absurd shifts.1 (by decide)
  have matching : (OneShotEnvelope.package .null credential (.cleared .nil "a" 7)).params.Matches
      primitives := by
    refine ⟨plainEntropy.seed, primitives.sign plainEntropy.seed
      (utf8 "null".toList ++ [0] ++ toLeBytes Int64.maxValue), utf8 "null".toList, ?_, ?_, rfl, rfl⟩
    · exact (decodeBytes_eq_ok primitives _ 32 _ _).mpr (markingPrimitives_hex [] _)
    · exact (decodeBytes_eq_ok primitives _ 64 _ _).mpr (markingPrimitives_hex [] _)
  refine ⟨Option.eq_none_iff_forall_ne_some.mpr fun result reached => ?_,
    Option.eq_none_iff_forall_ne_some.mpr fun result reached => ?_,
    Option.eq_none_iff_forall_ne_some.mpr fun result reached => ?_,
    Option.eq_none_iff_forall_ne_some.mpr fun report reached => ?_,
    Option.eq_none_iff_forall_ne_some.mpr fun result reached => ?_⟩
  · exact aborts ((verifyIn_eq_some_iff _ _ _ _ _ _).mp reached).1
  · exact aborts ((verifyHandoffIn_eq_some_iff _ _ _ _ _ _ _ _ _).mp reached).1
  · exact aborts (((SettlementParams.verifyIn_eq_some_iff _ _ _ _ _).mp reached).1 matching)
  · exact unshifted _ _ _ ((chaosTestIn_eq_some_iff _ _ _ _ _ _ _ _).mp reached).1
  · exact unshifted _ _ _ (((mintIn_eq_some_iff _ _ _ _ _ _ _).mp reached).1 _ rfl).1

/-! ### What an overflow can do -/

/-- Where the wrapped sum and the window agree, the sum did not wrap. -/
theorem window_of_strictTtl (issuedAt expiresAt now : Int64)
    (strictTtl : expiresAt = issuedAt + credentialTtlSecs) (started : issuedAt ≤ now)
    (unexpired : now < expiresAt) :
    expiresAt.toInt = issuedAt.toInt + 60 ∧ issuedAt.toInt ≤ now.toInt ∧
      now.toInt < issuedAt.toInt + 60 := by
  have ttl : credentialTtlSecs.toInt = 60 := by decide
  rw [Int64.le_iff_toInt_le] at started
  rw [Int64.lt_iff_toInt_lt] at unexpired
  by_cases fits : Fits (issuedAt.toInt + credentialTtlSecs.toInt)
  · have exact' := toInt_add_of_fits issuedAt credentialTtlSecs fits
    rw [← strictTtl, ttl] at exact'
    omega
  · have wrapped := toInt_add_of_not_fits issuedAt credentialTtlSecs (by omega) fits
    rw [← strictTtl, ttl] at wrapped
    omega

/-- A credential minted so late that its expiry wraps is in its window at no time. -/
theorem never_live_of_wrapped (issuedAt now : Int64) (late : 2 ^ 63 ≤ issuedAt.toInt + 60)
    (started : issuedAt ≤ now) : ¬ now < issuedAt + credentialTtlSecs := by
  intro unexpired
  have window := window_of_strictTtl issuedAt _ now rfl started unexpired
  have high := Int64.toInt_lt (issuedAt + credentialTtlSecs)
  omega

theorem mintArrives_release (payload : Value) (now : Int64) (entropy : MintEntropy) :
    MintArrives .release primitives payload now entropy :=
  fun _ _ => ⟨⟨.inl rfl, fun _ => .inl rfl⟩, fun _ => .inl rfl⟩

/-- Whatever the profile, what a verifier accepts expires sixty seconds after its issue and is
within these seconds, over the integers; and a credential minted so late that its expiry wraps is
accepted at no time, by either verifier. -/
theorem accepted_in_window (profile : Profile) :
    (∀ (credential : EphemeralCredential) (payload : Value) (now : Int64),
      verifyIn profile primitives credential payload now = some (.ok ()) →
        credential.expiresAt.toInt = credential.issuedAt.toInt + 60 ∧
          credential.issuedAt.toInt ≤ now.toInt ∧
          now.toInt < credential.issuedAt.toInt + 60) ∧
    (∀ (publicKey : PublicKeyBytes) (signature : SignatureBytes) (canonicalIntent : List UInt8)
      (issuedAt expiresAt now : Int64),
      verifyHandoffIn profile primitives publicKey signature canonicalIntent issuedAt expiresAt
          now = some (.ok ()) →
        expiresAt.toInt = issuedAt.toInt + 60 ∧ issuedAt.toInt ≤ now.toInt ∧
          now.toInt < issuedAt.toInt + 60) ∧
    ∀ (payload : Value) (receipt : PaymentReceipt) (minting : Int64) (entropy : MintEntropy)
      (credential : EphemeralCredential),
      mintIn profile primitives payload receipt minting entropy = some (.ok credential) →
      2 ^ 63 ≤ minting.toInt + 60 →
      (∀ (presented : Value) (now : Int64),
        verifyIn profile primitives credential presented now ≠ some (.ok ())) ∧
      ∀ (publicKey : PublicKeyBytes) (signature : SignatureBytes) (canonicalIntent : List UInt8)
        (now : Int64),
        verifyHandoffIn profile primitives publicKey signature canonicalIntent
          credential.issuedAt credential.expiresAt now ≠ some (.ok ()) := by
  have vault : ∀ (credential : EphemeralCredential) (payload : Value) (now : Int64),
      verifyIn profile primitives credential payload now = some (.ok ()) →
        credential.expiresAt = credential.issuedAt + credentialTtlSecs ∧
          credential.issuedAt ≤ now ∧ now < credential.expiresAt := by
    intro credential payload now reached
    have accepted := ((verifyIn_eq_some_iff _ _ _ _ _ _).mp reached).2.symm
    have acceptable := (verify_eq_ok primitives credential payload now).mp accepted
    exact ⟨acceptable.strictTtl, acceptable.started, acceptable.unexpired⟩
  have contract : ∀ (publicKey : PublicKeyBytes) (signature : SignatureBytes)
      (canonicalIntent : List UInt8) (issuedAt expiresAt now : Int64),
      verifyHandoffIn profile primitives publicKey signature canonicalIntent issuedAt expiresAt
          now = some (.ok ()) →
        expiresAt = issuedAt + credentialTtlSecs ∧ issuedAt ≤ now ∧ now < expiresAt := by
    intro publicKey signature canonicalIntent issuedAt expiresAt now reached
    have accepted := ((verifyHandoffIn_eq_some_iff _ _ _ _ _ _ _ _ _).mp reached).2.symm
    simp only [verifyHandoff, Outcome.guard_eq_ok] at accepted
    obtain ⟨strictTtl, window, -⟩ := accepted
    rw [not_or, Int64.not_lt, ge_iff_le, Int64.not_le] at window
    exact ⟨not_ne_iff.mp strictTtl, window⟩
  refine ⟨fun credential payload now reached => ?_,
    fun publicKey signature canonicalIntent issuedAt expiresAt now reached => ?_,
    fun payload receipt minting entropy credential minted late => ?_⟩
  · obtain ⟨strictTtl, started, unexpired⟩ := vault credential payload now reached
    exact window_of_strictTtl _ _ now strictTtl started unexpired
  · obtain ⟨strictTtl, started, unexpired⟩ := contract _ _ _ _ _ _ reached
    exact window_of_strictTtl _ _ now strictTtl started unexpired
  · have released := ((mintIn_eq_some_iff _ _ _ _ _ _ _).mp minted).2.symm
    obtain ⟨canonical, -, -, rfl⟩ := (mint_eq_ok _ _ _ _ _ _).mp released
    refine ⟨fun presented now reached => ?_,
      fun publicKey signature canonicalIntent now reached => ?_⟩
    · obtain ⟨-, started, unexpired⟩ := vault _ presented now reached
      exact never_live_of_wrapped minting now late started unexpired
    · obtain ⟨-, started, unexpired⟩ := contract _ _ _ _ _ _ reached
      exact never_live_of_wrapped minting now late started unexpired

/-- An object minted at 7 is good at 66, under its expiry of 67; minted at the last second but
twenty it expires long before it was issued. -/
theorem accepted_in_window_object :
    let receipt := PaymentReceipt.cleared .nil "a" 7
    let late := Int64.ofInt (2 ^ 63 - 20)
    let primitives := fun now => markingPrimitives (plainForm ++ [0] ++ toLeBytes now)
    (∃ credential, verifyIn .release (primitives 7) credential plainPayload 66 = some (.ok ()) ∧
      credential.expiresAt.toInt = credential.issuedAt.toInt + 60) ∧
    ∃ credential, mintIn .release (primitives late) plainPayload receipt late plainEntropy =
        some (.ok credential) ∧ credential.expiresAt < credential.issuedAt ∧
      ∀ now, verifyIn .release (primitives late) credential plainPayload now ≠ some (.ok ()) := by
  intro receipt late primitives
  have window := accepted_in_window (primitives 7) .release
  have wrapped := accepted_in_window (primitives late) .release
  have accepted := (verifyIn_eq_some_iff .release (primitives 7) _ plainPayload 66 _).mpr
    ⟨.inl rfl, (verify_plainPayload receipt 7 66 ⟨true, true, true, 8, true⟩ (by decide)
      (by decide)).symm⟩
  have minted := (mintIn_eq_some_iff .release (primitives late) plainPayload receipt late
    plainEntropy _).mpr ⟨mintArrives_release _ _ _ _, (mint_plainPayload receipt late).symm⟩
  exact ⟨⟨_, accepted, (window.1 _ _ _ accepted).1⟩, _, minted, by decide,
    (wrapped.2.2 plainPayload receipt late plainEntropy _ minted (by decide)).1 plainPayload⟩

end Hammurabi
