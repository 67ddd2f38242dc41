/-
This file is the sealed box between two identities.

An identity has a second key pair, for agreeing on a key: the secret is the clamped first
half of the hash of its seed, and the public key is its address taken to the other form
of the curve. A box is a nonce and a ciphertext under the key that the secret of the one
and the address of the other agree on. Opening guards the length, cuts at the nonce and
decrypts, and whatever fails, fails with one and the same error.

The curve, the agreement and the cipher are crates outside the repository. Of these it
is assumed that they compute what their standards say: keys are multiples of a base point
by clamped scalars, addresses and public keys two forms of the points, and the cipher
decrypts exactly what it encrypts. That the two ways to an identity's public key meet, and
that both sides agree on one key, follows from how the secret is derived. As the keys of
the two sides are one, a box does not tell in which direction it was sealed.
-/

import Mathlib.Algebra.Group.Int.Defs
import Mathlib.Algebra.Group.Nat.Defs
import Hammurabi.Keystore

namespace Hammurabi

/-- The width of an extended nonce. -/
def Aead.nonceLen : Nat := 24

/-- What sealing takes from the crates it is built on. -/
structure BoxPrimitives where
  sha512 : List UInt8 → FixedBytes 64
  /-- The Montgomery coordinate of the point that an address compresses, if it is one of the
  curve. -/
  montgomery : PublicKeyBytes → Option (FixedBytes 32)
  /-- The public key of a secret. -/
  publicKey : FixedBytes 32 → FixedBytes 32
  /-- The key that a public key and a secret agree on. -/
  agree : FixedBytes 32 → FixedBytes 32 → FixedBytes 32
  /-- Encrypt under a key and a nonce; nothing where the cipher fails. -/
  encrypt : FixedBytes 32 → FixedBytes Aead.nonceLen → List UInt8 → Option (List UInt8)
  /-- Decrypt under a key and a nonce; nothing where the cipher fails. -/
  decrypt : FixedBytes 32 → FixedBytes Aead.nonceLen → List UInt8 → Option (List UInt8)

variable (primitives : Primitives) (box : BoxPrimitives)

/-! ### The keys of an identity -/

/-- The clamped first half of the seed's hash: the Ed25519 signing scalar. -/
def x25519SecretFromSeed (seed : Seed) : FixedBytes 32 :=
  ⟨(((box.sha512 seed.1).1.take 32).modify 0 (· &&& 248)).modify 31 fun byte => byte &&& 127 ||| 64,
    by rw [List.length_modify, List.length_modify, List.length_take, (box.sha512 seed.1).2]; rfl⟩

def Identity.x25519SecretBytes (identity : Identity) : FixedBytes 32 :=
  x25519SecretFromSeed box identity.seed

/-- The X25519 public key of an address. -/
def Identity.x25519PublicFromAddress (address : PublicKeyBytes) : CryptoResult (FixedBytes 32) :=
  match box.montgomery address with
  | none => .error (.invalidKey "not a curve point")
  | some publicKey => .ok publicKey

/-! ### Sealing and opening -/

/-- Seal a plaintext from a secret to a public key, with the nonce that was drawn. -/
def Aead.seal (senderSecret receiverPublic : FixedBytes 32) (plaintext : List UInt8)
    (nonce : FixedBytes nonceLen) : CryptoResult (List UInt8) :=
  match box.encrypt (box.agree receiverPublic senderSecret) nonce plaintext with
  | none => .error .sealFailed
  | some ciphertext => .ok (nonce.1 ++ ciphertext)

/-- Open a box sealed by a public key's owner for a secret; nothing where an access would panic. -/
def Aead.open (receiverSecret senderPublic : FixedBytes 32) (sealed : List UInt8) :
    Option (CryptoResult (List UInt8)) := do
  if sealed.length < nonceLen then return .error .sealFailed
  let nonceBytes ← checkedSlice sealed 0 nonceLen
  let ciphertext ← checkedSlice sealed nonceLen sealed.length
  let nonce ← FixedBytes.ofList? nonceLen nonceBytes
  match box.decrypt (box.agree senderPublic receiverSecret) nonce ciphertext with
  | none => return .error .sealFailed
  | some plaintext => return .ok plaintext

/-! ### Scalars -/

/-- The number that bytes stand for, the lowest first. -/
def littleEndian : List UInt8 → Nat
  | [] => 0
  | byte :: rest => byte.toNat + 256 * littleEndian rest

theorem littleEndian_append (front back : List UInt8) :
    littleEndian (front ++ back) = littleEndian front + 256 ^ front.length * littleEndian back := by
  induction front with
  | nil => rw [List.nil_append, littleEndian, List.length_nil, Nat.pow_zero]; omega
  | cons byte front inductionHypothesis =>
    rw [List.cons_append, littleEndian, littleEndian, inductionHypothesis, List.length_cons,
      Nat.pow_succ', Nat.mul_add, Nat.mul_assoc, Nat.add_assoc]

theorem littleEndian_lt (bytes : List UInt8) : littleEndian bytes < 256 ^ bytes.length := by
  induction bytes with
  | nil => exact Nat.one_pos
  | cons byte bytes inductionHypothesis =>
    have small := byte.toNat_lt
    rw [littleEndian, List.length_cons, Nat.pow_succ']
    omega

/-- The number that a scalar of 32 bytes is clamped to: a multiple of eight with its highest bit in
the place of 2 ^ 254. -/
def clampScalar (bytes : List UInt8) : Nat := 2 ^ 254 + littleEndian bytes % 2 ^ 254 / 8 * 8

/-- A number of this form is clamped already. -/
theorem clampScalar_of_eq (bytes other : List UInt8)
    (clamped : littleEndian bytes = clampScalar other) :
    clampScalar bytes = clampScalar other := by
  rw [clampScalar, clamped, clampScalar]
  omega

/-! ### The crates -/

/-- The group of points that keys are taken from, with its base point. A point has two forms, as an
address and as a public key, and two sides take their key from the public form of the point they
share. -/
structure Curve (Point : Type) where
  base : Point
  address : Point → PublicKeyBytes
  coordinate : Point → FixedBytes 32
  derive : FixedBytes 32 → FixedBytes 32

/-- The crates compute what their standards say. -/
structure IdealBox {Point : Type} [AddCommGroup Point] (curve : Curve Point) : Prop where
  /-- The address of a seed is the multiple of the base point by the first half of its hash. -/
  signs : ∀ seed : Seed, primitives.verifyingKey seed =
    curve.address (clampScalar ((box.sha512 seed.1).1.take 32) • curve.base)
  /-- The address of a point decompresses, and to this point. -/
  converts : ∀ point, box.montgomery (curve.address point) = some (curve.coordinate point)
  /-- The public key of a secret is the multiple of the base point by it. -/
  publishes : ∀ secret, box.publicKey secret =
    curve.coordinate (clampScalar secret.1 • curve.base)
  /-- A public key and a secret agree on the key of the multiple by it. -/
  agrees : ∀ point secret, box.agree (curve.coordinate point) secret =
    curve.derive (curve.coordinate (clampScalar secret.1 • point))
  /-- The cipher decrypts exactly what it encrypts. -/
  decrypts : ∀ key nonce plaintext ciphertext,
    box.decrypt key nonce ciphertext = some plaintext ↔
      box.encrypt key nonce plaintext = some ciphertext
  /-- A ciphertext is longer by the tag. -/
  tagged : ∀ key nonce plaintext ciphertext,
    box.encrypt key nonce plaintext = some ciphertext →
      ciphertext.length = plaintext.length + tagLen

/-! ### A secret is clamped -/

/-- The lowest three bits are cleared by the first mask. -/
theorem low_clamped (byte : UInt8) : (byte &&& 248).toNat = byte.toNat / 8 * 8 := by
  have all : ∀ n < 256, (n &&& 248) = n / 8 * 8 := by decide +kernel
  exact all byte.toNat byte.toNat_lt

/-- The highest bit is cleared and the one below it set by the others. -/
theorem high_clamped (byte : UInt8) : (byte &&& 127 ||| 64).toNat = 64 + byte.toNat % 64 := by
  have all : ∀ n < 256, (n &&& 127 ||| 64) = 64 + n % 64 := by decide +kernel
  exact all byte.toNat byte.toNat_lt

/-- A secret is the first half of the hash, the lowest byte and the highest masked. -/
theorem exists_secret_eq (seed : Seed) :
    ∃ (first last : UInt8) (middle : List UInt8), middle.length = 30 ∧
      (box.sha512 seed.1).1.take 32 = first :: (middle ++ [last]) ∧
      (x25519SecretFromSeed box seed).1 =
        (first &&& 248) :: (middle ++ [last &&& 127 ||| 64]) := by
  have masked : (x25519SecretFromSeed box seed).1 =
      (((box.sha512 seed.1).1.take 32).modify 0 (· &&& 248)).modify 31
        fun byte => byte &&& 127 ||| 64 := rfl
  have length : ((box.sha512 seed.1).1.take 32).length = 32 := by
    rw [List.length_take, (box.sha512 seed.1).2]
    rfl
  cases half : (box.sha512 seed.1).1.take 32 with
  | nil =>
    rw [half] at length
    cases length
  | cons first rest =>
    rw [half, List.length_cons] at length
    have inside : 30 < rest.length := by omega
    have ending : rest.drop 30 = [rest[30]] := by
      rw [List.drop_eq_getElem_cons inside, List.drop_eq_nil_of_le (by omega)]
    refine ⟨first, rest[30], rest.take 30, by rw [List.length_take]; omega, ?_, ?_⟩
    · rw [← ending, List.take_append_drop]
    · rw [masked, half, List.modify_zero_cons, List.modify_succ_cons,
        List.modify_eq_take_cons_drop inside, List.drop_eq_nil_of_le (by omega)]

/-- The masks clamp: the secret of a seed is the number that the first half of its hash is clamped
to. -/
theorem littleEndian_secret (seed : Seed) :
    littleEndian (x25519SecretFromSeed box seed).1 =
      clampScalar ((box.sha512 seed.1).1.take 32) := by
  obtain ⟨first, last, middle, length, half, secret⟩ := exists_secret_eq box seed
  have between := littleEndian_lt middle
  have lowest := first.toNat_lt
  have highest := last.toNat_lt
  rw [half, secret, clampScalar, littleEndian, littleEndian, littleEndian_append,
    littleEndian_append, low_clamped]
  simp only [littleEndian, high_clamped]
  rw [length] at between ⊢
  omega

/-- A secret is a multiple of the curve's cofactor, and of its bits the one below the highest is the
highest that is set. -/
theorem secret_clamped (seed : Seed) :
    littleEndian (x25519SecretFromSeed box seed).1 % 8 = 0 ∧
      2 ^ 254 ≤ littleEndian (x25519SecretFromSeed box seed).1 ∧
      littleEndian (x25519SecretFromSeed box seed).1 < 2 ^ 255 := by
  rw [littleEndian_secret, clampScalar]
  omega

section Keys

variable {Point : Type} [AddCommGroup Point] {curve : Curve Point}
  (ideal : IdealBox primitives box curve)

include ideal

/-- The address of an identity gives the public key of its secret. -/
theorem address_keyed (identity : Identity) :
    Identity.x25519PublicFromAddress box (identity.publicKey primitives) =
      .ok (box.publicKey (identity.x25519SecretBytes box)) := by
  have clamped := clampScalar_of_eq _ _ (littleEndian_secret box identity.seed)
  have published : box.publicKey (identity.x25519SecretBytes box) = curve.coordinate
      (clampScalar ((box.sha512 identity.seed.1).1.take 32) • curve.base) :=
    (ideal.publishes _).trans (congrArg (fun scalar => curve.coordinate (scalar • curve.base))
      clamped)
  rw [Identity.x25519PublicFromAddress, Identity.publicKey, ideal.signs, ideal.converts, published]

/-- Both sides agree on one key. -/
theorem agree_comm (first second : FixedBytes 32) :
    box.agree (box.publicKey first) second = box.agree (box.publicKey second) first := by
  rw [ideal.publishes, ideal.publishes, ideal.agrees, ideal.agrees, nsmul_left_comm]

end Keys

/-! ### What a box is -/

/-- Opening fails, or cuts a box at its nonce and decrypts the rest. -/
theorem openBox_cases (receiverSecret senderPublic : FixedBytes 32) (sealed : List UInt8) :
    (sealed.length < 24 ∧
      Aead.open box receiverSecret senderPublic sealed = some (.error .sealFailed)) ∨
    ∃ (nonce : FixedBytes Aead.nonceLen) (ciphertext : List UInt8), sealed = nonce.1 ++ ciphertext ∧
      Aead.open box receiverSecret senderPublic sealed =
        some ((box.decrypt (box.agree senderPublic receiverSecret) nonce ciphertext).elim
          (.error .sealFailed) .ok) := by
  by_cases short : sealed.length < Aead.nonceLen
  · left
    refine ⟨short, ?_⟩
    rw [Aead.open, if_pos short]
    rfl
  · right
    have width : Aead.nonceLen = 24 := rfl
    have length : (sealed.take 24).length = 24 := by
      rw [List.length_take]
      omega
    have split : sealed = sealed.take 24 ++ sealed.drop 24 := (List.take_append_drop 24 sealed).symm
    have nonceSlice : checkedSlice sealed 0 Aead.nonceLen = some (sealed.take 24) := by
      rw [checkedSlice, if_pos ⟨Nat.zero_le _, Nat.not_lt.mp short⟩]
      rfl
    have ciphertextSlice : checkedSlice sealed Aead.nonceLen sealed.length =
        some (sealed.drop 24) := by
      rw [checkedSlice, if_pos ⟨Nat.not_lt.mp short, Nat.le_refl _⟩, width,
        List.take_of_length_le (Nat.le_of_eq List.length_drop)]
    refine ⟨⟨sealed.take 24, length⟩, sealed.drop 24, split, ?_⟩
    have nonce : FixedBytes.ofList? Aead.nonceLen (sealed.take 24) = some ⟨_, length⟩ :=
      dif_pos length
    rw [Aead.open, if_neg short, nonceSlice, ciphertextSlice]
    simp only [Option.bind_eq_bind, Option.bind_some, nonce]
    cases box.decrypt (box.agree senderPublic receiverSecret) ⟨_, length⟩ (sealed.drop 24) with
    | none => rfl
    | some plaintext => rfl

theorem sealBox_eq_ok_iff (senderSecret receiverPublic : FixedBytes 32) (plaintext : List UInt8)
    (nonce : FixedBytes Aead.nonceLen) (sealed : List UInt8) :
    Aead.seal box senderSecret receiverPublic plaintext nonce = .ok sealed ↔
      ∃ ciphertext, box.encrypt (box.agree receiverPublic senderSecret) nonce plaintext =
          some ciphertext ∧ sealed = nonce.1 ++ ciphertext := by
  rw [Aead.seal]
  cases box.encrypt (box.agree receiverPublic senderSecret) nonce plaintext with
  | none => simp
  | some ciphertext =>
    simp only [Except.ok.injEq, Option.some.injEq, exists_eq_left']
    exact eq_comm

/-- Where both sides agree on one key, a box opens to exactly the plaintexts it seals. -/
theorem openBox_eq_ok_iff {Point : Type} [AddCommGroup Point] {curve : Curve Point}
    (ideal : IdealBox primitives box curve)
    (senderSecret receiverPublic receiverSecret senderPublic : FixedBytes 32)
    (same : box.agree receiverPublic senderSecret = box.agree senderPublic receiverSecret)
    (sealed plaintext : List UInt8) :
    Aead.open box receiverSecret senderPublic sealed = some (.ok plaintext) ↔
      ∃ nonce, Aead.seal box senderSecret receiverPublic plaintext nonce = .ok sealed := by
  simp only [sealBox_eq_ok_iff, same, ← ideal.decrypts]
  constructor
  · intro opened
    rcases openBox_cases box receiverSecret senderPublic sealed with
      ⟨-, refused⟩ | ⟨nonce, ciphertext, rfl, cut⟩
    · rw [refused] at opened
      cases opened
    · rw [cut] at opened
      refine ⟨nonce, ciphertext, ?_, rfl⟩
      cases decrypted : box.decrypt (box.agree senderPublic receiverSecret) nonce ciphertext with
      | none =>
        rw [decrypted] at opened
        cases opened
      | some other =>
        rw [decrypted] at opened
        rw [Except.ok.inj (Option.some.inj opened)]
  · rintro ⟨nonce, ciphertext, decrypted, rfl⟩
    rcases openBox_cases box receiverSecret senderPublic (nonce.1 ++ ciphertext) with
      ⟨short, -⟩ | ⟨nonce', ciphertext', split, cut⟩
    · rw [List.length_append, nonce.2, Aead.nonceLen] at short
      omega
    · obtain ⟨nonces, rfl⟩ := List.append_inj split (by rw [nonce.2, nonce'.2])
      obtain rfl := Subtype.ext nonces
      rw [cut, decrypted]
      rfl

/-- Whatever does not open fails with the one error. -/
theorem openBox_answers (receiverSecret senderPublic : FixedBytes 32) (sealed : List UInt8) :
    (∃ plaintext, Aead.open box receiverSecret senderPublic sealed = some (.ok plaintext)) ∨
      Aead.open box receiverSecret senderPublic sealed = some (.error .sealFailed) := by
  rcases openBox_cases box receiverSecret senderPublic sealed with
    ⟨-, refused⟩ | ⟨nonce, ciphertext, -, cut⟩
  · exact .inr refused
  · rw [cut]
    cases box.decrypt (box.agree senderPublic receiverSecret) nonce ciphertext with
    | none => exact .inr rfl
    | some plaintext => exact .inl ⟨plaintext, rfl⟩

/-! ### Boxes between identities -/

/-- What the boxes from one identity to another are, with the public keys of both. -/
structure BoxesExactly (alice bob : Identity) (alicePublic bobPublic : FixedBytes 32) : Prop where
  aliceKeyed : Identity.x25519PublicFromAddress box (alice.publicKey primitives) = .ok alicePublic
  bobKeyed : Identity.x25519PublicFromAddress box (bob.publicKey primitives) = .ok bobPublic
  clamped : littleEndian (alice.x25519SecretBytes box).1 % 8 = 0 ∧
    2 ^ 254 ≤ littleEndian (alice.x25519SecretBytes box).1 ∧
    littleEndian (alice.x25519SecretBytes box).1 < 2 ^ 255
  opens : ∀ sealed plaintext,
    Aead.open box (bob.x25519SecretBytes box) alicePublic sealed = some (.ok plaintext) ↔
      ∃ nonce, Aead.seal box (alice.x25519SecretBytes box) bobPublic plaintext nonce = .ok sealed
  refuses : ∀ sealed,
    (∀ plaintext nonce,
      Aead.seal box (alice.x25519SecretBytes box) bobPublic plaintext nonce ≠ .ok sealed) →
    Aead.open box (bob.x25519SecretBytes box) alicePublic sealed = some (.error .sealFailed)
  longer : ∀ sealed plaintext nonce,
    Aead.seal box (alice.x25519SecretBytes box) bobPublic plaintext nonce = .ok sealed →
      sealed.length = 24 + plaintext.length + 16
  /-- The sender opens it as well, as if it came from the receiver. -/
  reflects : ∀ sealed, Aead.open box (alice.x25519SecretBytes box) bobPublic sealed =
    Aead.open box (bob.x25519SecretBytes box) alicePublic sealed

/-- Two identities find the public keys of each other's secrets by their addresses alone; the one
opens exactly what the other seals, everything else fails with one error and without an access out
of range, and the box does not say which of the two sealed it. -/
theorem boxes_exact {Point : Type} [AddCommGroup Point] (curve : Curve Point)
    (ideal : IdealBox primitives box curve) (alice bob : Identity) :
    BoxesExactly primitives box alice bob (box.publicKey (alice.x25519SecretBytes box))
      (box.publicKey (bob.x25519SecretBytes box)) := by
  have same := agree_comm primitives box ideal (bob.x25519SecretBytes box)
    (alice.x25519SecretBytes box)
  refine ⟨address_keyed primitives box ideal alice,
    address_keyed primitives box ideal bob, secret_clamped box alice.seed,
    openBox_eq_ok_iff primitives box ideal _ _ _ _ same, ?_, ?_, ?_⟩
  · intro sealed unsealed
    rcases openBox_answers box (bob.x25519SecretBytes box)
        (box.publicKey (alice.x25519SecretBytes box)) sealed with ⟨plaintext, opened⟩ | refused
    · obtain ⟨nonce, sealed⟩ :=
        (openBox_eq_ok_iff primitives box ideal _ _ _ _ same sealed plaintext).mp opened
      exact absurd sealed (unsealed plaintext nonce)
    · exact refused
  · intro sealed plaintext nonce done
    obtain ⟨ciphertext, encrypted, rfl⟩ := (sealBox_eq_ok_iff box _ _ _ _ _).mp done
    rw [List.length_append, nonce.2, ideal.tagged _ _ _ _ encrypted, Aead.nonceLen, tagLen,
      Nat.add_assoc]
  · intro sealed
    rw [Aead.open, Aead.open, same]

/-! ### An instance of what is assumed -/

/-- The integers for a curve: a point has the same byte in both of its forms. -/
def integerCurve : Curve Int where
  base := 1
  address point := .filled 32 (.ofInt point)
  coordinate point := .filled 32 (.ofInt point)
  derive shared := shared

/-- Keys on the integers, with a seed for its own hash, and the keystore's cipher. -/
def integerBox : BoxPrimitives where
  sha512 bytes := ⟨(bytes ++ List.replicate 64 0).take 64, by
    rw [List.length_take, List.length_append, List.length_replicate]
    omega⟩
  montgomery address := some address
  publicKey secret := .filled 32 (.ofInt (clampScalar secret.1))
  agree publicKey secret :=
    .filled 32 (.ofInt (clampScalar secret.1) * (publicKey.1.head?.getD 0))
  encrypt key _ plaintext := taggingKeystore.encrypt key (.filled 12 0) plaintext
  decrypt key _ ciphertext := taggingKeystore.decrypt key (.filled 12 0) ciphertext

/-- The identities whose addresses are on it. -/
def integerPrimitives : Primitives :=
  { markingPrimitives [] with
    verifyingKey := fun seed =>
      .filled 32 (.ofInt (clampScalar ((integerBox.sha512 seed.1).1.take 32))) }

theorem integerBox_ideal : IdealBox integerPrimitives integerBox integerCurve where
  signs _ := congrArg (fun scalar : Int => FixedBytes.filled 32 (UInt8.ofInt scalar))
    (Int.mul_one _).symm
  converts _ := rfl
  publishes _ := congrArg (fun scalar : Int => FixedBytes.filled 32 (UInt8.ofInt scalar))
    (Int.mul_one _).symm
  agrees point secret :=
    congrArg (FixedBytes.filled 32) (UInt8.ofInt_mul (clampScalar secret.1) point).symm
  decrypts key _ := taggingKeystore_ideal.decrypts key (.filled 12 0)
  tagged key _ := taggingKeystore_ideal.tagged key (.filled 12 0)

/-- A message sealed and opened again by both, and the empty box an error. -/
theorem boxes_exact_integer :
    let alice : Identity := ⟨.filled 32 8⟩
    let bob : Identity := ⟨.filled 32 24⟩
    ∃ alicePublic bobPublic sealed,
      Identity.x25519PublicFromAddress integerBox (alice.publicKey integerPrimitives) =
        .ok alicePublic ∧
      Identity.x25519PublicFromAddress integerBox (bob.publicKey integerPrimitives) =
        .ok bobPublic ∧
      alicePublic ≠ bobPublic ∧
      Aead.seal integerBox (alice.x25519SecretBytes integerBox) bobPublic [1, 2, 3]
        (.filled 24 0) = .ok sealed ∧
      Aead.open integerBox (bob.x25519SecretBytes integerBox) alicePublic sealed =
        some (.ok [1, 2, 3]) ∧
      Aead.open integerBox (alice.x25519SecretBytes integerBox) bobPublic sealed =
        some (.ok [1, 2, 3]) ∧
      Aead.open integerBox (bob.x25519SecretBytes integerBox) alicePublic [] =
        some (.error .sealFailed) := by
  intro alice bob
  have holds :=
    boxes_exact integerPrimitives integerBox integerCurve integerBox_ideal alice bob
  have sealed : Aead.seal integerBox (alice.x25519SecretBytes integerBox)
      (integerBox.publicKey (bob.x25519SecretBytes integerBox)) [1, 2, 3] (.filled 24 0) =
        .ok _ := rfl
  have opened := (holds.opens _ [1, 2, 3]).mpr ⟨_, sealed⟩
  refine ⟨_, _, _, holds.aliceKeyed, holds.bobKeyed, by decide +kernel, sealed, opened,
    (holds.reflects _).trans opened, ?_⟩
  refine holds.refuses [] fun plaintext nonce empty => ?_
  have length := holds.longer [] plaintext nonce empty
  rw [List.length_nil] at length
  omega

end Hammurabi
