/-
This file is the keystore: an identity's seed at rest, encrypted under a passphrase.

A blob is a version byte, a salt, a nonce and the ciphertext of the seed under the key
that the passphrase and the salt derive. Opening guards the length and the version, cuts
the blob at the three boundaries, derives the key, decrypts and takes a plaintext of 32
bytes for the seed. Every index, every slice and every array taken from a slice is
checked here, and comes out as nothing where it would panic.

The key derivation and the cipher are crates outside the repository. Nothing is assumed
of the first. Of the second it is assumed that a ciphertext decrypts to the plaintext it
was made of and to no other, and is longer than that by its tag.
-/

import Hammurabi.Crypto

namespace Hammurabi

/-! ### Checked access -/

/-- The bytes from `start` up to `stop`; nothing if they are not all there. -/
def checkedSlice (bytes : List UInt8) (start stop : Nat) : Option (List UInt8) :=
  if start ≤ stop ∧ stop ≤ bytes.length then some ((bytes.drop start).take (stop - start))
  else none

/-- A slice between its neighbours is found at their boundaries. -/
theorem checkedSlice_middle (front middle back : List UInt8) (start stop : Nat)
    (starts : front.length = start) (stops : start + middle.length = stop) :
    checkedSlice (front ++ (middle ++ back)) start stop = some middle := by
  have width : stop - start = middle.length := by omega
  rw [checkedSlice, if_pos, width, ← starts, List.drop_left, List.take_left]
  rw [List.length_append, List.length_append]
  omega

/-! ### The format -/

def keystoreVersion : UInt8 := 0x02

def saltLen : Nat := 16

def nonceLen : Nat := 12

def headerLen : Nat := 1 + saltLen + nonceLen

/-- The length of an authentication tag. -/
def tagLen : Nat := 16

/-- What the keystore takes from the crates it is built on. -/
structure KeystorePrimitives where
  /-- Derive a key of 32 bytes from a passphrase and a salt, or say why not. -/
  hashPasswordInto : List UInt8 → List UInt8 → Except String (FixedBytes 32)
  /-- Why a key of another length than 32 bytes is refused. -/
  lengthRefusal : String
  /-- Encrypt under a key and a nonce; nothing where the cipher fails. -/
  encrypt : FixedBytes 32 → FixedBytes nonceLen → List UInt8 → Option (List UInt8)
  /-- Decrypt under a key and a nonce; nothing where the cipher fails. -/
  decrypt : FixedBytes 32 → FixedBytes nonceLen → List UInt8 → Option (List UInt8)

variable (primitives : KeystorePrimitives)

/-- The key of a cipher, from a slice. -/
def cipherFromSlice (key : List UInt8) : Except String (FixedBytes 32) :=
  match FixedBytes.ofList? 32 key with
  | some key => .ok key
  | none => .error primitives.lengthRefusal

def deriveKey (passphrase salt : List UInt8) : CryptoResult (FixedBytes 32) :=
  (primitives.hashPasswordInto passphrase salt).mapError .keystore

/-- Seal an identity's seed under a passphrase, with the salt and the nonce that were drawn. -/
def EncryptedKeystore.seal (identity : Identity) (passphrase : List UInt8)
    (salt : FixedBytes saltLen) (nonce : FixedBytes nonceLen) : CryptoResult (List UInt8) := do
  let key ← deriveKey primitives passphrase salt.1
  let cipher ← (cipherFromSlice primitives key.1).mapError .keystore
  match primitives.encrypt cipher nonce identity.seed.1 with
  | none => throw .sealFailed
  | some ciphertext => return keystoreVersion :: (salt.1 ++ nonce.1 ++ ciphertext)

/-- What is done with the parts of a blob. -/
def openParts (passphrase salt : List UInt8) (nonce : FixedBytes nonceLen)
    (ciphertext : List UInt8) : CryptoResult Identity := do
  let key ← deriveKey primitives passphrase salt
  let cipher ← (cipherFromSlice primitives key.1).mapError .keystore
  match primitives.decrypt cipher nonce ciphertext with
  | none => throw .sealFailed
  | some plaintext =>
    match FixedBytes.ofList? 32 plaintext with
    | none => throw (.keystore "decrypted seed length")
    | some seed => return Identity.fromSeed seed

/-- Open a sealed keystore blob with a passphrase, recovering the identity; nothing where an access
would panic. -/
def EncryptedKeystore.open (blob passphrase : List UInt8) : Option (CryptoResult Identity) := do
  if blob.length ≤ headerLen then return .error (.keystore "malformed keystore blob")
  let version ← blob[0]?
  if version ≠ keystoreVersion then return .error (.keystore "malformed keystore blob")
  let salt ← checkedSlice blob 1 (1 + saltLen)
  let nonce ← checkedSlice blob (1 + saltLen) headerLen
  let ciphertext ← checkedSlice blob headerLen blob.length
  let nonce ← FixedBytes.ofList? nonceLen nonce
  return openParts primitives passphrase salt nonce ciphertext

/-- The ideal cipher: it decrypts exactly what it encrypts, and a ciphertext is longer than its
plaintext by the tag. -/
structure IdealAead : Prop where
  decrypts : ∀ key nonce plaintext ciphertext,
    primitives.decrypt key nonce ciphertext = some plaintext ↔
      primitives.encrypt key nonce plaintext = some ciphertext
  tagged : ∀ key nonce plaintext ciphertext,
    primitives.encrypt key nonce plaintext = some ciphertext →
      ciphertext.length = plaintext.length + tagLen

/-! ### The parts of a blob -/

/-- A blob of its parts. -/
def keystoreBlob (salt : FixedBytes saltLen) (nonce : FixedBytes nonceLen)
    (ciphertext : List UInt8) : List UInt8 :=
  keystoreVersion :: (salt.1 ++ nonce.1 ++ ciphertext)

theorem length_keystoreBlob (salt : FixedBytes saltLen) (nonce : FixedBytes nonceLen)
    (ciphertext : List UInt8) :
    (keystoreBlob salt nonce ciphertext).length = headerLen + ciphertext.length := by
  rw [keystoreBlob, List.length_cons, List.length_append, List.length_append, salt.2, nonce.2,
    headerLen]
  omega

/-- The slices of a blob are the parts it was made of. -/
theorem open_keystoreBlob (passphrase : List UInt8) (salt : FixedBytes saltLen)
    (nonce : FixedBytes nonceLen) (ciphertext : List UInt8) (some : ciphertext ≠ []) :
    EncryptedKeystore.open primitives (keystoreBlob salt nonce ciphertext) passphrase =
      .some (openParts primitives passphrase salt.1 nonce ciphertext) := by
  have length := length_keystoreBlob salt nonce ciphertext
  have positive := List.length_pos_iff.mpr some
  have header : headerLen = 29 := rfl
  have saltSlice : checkedSlice (keystoreBlob salt nonce ciphertext) 1 (1 + saltLen) =
      .some salt.1 := by
    have parts : keystoreBlob salt nonce ciphertext =
        [keystoreVersion] ++ (salt.1 ++ (nonce.1 ++ ciphertext)) := by
      rw [keystoreBlob, List.append_assoc, List.singleton_append]
    rw [parts]
    exact checkedSlice_middle _ _ _ _ _ rfl (by rw [salt.2])
  have nonceSlice : checkedSlice (keystoreBlob salt nonce ciphertext) (1 + saltLen) headerLen =
      .some nonce.1 := by
    have parts : keystoreBlob salt nonce ciphertext =
        (keystoreVersion :: salt.1) ++ (nonce.1 ++ ciphertext) := by
      rw [keystoreBlob, List.append_assoc, List.cons_append]
    rw [parts]
    refine checkedSlice_middle _ _ _ _ _ ?_ (by rw [nonce.2, headerLen])
    rw [List.length_cons, salt.2, Nat.add_comm]
  have ciphertextSlice : checkedSlice (keystoreBlob salt nonce ciphertext) headerLen
      (keystoreBlob salt nonce ciphertext).length = .some ciphertext := by
    have parts : keystoreBlob salt nonce ciphertext =
        (keystoreVersion :: (salt.1 ++ nonce.1)) ++ (ciphertext ++ []) := by
      rw [keystoreBlob, List.append_nil, List.cons_append]
    rw [length, parts]
    refine checkedSlice_middle _ _ _ _ _ ?_ rfl
    rw [List.length_cons, List.length_append, salt.2, nonce.2, headerLen]
    omega
  rw [EncryptedKeystore.open, if_neg (by omega), saltSlice, nonceSlice, ciphertextSlice]
  simp only [keystoreBlob, List.getElem?_cons_zero, Option.bind_eq_bind, Option.bind_some,
    FixedBytes.ofList?_val]
  rfl

/-- A byte string is refused as malformed, or is a blob of three parts. -/
theorem open_cases (blob passphrase : List UInt8) :
    EncryptedKeystore.open primitives blob passphrase =
        some (.error (.keystore "malformed keystore blob")) ∨
      ∃ salt nonce ciphertext, ciphertext ≠ [] ∧ blob = keystoreBlob salt nonce ciphertext := by
  by_cases short : blob.length ≤ headerLen
  · left
    rw [EncryptedKeystore.open, if_pos short]
    rfl
  · cases blob with
    | nil => exact absurd (Nat.zero_le _) short
    | cons version rest =>
      by_cases current : version = keystoreVersion
      · right
        have header : headerLen = 29 := rfl
        have long : 28 < rest.length := by
          rw [List.length_cons] at short
          omega
        refine ⟨⟨rest.take 16, ?_⟩, ⟨(rest.drop 16).take 12, ?_⟩, rest.drop 28, ?_, ?_⟩
        · rw [List.length_take, saltLen]
          omega
        · rw [List.length_take, List.length_drop, nonceLen]
          omega
        · exact List.ne_nil_of_length_pos (by rw [List.length_drop]; omega)
        · have tail : (rest.drop 16).drop 12 = rest.drop 28 := List.drop_drop
          rw [keystoreBlob, current, List.append_assoc, ← tail, List.take_append_drop,
            List.take_append_drop]
      · left
        rw [EncryptedKeystore.open, if_neg short]
        simp only [List.getElem?_cons_zero, Option.bind_eq_bind, Option.bind_some]
        rw [if_pos current]
        rfl

/-! ### Sealing and opening -/

theorem cipherFromSlice_val (key : FixedBytes 32) :
    cipherFromSlice primitives key.1 = .ok key := by
  rw [cipherFromSlice, FixedBytes.ofList?_val]

/-- What sealing can output is a blob with the ciphertext of the seed. -/
theorem seal_eq_ok_iff (identity : Identity) (passphrase : List UInt8) (salt : FixedBytes saltLen)
    (nonce : FixedBytes nonceLen) (blob : List UInt8) :
    EncryptedKeystore.seal primitives identity passphrase salt nonce = .ok blob ↔
      ∃ key ciphertext, primitives.hashPasswordInto passphrase salt.1 = .ok key ∧
        primitives.encrypt key nonce identity.seed.1 = some ciphertext ∧
        blob = keystoreBlob salt nonce ciphertext := by
  rw [EncryptedKeystore.seal, deriveKey]
  cases derived : primitives.hashPasswordInto passphrase salt.1 with
  | error refusal => simp [Except.mapError, bind, Except.bind]
  | ok key =>
    simp only [Except.mapError, bind, Except.bind, cipherFromSlice_val, Except.ok.injEq,
      exists_and_left, exists_eq_left']
    cases primitives.encrypt key nonce identity.seed.1 with
    | none => simp [throw, throwThe, MonadExceptOf.throw]
    | some ciphertext =>
      simp only [Option.some.injEq, exists_eq_left']
      exact ⟨fun done => (Except.ok.inj done).symm, fun same => congrArg Except.ok same.symm⟩

/-- Parts open to the identity whose seed they are made of, and to no other. -/
theorem openParts_eq_ok_iff (ideal : IdealAead primitives) (passphrase salt : List UInt8)
    (nonce : FixedBytes nonceLen) (ciphertext : List UInt8) (identity : Identity) :
    openParts primitives passphrase salt nonce ciphertext = .ok identity ↔
      ∃ key, primitives.hashPasswordInto passphrase salt = .ok key ∧
        primitives.encrypt key nonce identity.seed.1 = some ciphertext := by
  rw [openParts, deriveKey]
  cases derived : primitives.hashPasswordInto passphrase salt with
  | error refusal => simp [Except.mapError, bind, Except.bind]
  | ok key =>
    simp only [Except.mapError, bind, Except.bind, cipherFromSlice_val, Except.ok.injEq,
      exists_eq_left', ← ideal.decrypts]
    cases primitives.decrypt key nonce ciphertext with
    | none => simp [throw, throwThe, MonadExceptOf.throw]
    | some plaintext =>
      rw [Option.some.injEq]
      dsimp only
      constructor
      · intro opened
        cases seeded : FixedBytes.ofList? 32 plaintext with
        | none =>
          rw [seeded] at opened
          cases opened
        | some seed =>
          rw [seeded] at opened
          obtain rfl := Except.ok.inj opened
          exact (FixedBytes.ofList?_eq_some 32 plaintext seed).mp seeded
      · rintro rfl
        rw [FixedBytes.ofList?_val]
        rfl

/-! ### The format is exact -/

/-- A blob is the version byte, a salt, a nonce and the ciphertext of a seed under the key that the
passphrase and the salt derive. -/
def Seals (passphrase : List UInt8) (seed : Seed) (blob : List UInt8) : Prop :=
  ∃ (salt : FixedBytes 16) (nonce : FixedBytes 12) (key : FixedBytes 32) (ciphertext : List UInt8),
    primitives.hashPasswordInto passphrase salt.1 = .ok key ∧
      primitives.encrypt key nonce seed.1 = some ciphertext ∧
      blob = 0x02 :: (salt.1 ++ nonce.1 ++ ciphertext)

/-- Opening recovers a seed from exactly the blobs that seal it. -/
theorem open_eq_ok_iff (ideal : IdealAead primitives) (blob passphrase : List UInt8)
    (identity : Identity) :
    EncryptedKeystore.open primitives blob passphrase = some (.ok identity) ↔
      Seals primitives passphrase identity.seed blob := by
  constructor
  · intro opened
    rcases open_cases primitives blob passphrase with
      refused | ⟨salt, nonce, ciphertext, some, rfl⟩
    · rw [refused] at opened
      cases opened
    · rw [open_keystoreBlob primitives passphrase salt nonce ciphertext some] at opened
      obtain ⟨key, derived, encrypted⟩ :=
        (openParts_eq_ok_iff primitives ideal passphrase salt.1 nonce ciphertext identity).mp
          (Option.some.inj opened)
      exact ⟨salt, nonce, key, ciphertext, derived, encrypted, rfl⟩
  · rintro ⟨salt, nonce, key, ciphertext, derived, encrypted, rfl⟩
    -- the guard on the length lets the blob through because the tag makes the ciphertext longer
    have some : ciphertext ≠ [] := by
      have length := ideal.tagged key nonce _ ciphertext encrypted
      exact List.ne_nil_of_length_pos (by rw [length, tagLen]; omega)
    have opened := open_keystoreBlob primitives passphrase salt nonce ciphertext some
    rw [(openParts_eq_ok_iff primitives ideal passphrase salt.1 nonce ciphertext identity).mpr
        ⟨key, derived, encrypted⟩] at opened
    exact opened

/-- Whatever the bytes, opening answers. -/
theorem open_answers (blob passphrase : List UInt8) :
    ∃ answer, EncryptedKeystore.open primitives blob passphrase = some answer := by
  rcases open_cases primitives blob passphrase with refused | ⟨salt, nonce, ciphertext, some, rfl⟩
  · exact ⟨_, refused⟩
  · exact ⟨_, open_keystoreBlob primitives passphrase salt nonce ciphertext some⟩

/-- The format of the keystore, over all byte strings and passphrases: a blob opens to a seed
exactly if it seals it; what sealing outputs seals the identity's seed and opens to the identity;
and everything else is an error, without an access out of range. -/
theorem keystore_exact (ideal : IdealAead primitives) (blob passphrase : List UInt8) :
    (∀ seed : Seed, EncryptedKeystore.open primitives blob passphrase = some (.ok ⟨seed⟩) ↔
      Seals primitives passphrase seed blob) ∧
    (∀ identity salt nonce,
      EncryptedKeystore.seal primitives identity passphrase salt nonce = .ok blob →
        Seals primitives passphrase identity.seed blob ∧
          EncryptedKeystore.open primitives blob passphrase = some (.ok identity)) ∧
    ((∀ seed : Seed, ¬Seals primitives passphrase seed blob) →
      ∃ error, EncryptedKeystore.open primitives blob passphrase = some (.error error)) := by
  refine ⟨fun seed => open_eq_ok_iff primitives ideal blob passphrase ⟨seed⟩,
    fun identity salt nonce sealed => ?_, fun unsealed => ?_⟩
  · obtain ⟨key, ciphertext, parts⟩ :=
      (seal_eq_ok_iff primitives identity passphrase salt nonce blob).mp sealed
    have seals : Seals primitives passphrase identity.seed blob :=
      ⟨salt, nonce, key, ciphertext, parts⟩
    exact ⟨seals, (open_eq_ok_iff primitives ideal blob passphrase identity).mpr seals⟩
  · obtain ⟨answer, opened⟩ := open_answers primitives blob passphrase
    cases answer with
    | error error => exact ⟨error, opened⟩
    | ok identity =>
      have seals := (open_eq_ok_iff primitives ideal blob passphrase identity).mp opened
      exact absurd seals (unsealed identity.seed)

/-! ### An instance of what is assumed -/

/-- A keystore whose key is the passphrase and the salt, and whose tag is half of the key. -/
def taggingKeystore : KeystorePrimitives where
  hashPasswordInto passphrase salt :=
    .ok ⟨(passphrase ++ salt ++ List.replicate 32 0).take 32, by
      simp only [List.length_take, List.length_append, List.length_replicate]
      omega⟩
  lengthRefusal := "Invalid Length"
  encrypt key _ plaintext := some (plaintext ++ key.1.take tagLen)
  decrypt key _ ciphertext :=
    if key.1.take tagLen <:+ ciphertext then some (ciphertext.take (ciphertext.length - tagLen))
    else none

theorem length_tag (key : FixedBytes 32) : (key.1.take tagLen).length = tagLen := by
  rw [List.length_take, key.2]
  rfl

theorem taggingKeystore_ideal : IdealAead taggingKeystore where
  decrypts key nonce plaintext ciphertext := by
    change (if _ then some _ else none) = some plaintext ↔ some _ = some ciphertext
    rw [Option.some.injEq]
    constructor
    · intro decrypted
      split at decrypted
      · rename_i ends
        obtain ⟨body, rfl⟩ := ends
        rw [List.length_append, length_tag, Nat.add_sub_cancel, List.take_left,
          Option.some.injEq] at decrypted
        rw [decrypted]
      · cases decrypted
    · rintro rfl
      rw [if_pos (List.suffix_append _ _), List.length_append, length_tag, Nat.add_sub_cancel,
        List.take_left]
  tagged key nonce plaintext ciphertext encrypted := by
    rw [← Option.some.inj encrypted, List.length_append, length_tag]

/-- A seed sealed and opened again, and the empty blob an error. -/
theorem keystore_exact_tagging :
    (∃ blob, EncryptedKeystore.seal taggingKeystore ⟨.filled 32 7⟩ [1, 2, 3] (.filled 16 0)
        (.filled 12 0) = .ok blob ∧
      EncryptedKeystore.open taggingKeystore blob [1, 2, 3] = some (.ok ⟨.filled 32 7⟩)) ∧
    ∃ error, EncryptedKeystore.open taggingKeystore [] [1, 2, 3] = some (.error error) := by
  have sealed := (keystore_exact taggingKeystore taggingKeystore_ideal _ [1, 2, 3]).2.1
    ⟨.filled 32 7⟩ (.filled 16 0) (.filled 12 0) rfl
  refine ⟨⟨_, rfl, sealed.2⟩,
    (keystore_exact taggingKeystore taggingKeystore_ideal [] [1, 2, 3]).2.2 fun seed seals => ?_⟩
  obtain ⟨_, _, _, _, -, -, empty⟩ := seals
  cases empty

end Hammurabi
