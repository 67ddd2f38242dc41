/-
This file settles when a mint survives its own attack.

The attack must change what was signed. It puts a marker into an object and wraps
everything else, so the tampered payload is another document, and has another
canonical form, unless the payload is an object that carries this very marker already:
then tampering leaves it as it is, the signature verifies, and the mint is given up
although nothing is wrong with it. Under the ideal scheme that is the only way for a
payload with a canonical form to be refused.
-/

import Hammurabi.Intent
import Hammurabi.Library.Reordering
import Hammurabi.Profiles

namespace Hammurabi

open Json Overflow Unicode

/-! ### Tampering -/

/-- The payload is an object with the marker that tampering puts in. -/
def CarriesMarker (payload : Value) : Prop :=
  payload.get "__chaos__" = some (.number (.posInt 1))

theorem tamper_uniqueKeys (payload : Value) (unique : payload.UniqueKeys) :
    (tamper payload).UniqueKeys := by
  cases payload with
  | object members =>
    exact Value.uniqueKeys_insertMember members _ _ unique (Value.uniqueKeys_number _)
  | array items => simpa [tamper] using unique
  | _ => simp [tamper]

/-- Putting in a member that is there already changes nothing but the order. -/
theorem insertMember_perm (members : List (String × Value))
    (unique : (members.map Prod.fst).Nodup) (key : String) (value : Value)
    (there : members.lookup key = some value) :
    members.Perm (Value.insertMember members key value) := by
  have alone : members.filter (fun member => member.1 = key) = [(key, value)] := by
    refine (readField_required_iff members (.required key) rfl value).mp ?_
    rw [readField_eq_lookup members unique]
    exact Option.or_eq_some_iff.mpr (.inl there)
  have parted := List.filter_append_perm (fun member => decide (member.1 = key)) members
  rw [alone] at parted
  simpa [Value.insertMember] using parted.symm

/-- Tampering leaves a payload as it is, up to the order of members, exactly when the marker is
there already. -/
theorem same_tamper_iff (payload : Value) (unique : payload.UniqueKeys) :
    payload.SameUpToOrder (tamper payload) ↔ CarriesMarker payload := by
  cases payload with
  | object members =>
    rw [Value.uniqueKeys_object] at unique
    constructor
    · intro same
      obtain ⟨⟨key, value⟩, inside, named, held⟩ := Value.exists_mem_of_sameUpToOrder members _
        same ("__chaos__", .number (.posInt 1)) List.mem_cons_self
      obtain rfl : key = "__chaos__" := named
      obtain rfl := Value.eq_number_of_sameUpToOrder value _ held
      exact lookup_of_mem members unique.1 _ inside
    · intro marked
      exact Value.sameUpToOrder_object_of_perm _ _ (insertMember_perm members unique.1 _ _ marked)
  | array items =>
    refine iff_of_false ?_ (fun marked => nomatch marked)
    rintro ⟨items', impossible, -⟩
    cases impossible
  | null => exact iff_of_false (fun same => nomatch same) (fun marked => nomatch marked)
  | bool value => exact iff_of_false (fun same => nomatch same) (fun marked => nomatch marked)
  | number value => exact iff_of_false (fun same => nomatch same) (fun marked => nomatch marked)
  | string value => exact iff_of_false (fun same => nomatch same) (fun marked => nomatch marked)

/-- The tampered payload has the canonical form of the payload exactly when the marker is there
already. -/
theorem canonicalize_tamper_iff (payload : Value) (unique : payload.UniqueKeys)
    (canonical : List UInt8) (canonicalized : canonicalize payload = .ok canonical) :
    canonicalize (tamper payload) = .ok canonical ↔ CarriesMarker payload := by
  have uniqueTampered := tamper_uniqueKeys payload unique
  rw [← same_tamper_iff payload unique]
  constructor
  · intro formed
    exact (canonicalize_eq_iff payload _ unique uniqueTampered canonical canonical canonicalized
      formed).mp rfl
  · intro same
    exact canonicalize_of_same payload _ unique uniqueTampered same canonical canonicalized

/-! ### The mint -/

/-- The ideal scheme, at the message a mint signs: the drawn key verifies its own signatures, and
the stranger's key does not verify this one. -/
structure IdealMint (primitives : Primitives) (payload : Value) (now : Int64)
    (entropy : MintEntropy) : Prop where
  signature : ∀ message, canonicalMessage payload now = .ok message →
    IdealSignature primitives entropy.seed message
  stranger : ∀ message, canonicalMessage payload now = .ok message →
    verifySignature primitives (primitives.verifyingKey entropy.stranger) message
      (primitives.sign entropy.seed message) ≠ .ok ()

variable (primitives : Primitives)

/-- When tampering leaves the payload as it is, the probes cannot all be clear: a signature that
verifies the payload verifies the tampered one. -/
theorem mintChaos_of_marked (payload : Value) (unique : payload.UniqueKeys)
    (canonical : List UInt8) (canonicalized : canonicalize payload = .ok canonical) (now : Int64)
    (entropy : MintEntropy) (marked : CarriesMarker payload) :
    (mintChaos primitives canonical payload now entropy).allClear = false := by
  have tampered := (canonicalize_tamper_iff payload unique canonical canonicalized).mpr marked
  have same : canonicalMessage (tamper payload) now = canonicalMessage payload now := by
    rw [canonicalMessage, canonicalMessage, tampered, canonicalized]
  have opposite : (mintChaos primitives canonical payload now entropy).tamperedPayloadRejected =
      !(mintChaos primitives canonical payload now entropy).honestVerified := by
    simp only [mintChaos, chaosTest, rejects, verifyPayload, same]
  rw [ChaosReport.allClear, opposite]
  cases (mintChaos primitives canonical payload now entropy).honestVerified <;> rfl

/-- Under the ideal scheme the probes are clear exactly when the payload does not carry the
marker. -/
theorem mintChaos_allClear_iff (payload : Value) (unique : payload.UniqueKeys)
    (canonical : List UInt8) (canonicalized : canonicalize payload = .ok canonical) (now : Int64)
    (entropy : MintEntropy) (ideal : IdealMint primitives payload now entropy) :
    (mintChaos primitives canonical payload now entropy).allClear = true ↔
      ¬ CarriesMarker payload := by
  have message : canonicalMessage payload now = .ok (canonical ++ [0] ++ toLeBytes now) :=
    (canonicalMessage_ok_iff _ _ _).mpr ⟨canonical, canonicalized, rfl⟩
  constructor
  · intro clear marked
    rw [mintChaos_of_marked primitives payload unique canonical canonicalized now entropy
      marked] at clear
    cases clear
  · intro unmarked
    exact mintChaos_allClear primitives payload now entropy canonical canonicalized
      (ideal.signature _ message) unique (tamper_uniqueKeys payload unique)
      (fun same => unmarked ((same_tamper_iff payload unique).mp same)) (ideal.stranger _ message)

/-- Under the ideal scheme a payload with a canonical form is minted exactly when it does not carry
the marker. -/
theorem exists_mint_iff (payload : Value) (unique : payload.UniqueKeys) (canonical : List UInt8)
    (canonicalized : canonicalize payload = .ok canonical) (receipt : PaymentReceipt)
    (now : Int64) (entropy : MintEntropy) (ideal : IdealMint primitives payload now entropy) :
    (∃ credential, mint primitives payload receipt now entropy = .ok credential) ↔
      ¬ CarriesMarker payload := by
  rw [← mintChaos_allClear_iff primitives payload unique canonical canonicalized now entropy ideal]
  constructor
  · rintro ⟨credential, minted⟩
    obtain ⟨other, formed, clear, -⟩ := (mint_eq_ok _ _ _ _ _ _).mp minted
    obtain rfl := Except.ok.inj (canonicalized.symm.trans formed)
    exact clear
  · intro clear
    exact ⟨_, (mint_eq_ok _ _ _ _ _ _).mpr ⟨canonical, canonicalized, clear, rfl⟩⟩

/-- Early enough for the expiry to be a 64-bit integer, and not at the very first instant, no mint
aborts. -/
theorem mintArrives_of_inRange (profile : Profile) (payload : Value) (now : Int64)
    (entropy : MintEntropy) (afterFirst : -2 ^ 63 < now.toInt)
    (inRange : now.toInt + 60 < 2 ^ 63) : MintArrives profile primitives payload now entropy := by
  refine fun canonical _ => ⟨⟨.inr ⟨?_, ?_⟩, fun _ => .inr ⟨?_, ?_⟩⟩, fun _ => .inr ⟨?_, ?_⟩⟩
  all_goals omega

/-- Under either profile, and at every instant from the second one up to sixty seconds before the
last, a payload with a canonical form is minted exactly when it does not carry the marker; and
exactly then the tampered payload has another canonical form. -/
theorem mint_survives_iff (profile : Profile) (payload : Value) (unique : payload.UniqueKeys)
    (canonical : List UInt8) (canonicalized : canonicalize payload = .ok canonical)
    (receipt : PaymentReceipt) (now : Int64) (afterFirst : -2 ^ 63 < now.toInt)
    (inRange : now.toInt + 60 < 2 ^ 63) (entropy : MintEntropy)
    (ideal : IdealMint primitives payload now entropy) :
    ((∃ credential, mintIn profile primitives payload receipt now entropy = some (.ok credential)) ↔
      ¬ CarriesMarker payload) ∧
    (canonicalize (tamper payload) ≠ .ok canonical ↔ ¬ CarriesMarker payload) := by
  have arrives := mintArrives_of_inRange primitives profile payload now entropy afterFirst inRange
  refine ⟨?_, not_congr (canonicalize_tamper_iff payload unique canonical canonicalized)⟩
  rw [← exists_mint_iff primitives payload unique canonical canonicalized receipt now entropy ideal]
  simp only [mintIn_eq_some_iff, arrives, true_and, eq_comm]

/-! ### The mint of an intent -/

/-- No intent carries the marker that tampering puts in. -/
theorem payload_unmarked (intent : AgentIntent) : ¬ CarriesMarker intent.payload :=
  fun marked => nomatch marked

/-- The mint of an intent succeeds. -/
theorem mint_payload (intent : AgentIntent) (receipt : PaymentReceipt)
    (now : Int64) (entropy : MintEntropy)
    (ideal : IdealMint primitives intent.payload now entropy) :
    ∃ canonical chaos, mint primitives intent.payload receipt now entropy =
      .ok (releasedCredential primitives canonical receipt now entropy chaos) := by
  obtain ⟨canonical, canonicalized⟩ := intent.canonicalize_payload
  have clear := (mintChaos_allClear_iff primitives intent.payload intent.payload_uniqueKeys
    canonical canonicalized now entropy ideal).mpr (payload_unmarked intent)
  exact ⟨canonical, _, (mint_eq_ok _ _ _ _ _ _).mpr ⟨canonical, canonicalized, clear, rfl⟩⟩

/-! ### Instances -/

/-- Some primitives are ideal for the mint of a payload with a canonical form. -/
theorem markingPrimitives_idealMint (payload : Value) (now : Int64) (canonical : List UInt8)
    (canonicalized : canonicalize payload = .ok canonical) :
    IdealMint (markingPrimitives (canonical ++ [0] ++ toLeBytes now)) payload now plainEntropy := by
  have message : canonicalMessage payload now = .ok (canonical ++ [0] ++ toLeBytes now) :=
    (canonicalMessage_ok_iff _ _ _).mpr ⟨canonical, canonicalized, rfl⟩
  constructor
  · intro other same
    cases message.symm.trans same
    exact markingPrimitives_ideal _ _
  · intro other same
    exact markingPrimitives_stranger _ _ _ _ plainEntropy_stranger

/-- Some primitives are ideal for the mint of an intent. -/
theorem exists_idealMint (intent : AgentIntent) (now : Int64) :
    ∃ marked, IdealMint (markingPrimitives marked) intent.payload now plainEntropy := by
  obtain ⟨canonical, canonicalized⟩ := intent.canonicalize_payload
  exact ⟨_, markingPrimitives_idealMint intent.payload now canonical canonicalized⟩

/-- An object without the marker is minted, and its tampered form is another one. -/
theorem mint_survives_iff_object :
    let primitives := markingPrimitives (plainForm ++ [0] ++ toLeBytes 7)
    (∃ credential, mintIn .debug primitives plainPayload (.cleared .nil "a" 7) 7 plainEntropy =
      some (.ok credential)) ∧
    canonicalize (tamper plainPayload) ≠ .ok plainForm := by
  intro primitives
  have survives := mint_survives_iff primitives .debug plainPayload plainPayload_uniqueKeys
    plainForm canonicalize_plainPayload (.cleared .nil "a" 7) 7 (by decide) (by decide)
    plainEntropy (markingPrimitives_idealMint plainPayload 7 plainForm canonicalize_plainPayload)
  have unmarked : ¬ CarriesMarker plainPayload := fun marked => nomatch marked
  exact ⟨survives.1.mpr unmarked, survives.2.mpr unmarked⟩

/-- A payload that carries the marker has a canonical form, shares it with its tampered form, and is
not minted, ideal as the scheme may be. -/
theorem marked_payload_destroyed :
    let payload := Value.object [("__chaos__", .number (.posInt 1))]
    let canonical := utf8 "\x7b\"__chaos__\":1\x7d".toList
    let primitives := markingPrimitives (canonical ++ [0] ++ toLeBytes 7)
    payload.UniqueKeys ∧ canonicalize payload = .ok canonical ∧
      IdealMint primitives payload 7 plainEntropy ∧
      canonicalize (tamper payload) = .ok canonical ∧
      ∀ (profile : Profile) (receipt : PaymentReceipt) (credential : EphemeralCredential),
        mintIn profile primitives payload receipt 7 plainEntropy ≠ some (.ok credential) := by
  intro payload canonical primitives
  have unique : payload.UniqueKeys := by simp [payload]
  have canonicalized : canonicalize payload = .ok canonical := rfl
  refine ⟨unique, canonicalized, markingPrimitives_idealMint payload 7 _ canonicalized, rfl, ?_⟩
  intro profile receipt credential minted
  rw [mintIn_eq_some_iff] at minted
  obtain ⟨other, formed, clear, -⟩ := (mint_eq_ok _ _ _ _ _ _).mp minted.2.symm
  rw [mintChaos_of_marked primitives payload unique other formed 7 plainEntropy rfl] at clear
  cases clear

end Hammurabi
