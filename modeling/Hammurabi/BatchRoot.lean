/-
This file proves what the chained root of a batch, and the id of a token, bind.

The identifiers are digested one after the other, each ended by a line feed, and a
line feed inside an identifier is not told from one that ends it. So with a digest
that is injective the root binds the pieces of the identifiers between line feeds:
the whole batch where no identifier has a line feed, and no more than that elsewhere.
-/

import Hammurabi.Library.Lines
import Hammurabi.Tokens

namespace Hammurabi

open Json Unicode

section Batch

variable {Score : Type} (primitives : TokenPrimitives Score)

/-- The digest is collision-free, cut to 16 bytes too. -/
structure IdealDigest : Prop where
  digest : Function.Injective primitives.digestHex
  short : Function.Injective primitives.shortDigestHex

/-- The pieces of the identifiers of a batch, between line feeds. -/
def batchPieces (eventCids : List String) : List (List Char) :=
  Lines.pieces '\n' (eventCids.map String.toList)

/-! ### The root -/

/-- What is digested is the text of the identifiers, each ended by a line feed. -/
theorem chainedRoot_eq (eventCids : List String) :
    chainedRoot primitives eventCids =
      primitives.digestHex (utf8 (Lines.terminated '\n' (eventCids.map String.toList))) := by
  unfold chainedRoot
  congr 1
  induction eventCids with
  | nil => rfl
  | cons cid rest inductionHypothesis =>
    rw [List.flatMap_cons, inductionHypothesis, List.map_cons, Lines.terminated_cons, utf8_append,
      List.append_assoc]
    rfl

/-- Two batches have the same root exactly when they have the same pieces. -/
theorem chainedRoot_eq_iff (ideal : IdealDigest primitives) (first second : List String) :
    chainedRoot primitives first = chainedRoot primitives second ↔
      batchPieces first = batchPieces second := by
  rw [chainedRoot_eq, chainedRoot_eq, ideal.digest.eq_iff, utf8_injective.eq_iff,
    Lines.terminated_eq_iff]
  rfl

/-- Among batches without a line feed in any identifier, the root binds the batch. -/
theorem eq_of_chainedRoot_eq (ideal : IdealDigest primitives) (first second : List String)
    (firstLines : ∀ cid ∈ first, '\n' ∉ cid.toList)
    (secondLines : ∀ cid ∈ second, '\n' ∉ cid.toList)
    (same : chainedRoot primitives first = chainedRoot primitives second) : first = second := by
  have whole : ∀ batch : List String, (∀ cid ∈ batch, '\n' ∉ cid.toList) →
      batchPieces batch = batch.map String.toList := by
    intro batch lines
    refine Lines.pieces_of_not_mem '\n' _ fun text member => ?_
    obtain ⟨cid, inBatch, rfl⟩ := List.mem_map.mp member
    exact lines cid inBatch
  have pieces := (chainedRoot_eq_iff primitives ideal first second).mp same
  rw [whole first firstLines, whole second secondLines] at pieces
  exact List.map_injective_iff.mpr (fun _ _ => String.ext) pieces

/-! ### The token id -/

/-- A token id binds the batch number and the root. -/
theorem deriveTokenId_eq_iff (ideal : IdealDigest primitives) (batchId batchId' : Int64)
    (root root' : String) :
    deriveTokenId primitives batchId root = deriveTokenId primitives batchId' root' ↔
      batchId = batchId' ∧ root = root' := by
  constructor
  · intro same
    have texts := congrArg String.toList same
    unfold deriveTokenId at texts
    simp only [toString, String.toList_append] at texts
    have digests := ideal.short (String.ext (List.append_cancel_left texts))
    obtain ⟨numbers, roots⟩ := List.append_inj digests
      (by rw [length_toLeBytes, length_toLeBytes])
    exact ⟨toLeBytes_injective numbers, String.ext (utf8_injective roots)⟩
  · rintro ⟨rfl, rfl⟩
    rfl

/-! ### Minting -/

/-- The id a batch is minted under. -/
def batchTokenId (batchId : Int64) (eventCids : List String) : String :=
  deriveTokenId primitives batchId (chainedRoot primitives eventCids)

namespace TokenLedger

variable (ledger : TokenLedger Score)

/-- A mint is refused exactly when its id is taken. -/
theorem mint_refused_iff (batchId : Int64) (eventCids : List String)
    (firstTimestamp lastTimestamp mintedAt : String) (metadata : Value) :
    (∃ error, (ledger.mint primitives batchId eventCids firstTimestamp lastTimestamp mintedAt
        metadata).1 = .error error) ↔
      ∃ held, ledger.tokens.lookup (batchTokenId primitives batchId eventCids) = some held := by
  rcases ledger.mint_cases primitives batchId eventCids firstTimestamp lastTimestamp mintedAt
    metadata with ⟨taken, refused⟩ | ⟨free, token, done, -⟩
  · rw [refused]
    exact ⟨fun _ => taken, fun _ => ⟨_, rfl⟩⟩
  · rw [done, batchTokenId, free]
    constructor
    · rintro ⟨error, same⟩
      cases same
    · rintro ⟨held, same⟩
      cases same

/-- A mint takes no id but its own. -/
theorem lookup_mint_of_ne (batchId : Int64) (eventCids : List String)
    (firstTimestamp lastTimestamp mintedAt : String) (metadata : Value) (id : String)
    (other : id ≠ batchTokenId primitives batchId eventCids) :
    (ledger.mint primitives batchId eventCids firstTimestamp lastTimestamp mintedAt
      metadata).2.tokens.lookup id = ledger.tokens.lookup id := by
  rcases ledger.mint_cases primitives batchId eventCids firstTimestamp lastTimestamp mintedAt
    metadata with ⟨-, refused⟩ | ⟨-, token, done, -⟩
  · rw [refused]
  · rw [done]
    exact (OrderedMap.lookup_insert ..).trans (if_neg other)

/-- A minted token has the id of its batch, and counts its events. -/
theorem mint_ok (batchId : Int64) (eventCids : List String)
    (firstTimestamp lastTimestamp mintedAt : String) (metadata : Value) (token : GoodToken Score)
    (minted : (ledger.mint primitives batchId eventCids firstTimestamp lastTimestamp mintedAt
      metadata).1 = .ok token) :
    token.tokenId = batchTokenId primitives batchId eventCids ∧
      token.eventCount = Int64.ofNat eventCids.length := by
  rcases ledger.mint_cases primitives batchId eventCids firstTimestamp lastTimestamp mintedAt
    metadata with ⟨-, refused⟩ | ⟨-, fresh, done, id, -, -, count, -⟩
  · rw [refused] at minted
    cases minted
  · rw [done] at minted
    obtain rfl := Except.ok.inj minted
    exact ⟨id, count⟩

end TokenLedger

/-! ### What is bound -/

/-- The root, the ledger and the token id tell two batches apart. -/
structure TellsApart (first second : List String) : Prop where
  /-- Different batches have different roots. -/
  roots : first ≠ second → chainedRoot primitives first ≠ chainedRoot primitives second
  /-- Minting the one makes no mint of the other fail under the same batch number. -/
  mints : first ≠ second → ∀ (ledger : TokenLedger Score) (batchId : Int64)
    (firstTimestamp lastTimestamp mintedAt firstTimestamp' lastTimestamp' mintedAt' : String)
    (metadata metadata' : Value),
    (∃ error, (((ledger.mint primitives batchId first firstTimestamp lastTimestamp mintedAt
      metadata).2).mint primitives batchId second firstTimestamp' lastTimestamp' mintedAt'
      metadata').1 = .error error) →
    ∃ error, (ledger.mint primitives batchId second firstTimestamp' lastTimestamp' mintedAt'
      metadata').1 = .error error
  /-- Tokens minted from the two under one id are of the same batch, and count its events. -/
  ids : ∀ (ledger ledger' : TokenLedger Score) (batchId batchId' : Int64)
    (firstTimestamp lastTimestamp mintedAt firstTimestamp' lastTimestamp' mintedAt' : String)
    (metadata metadata' : Value) (token token' : GoodToken Score),
    (ledger.mint primitives batchId first firstTimestamp lastTimestamp mintedAt metadata).1 =
      .ok token →
    (ledger'.mint primitives batchId' second firstTimestamp' lastTimestamp' mintedAt'
      metadata').1 = .ok token' →
    token.tokenId = token'.tokenId → first = second ∧ token.eventCount = token'.eventCount

/-- Two batches are told apart exactly when they are one batch or differ in their pieces between
line feeds. -/
theorem tellsApart_iff (ideal : IdealDigest primitives) (first second : List String) :
    TellsApart primitives first second ↔
      first = second ∨ batchPieces first ≠ batchPieces second := by
  have roots := chainedRoot_eq_iff primitives ideal first second
  constructor
  · intro apart
    by_cases same : first = second
    · exact .inl same
    · exact .inr fun pieces => apart.roots same (roots.mpr pieces)
  · intro condition
    have bound : chainedRoot primitives first = chainedRoot primitives second →
        first = second := by
      intro same
      rcases condition with equal | different
      · exact equal
      · exact absurd (roots.mp same) different
    refine ⟨fun different same => different (bound same), ?_, ?_⟩
    · intro different ledger batchId first₁ last₁ at₁ first₂ last₂ at₂ data₁ data₂ refused
      rw [TokenLedger.mint_refused_iff, TokenLedger.lookup_mint_of_ne] at refused
      · exact (TokenLedger.mint_refused_iff ..).mpr refused
      · intro same
        exact different
          (bound ((deriveTokenId_eq_iff primitives ideal ..).mp same).2.symm)
    · intro ledger ledger' batchId batchId' first₁ last₁ at₁ first₂ last₂ at₂ data₁ data₂ token
        token' minted minted' same
      obtain ⟨id, count⟩ := TokenLedger.mint_ok _ _ _ _ _ _ _ _ _ minted
      obtain ⟨id', count'⟩ := TokenLedger.mint_ok _ _ _ _ _ _ _ _ _ minted'
      rw [id, id'] at same
      obtain rfl := bound ((deriveTokenId_eq_iff primitives ideal ..).mp same).2
      exact ⟨rfl, count.trans count'.symm⟩

end Batch

/-! ### An instance -/

/-- A digest that is the byte string itself, in hexadecimal, and a score that counts events. -/
def hexTokenPrimitives : TokenPrimitives Int where
  digestHex := Hex.encode
  shortDigestHex := Hex.encode
  computeMeritScore events weight := events.toInt * weight
  unitWeight := 1

theorem hexTokenPrimitives_ideal : IdealDigest hexTokenPrimitives := by
  have injective : Function.Injective Hex.encode := by
    intro first second same
    have decoded := congrArg Hex.decode same
    rw [Hex.decode_encode, Hex.decode_encode] at decoded
    exact Except.ok.inj decoded
  exact ⟨injective, injective⟩

/-- Two identifiers are told apart from the one they join to. -/
theorem tellsApart_iff_joined : TellsApart hexTokenPrimitives ["a", "b"] ["ab"] :=
  (tellsApart_iff hexTokenPrimitives hexTokenPrimitives_ideal ["a", "b"] ["ab"]).mpr
    (.inr (by decide))

/-- One identifier with a line feed in it is taken for the two it is cut into: the roots are the
same, and once the one is minted the other is refused. -/
theorem chainedRoot_line_feed :
    IdealDigest hexTokenPrimitives ∧ ["a\nb"] ≠ ["a", "b"] ∧
      chainedRoot hexTokenPrimitives ["a\nb"] = chainedRoot hexTokenPrimitives ["a", "b"] ∧
      (∃ token, ((TokenLedger.new.mint hexTokenPrimitives 1 ["a\nb"] "" "" "" .null).1) =
        .ok token) ∧
      (∃ error, (((TokenLedger.new.mint hexTokenPrimitives 1 ["a\nb"] "" "" "" .null).2).mint
        hexTokenPrimitives 1 ["a", "b"] "" "" "" .null).1 = .error error) := by
  have roots : chainedRoot hexTokenPrimitives ["a\nb"] =
      chainedRoot hexTokenPrimitives ["a", "b"] :=
    (chainedRoot_eq_iff hexTokenPrimitives hexTokenPrimitives_ideal _ _).mpr (by decide)
  refine ⟨hexTokenPrimitives_ideal, by decide, roots, ⟨_, rfl⟩, ?_⟩
  rw [TokenLedger.mint_refused_iff, batchTokenId, ← roots]
  exact ⟨_, (OrderedMap.lookup_insert ..).trans (if_pos rfl)⟩

end Hammurabi
