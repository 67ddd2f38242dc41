/-
This file is the in-memory ledger of Good Tokens.

A token is minted from a batch of event identifiers; its id is a digest of the batch
number and of the chained root, which is a digest of the identifiers one after the
other. The ledger is a map listed by token id. Besides minting, an operation moves one
token from a status it allows to another, or refuses.

The digests and the merit score are computed outside the repository, the score in
floating point, so both are parameters.
-/

import Mathlib.Data.String.Basic
import Hammurabi.Jcs
import Hammurabi.Library.OrderedMap

namespace Hammurabi

open Json Unicode

/-! ### Tokens -/

/-- Status of a Good Token. -/
inductive TokenStatus where
  | minted
  | active
  | spent
  | burned
  | revoked
  deriving DecidableEq, Repr

def TokenStatus.toString : TokenStatus → String
  | .minted => "minted"
  | .active => "active"
  | .spent => "spent"
  | .burned => "burned"
  | .revoked => "revoked"

/-- A Good Token. -/
structure GoodToken (Score : Type) where
  tokenId : String
  batchId : Int64
  eventCount : Int64
  firstTimestamp : String
  lastTimestamp : String
  chainedRoot : String
  proofUri : Option String
  status : TokenStatus
  mintedAt : String
  meritScore : Score
  metadata : Value

/-- What the tokens take from outside: the digests, and the arithmetic of merit. -/
structure TokenPrimitives (Score : Type) where
  /-- The BLAKE3 digest of a byte string, in hexadecimal. -/
  digestHex : List UInt8 → String
  /-- The first 16 bytes of the digest, in hexadecimal. -/
  shortDigestHex : List UInt8 → String
  /-- The score of a number of events under a verification weight. -/
  computeMeritScore : Int64 → Score → Score
  /-- The weight 1.0. -/
  unitWeight : Score

section Ledger

variable {Score : Type} (primitives : TokenPrimitives Score)

/-- The chained root: the digest of all event identifiers in order, each followed by a line
feed. -/
def chainedRoot (eventCids : List String) : String :=
  primitives.digestHex (eventCids.flatMap fun cid => utf8 cid.toList ++ [0x0a])

/-- The content-addressed token id. -/
def deriveTokenId (batchId : Int64) (root : String) : String :=
  s!"GT-{primitives.shortDigestHex (toLeBytes batchId ++ utf8 root.toList)}"

/-! ### The ledger -/

/-- The tokens by their ids. -/
structure TokenLedger (Score : Type) where
  tokens : OrderedMap String (GoodToken Score)

namespace TokenLedger

def new : TokenLedger Score := ⟨.empty⟩

variable (ledger : TokenLedger Score)

/-- Mint a token from a batch of event identifiers. -/
def mint (batchId : Int64) (eventCids : List String)
    (firstTimestamp lastTimestamp mintedAt : String) (metadata : Value) :
    CryptoResult (GoodToken Score) × TokenLedger Score :=
  let root := chainedRoot primitives eventCids
  let tokenId := deriveTokenId primitives batchId root
  match ledger.tokens.lookup tokenId with
  | some _ => (.error (.token s!"token already minted: {tokenId}"), ledger)
  | none =>
    let eventCount := Int64.ofNat eventCids.length
    let token := {
      tokenId := tokenId
      batchId := batchId
      eventCount := eventCount
      firstTimestamp := firstTimestamp
      lastTimestamp := lastTimestamp
      chainedRoot := root
      proofUri := none
      status := .minted
      mintedAt := mintedAt
      meritScore := primitives.computeMeritScore eventCount primitives.unitWeight
      metadata := metadata }
    (.ok token, ⟨ledger.tokens.insert tokenId token⟩)

def get (tokenId : String) : CryptoResult (GoodToken Score) :=
  match ledger.tokens.lookup tokenId with
  | some token => .ok token
  | none => .error (.token s!"token not found: {tokenId}")

/-- Move a token to a status, if the one it has allows it. -/
def transition (tokenId : String) (allowedFrom : List TokenStatus) (target : TokenStatus) :
    CryptoResult Unit × TokenLedger Score :=
  match ledger.tokens.lookup tokenId with
  | none => (.error (.token s!"token not found: {tokenId}"), ledger)
  | some token =>
    if token.status ∉ allowedFrom then
      (.error (.token
        s!"invalid transition for {tokenId}: {token.status.toString} → {target.toString}"), ledger)
    else (.ok (), ⟨ledger.tokens.adjust tokenId fun token => { token with status := target }⟩)

/-- Activate a minted token. -/
def activate (tokenId : String) : CryptoResult Unit × TokenLedger Score :=
  ledger.transition tokenId [.minted] .active

/-- Spend an active token. -/
def spend (tokenId : String) : CryptoResult Unit × TokenLedger Score :=
  ledger.transition tokenId [.active] .spent

/-- Burn a token, removing it from circulation. -/
def burn (tokenId _reason : String) : CryptoResult Unit × TokenLedger Score :=
  ledger.transition tokenId [.minted, .active] .burned

/-- Revoke a token from any state but the revoked one. -/
def revoke (tokenId _reason : String) : CryptoResult Unit × TokenLedger Score :=
  ledger.transition tokenId [.minted, .active, .spent, .burned] .revoked

/-- The number of tokens in a status. -/
def countByStatus (status : TokenStatus) : Nat :=
  ledger.tokens.values.countP fun token => token.status = status

/-- The number of tokens held. -/
def total : Nat := ledger.tokens.size

/-! ### What an operation does -/

/-- Minting either refuses an id that is taken, or inserts a minted token under the id derived
from its own batch and root. -/
theorem mint_cases (batchId : Int64) (eventCids : List String)
    (firstTimestamp lastTimestamp mintedAt : String) (metadata : Value) :
    let tokenId := deriveTokenId primitives batchId (chainedRoot primitives eventCids)
    let outcome := ledger.mint primitives batchId eventCids firstTimestamp lastTimestamp mintedAt
      metadata
    ((∃ held, ledger.tokens.lookup tokenId = some held) ∧
      outcome = (.error (.token s!"token already minted: {tokenId}"), ledger)) ∨
    (ledger.tokens.lookup tokenId = none ∧
      ∃ token, outcome = (.ok token, ⟨ledger.tokens.insert tokenId token⟩) ∧
        token.tokenId = tokenId ∧ token.batchId = batchId ∧
        token.chainedRoot = chainedRoot primitives eventCids ∧
        token.eventCount = Int64.ofNat eventCids.length ∧ token.status = .minted) := by
  intro tokenId outcome
  cases found : ledger.tokens.lookup tokenId with
  | some held =>
    refine .inl ⟨⟨held, rfl⟩, ?_⟩
    simp only [outcome, mint, tokenId] at found ⊢
    rw [found]
  | none =>
    refine .inr ⟨rfl, ?_⟩
    simp only [outcome, mint, tokenId] at found ⊢
    rw [found]
    exact ⟨_, rfl, rfl, rfl, rfl, rfl, rfl⟩

/-- A transition either refuses, or changes the status of the token it names and nothing else. -/
theorem transition_cases (tokenId : String) (allowedFrom : List TokenStatus)
    (target : TokenStatus) :
    (∃ error, ledger.transition tokenId allowedFrom target = (.error error, ledger)) ∨
    ∃ token, ledger.tokens.lookup tokenId = some token ∧ token.status ∈ allowedFrom ∧
      ledger.transition tokenId allowedFrom target =
        (.ok (), ⟨ledger.tokens.adjust tokenId fun token => { token with status := target }⟩) := by
  unfold transition
  cases ledger.tokens.lookup tokenId with
  | none => exact .inl ⟨_, rfl⟩
  | some token =>
    by_cases allowed : token.status ∈ allowedFrom
    · exact .inr ⟨token, rfl, allowed, if_neg (not_not.mpr allowed)⟩
    · exact .inl ⟨_, if_pos allowed⟩

/-- A transition the status allows succeeds. -/
theorem transition_of_allowed (tokenId : String) (allowedFrom : List TokenStatus)
    (target : TokenStatus) (token : GoodToken Score)
    (held : ledger.tokens.lookup tokenId = some token) (allowed : token.status ∈ allowedFrom) :
    ledger.transition tokenId allowedFrom target =
      (.ok (), ⟨ledger.tokens.adjust tokenId fun token => { token with status := target }⟩) := by
  unfold transition
  rw [held]
  exact if_neg (not_not.mpr allowed)

/-- Every token is in one of the five statuses. -/
theorem countByStatus_sum :
    ledger.countByStatus .minted + ledger.countByStatus .active + ledger.countByStatus .spent +
      ledger.countByStatus .burned + ledger.countByStatus .revoked = ledger.total := by
  unfold countByStatus total
  rw [← OrderedMap.length_values]
  induction ledger.tokens.values with
  | nil => rfl
  | cons token rest inductionHypothesis =>
    rw [List.length_cons, ← inductionHypothesis]
    simp only [List.countP_cons, decide_eq_true_eq]
    cases token.status <;> simp only [reduceCtorEq, if_true, if_false] <;> omega

end TokenLedger

end Ledger

end Hammurabi
