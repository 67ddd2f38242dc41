/-
This file shows that the tokens of a ledger do not see each other.

An operation looks up the token it names, answers by what it finds, and writes under that
id alone. A sequence of operations is therefore, for each token, the sequence of the
operations on that token: whatever is done to others before, between and after is not told
by the token or by the answers. Two sequences with the same operations on each token, in
whatever way they are interleaved, leave one and the same ledger, and with it the same
listings and counts.
-/

import Hammurabi.Lifecycle
import Hammurabi.Library.Locality

namespace Hammurabi

namespace TokenLedger

open Locality

variable {Score : Type} (primitives : TokenPrimitives Score)

/-! ### Operations are local -/

/-- A transition goes by the token it names. -/
theorem transition_own (first second : TokenLedger Score) (tokenId : String)
    (allowedFrom : List TokenStatus) (target : TokenStatus)
    (same : first.tokens.lookup tokenId = second.tokens.lookup tokenId) :
    (first.transition tokenId allowedFrom target).1 =
        (second.transition tokenId allowedFrom target).1 ∧
      (first.transition tokenId allowedFrom target).2.tokens.lookup tokenId =
        (second.transition tokenId allowedFrom target).2.tokens.lookup tokenId := by
  unfold transition
  rw [same]
  cases found : second.tokens.lookup tokenId with
  | none => exact ⟨rfl, same⟩
  | some token =>
    dsimp only
    by_cases allowed : token.status ∈ allowedFrom
    · rw [if_neg (not_not.mpr allowed), if_neg (not_not.mpr allowed)]
      refine ⟨rfl, ?_⟩
      rw [OrderedMap.lookup_adjust, OrderedMap.lookup_adjust, same]
    · rw [if_pos allowed, if_pos allowed]
      exact ⟨rfl, same⟩

/-- A mint goes by whether the id it derives is taken. -/
theorem mint_own (first second : TokenLedger Score) (batchId : Int64) (eventCids : List String)
    (firstTimestamp lastTimestamp mintedAt : String) (metadata : Json.Value) (tokenId : String)
    (derived : deriveTokenId primitives batchId (chainedRoot primitives eventCids) = tokenId)
    (same : first.tokens.lookup tokenId = second.tokens.lookup tokenId) :
    (first.mint primitives batchId eventCids firstTimestamp lastTimestamp mintedAt metadata).1 =
        (second.mint primitives batchId eventCids firstTimestamp lastTimestamp mintedAt
          metadata).1 ∧
      (first.mint primitives batchId eventCids firstTimestamp lastTimestamp mintedAt
          metadata).2.tokens.lookup tokenId =
        (second.mint primitives batchId eventCids firstTimestamp lastTimestamp mintedAt
          metadata).2.tokens.lookup tokenId := by
  subst derived
  unfold mint
  simp only [same]
  cases found : second.tokens.lookup
      (deriveTokenId primitives batchId (chainedRoot primitives eventCids)) with
  | none =>
    refine ⟨rfl, ?_⟩
    rw [OrderedMap.lookup_insert, OrderedMap.lookup_insert, if_pos rfl, if_pos rfl]
  | some held => exact ⟨rfl, same⟩

/-- Every operation changes only the token it names, by that token alone. -/
theorem apply_isLocal :
    Local (apply primitives) (TokenOp.named primitives) fun id ledger =>
      OrderedMap.lookup id (TokenLedger.tokens ledger) where
  frame ledger op id other := apply_frame primitives ledger op id other
  own first second op same := by
    have answered : ∀ tokenId allowedFrom target,
        first.tokens.lookup tokenId = second.tokens.lookup tokenId →
        ((first.transition tokenId allowedFrom target).1.map fun _ =>
            (none : Option (GoodToken Score))) =
          ((second.transition tokenId allowedFrom target).1.map fun _ => none) ∧
        (first.transition tokenId allowedFrom target).2.tokens.lookup tokenId =
          (second.transition tokenId allowedFrom target).2.tokens.lookup tokenId := by
      intro tokenId allowedFrom target held
      obtain ⟨answers, parts⟩ := transition_own first second tokenId allowedFrom target held
      exact ⟨by rw [answers], parts⟩
    cases op with
    | mint batchId eventCids firstTimestamp lastTimestamp mintedAt metadata =>
      obtain ⟨answers, parts⟩ := mint_own primitives first second batchId eventCids firstTimestamp
        lastTimestamp mintedAt metadata _ rfl same
      refine ⟨?_, parts⟩
      simp only [apply]
      rw [answers]
    | activate tokenId => exact answered tokenId _ _ same
    | spend tokenId => exact answered tokenId _ _ same
    | burn tokenId reason => exact answered tokenId _ _ same
    | revoke tokenId reason => exact answered tokenId _ _ same

/-! ### Sequences of operations -/

/-- What a sequence of operations does to the tokens, each by itself. -/
structure TokensApart (ledger : TokenLedger Score) (ops : List TokenOp) : Prop where
  /-- A token is left as the operations on it alone leave it. -/
  alone : ∀ id, (run primitives ledger ops).tokens.lookup id =
    (run primitives ledger (naming (TokenOp.named primitives) id ops)).tokens.lookup id
  /-- The operations on a token are answered as they are alone. -/
  answered : ∀ id, answers (apply primitives) (TokenOp.named primitives) id ledger ops =
    transcript (apply primitives) ledger (naming (TokenOp.named primitives) id ops)
  /-- Where the operations on each token come in the same order, the ledger left is the same. -/
  left : ∀ others, (∀ id, naming (TokenOp.named primitives) id others =
      naming (TokenOp.named primitives) id ops) →
    run primitives ledger others = run primitives ledger ops
  /-- And each operation has the answer it had, in the order of those on its token. -/
  told : ∀ others, (∀ id, naming (TokenOp.named primitives) id others =
      naming (TokenOp.named primitives) id ops) →
    (∀ id, answers (apply primitives) (TokenOp.named primitives) id ledger others =
      answers (apply primitives) (TokenOp.named primitives) id ledger ops) ∧
    (transcript (apply primitives) ledger others).Perm (transcript (apply primitives) ledger ops)

/-- From any ledger, the operations on a token do to it and answer what they would if they were the
only ones; in whatever way the operations on different tokens are interleaved, the ledger left is
one and the same. -/
theorem tokens_apart (ledger : TokenLedger Score) (ops : List TokenOp) :
    TokensApart primitives ledger ops where
  alone id := ((apply_isLocal primitives).alone id ops ledger ledger rfl).1
  answered id := ((apply_isLocal primitives).alone id ops ledger ledger rfl).2
  left others same := by
    obtain ⟨parts, -, -⟩ := (apply_isLocal primitives).reordered ledger others ops same
    have tokens : (run primitives ledger others).tokens = (run primitives ledger ops).tokens :=
      OrderedMap.eq_of_lookup _ _ parts
    exact congrArg TokenLedger.mk tokens
  told others same := ((apply_isLocal primitives).reordered ledger others ops same).2

end TokenLedger

end Hammurabi
