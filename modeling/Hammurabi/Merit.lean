/-
This file lists the circulating tokens by merit.

The ledger hands its tokens on in the order of their ids, a stable sort puts the best
first, and the list is cut at a limit. Each ranking is then looked up in the ledger
again under its token's id, which finds that token, since every token is held under its
own id. The top rankings sort the tokens so listed a second time, to no effect.

The scores are compared as elements of a linear order: the merit of a number of events
is never a NaN.
-/

import Hammurabi.Lifecycle
import Hammurabi.Library.Ranking

namespace Hammurabi

open Runs Ranking

/-- A merit ranking entry for a token. -/
structure MeritRanking (Score : Type) where
  tokenId : String
  meritScore : Score
  eventCount : Int64
  chainedRoot : String
  rank : Nat

section Merit

variable {Score : Type}

namespace TokenLedger

variable (ledger : TokenLedger Score)

/-! ### The active set -/

/-- The minted/active tokens, in the order of the ledger. -/
def activeTokens : List (GoodToken Score) :=
  ledger.tokens.values.filter fun token => token.status = .minted ∨ token.status = .active

theorem mem_activeTokens (token : GoodToken Score) :
    token ∈ ledger.activeTokens ↔
      (∃ id, ledger.tokens.lookup id = some token) ∧
        (token.status = .minted ∨ token.status = .active) := by
  rw [activeTokens, List.mem_filter, OrderedMap.mem_values, decide_eq_true_eq]

/-- The active set is the minted tokens and the active ones. -/
theorem length_activeTokens :
    ledger.activeTokens.length = ledger.countByStatus .minted + ledger.countByStatus .active := by
  unfold activeTokens countByStatus
  induction ledger.tokens.values with
  | nil => rfl
  | cons token rest inductionHypothesis =>
    simp only [List.filter_cons, List.countP_cons, decide_eq_true_eq]
    cases token.status <;>
      simp only [reduceCtorEq, or_true, true_or, or_self, if_true, if_false, List.length_cons] <;>
      omega

/-- Every token is held under its own id. -/
def OwnIds : Prop := ∀ id token, ledger.tokens.lookup id = some token → token.tokenId = id

variable {ledger}

/-- The active set comes in the order of its ids. -/
theorem activeTokens_inOrder (own : ledger.OwnIds) :
    ledger.activeTokens.Pairwise fun first second => first.tokenId < second.tokenId :=
  (ledger.tokens.pairwise_values GoodToken.tokenId own).filter _

theorem nodup_tokenIds (own : ledger.OwnIds) :
    (ledger.activeTokens.map GoodToken.tokenId).Nodup :=
  List.pairwise_map.mpr ((activeTokens_inOrder own).imp ne_of_lt)

/-- A token of the active set is what its own id looks up. -/
theorem lookup_of_mem_activeTokens (own : ledger.OwnIds) (token : GoodToken Score)
    (member : token ∈ ledger.activeTokens) : ledger.tokens.lookup token.tokenId = some token := by
  obtain ⟨⟨id, held⟩, -⟩ := (ledger.mem_activeTokens token).mp member
  rw [own id token held, held]

end TokenLedger

/-! ### Ranking -/

variable [LinearOrder Score]

/-- Rank tokens by merit score (descending), assigning 1-based ranks. -/
def rankByMerit (tokens : List (GoodToken Score)) : List (MeritRanking Score) :=
  let sorted := tokens.mergeSort fun a b => (compare b.meritScore a.meritScore).isLE
  sorted.mapIdx fun i token => {
    tokenId := token.tokenId
    meritScore := token.meritScore
    eventCount := token.eventCount
    chainedRoot := token.chainedRoot
    rank := i + 1 }

theorem rankByMerit_eq (tokens : List (GoodToken Score)) :
    rankByMerit tokens =
      (bestFirst GoodToken.meritScore tokens).mapIdx fun i token =>
        ⟨token.tokenId, token.meritScore, token.eventCount, token.chainedRoot, i + 1⟩ := rfl

/-- The rankings name the tokens, best first. -/
theorem tokenIds_rankByMerit (tokens : List (GoodToken Score)) :
    (rankByMerit tokens).map MeritRanking.tokenId =
      (bestFirst GoodToken.meritScore tokens).map GoodToken.tokenId := by
  refine List.ext_getElem? fun place => ?_
  rw [rankByMerit_eq, List.getElem?_map, List.getElem?_mapIdx, List.getElem?_map, Option.map_map]
  rfl

/-- The largest number of a machine word. -/
def usizeMax : UInt64 := 0xFFFFFFFFFFFFFFFF

/-! ### The listings -/

namespace TokenLedger

variable (ledger : TokenLedger Score)

/-- List minted/active tokens, most-meritorious first, capped at `limit`. -/
def listActive (limit : UInt64) : List (GoodToken Score) :=
  let ranked := rankByMerit ledger.activeTokens
  (ranked.take limit.toNat).filterMap fun ranking => ledger.tokens.lookup ranking.tokenId

/-- The top `limit` tokens by merit (over the active set). -/
def topByMerit (limit : UInt64) : List (MeritRanking Score) :=
  let active := ledger.listActive usizeMax
  (rankByMerit active).take limit.toNat

variable {ledger}

/-- The lookups find the tokens that were ranked: the listing is the first of the active set,
best first. -/
theorem listActive_eq (own : ledger.OwnIds) (limit : UInt64) :
    ledger.listActive limit =
      (bestFirst GoodToken.meritScore ledger.activeTokens).take limit.toNat := by
  have named : ledger.listActive limit =
      (((rankByMerit ledger.activeTokens).map MeritRanking.tokenId).take limit.toNat).filterMap
        ledger.tokens.lookup := by
    rw [← List.map_take, List.filterMap_map]
    rfl
  rw [named, tokenIds_rankByMerit, ← List.map_take, List.filterMap_map]
  have found : ∀ token ∈ (bestFirst GoodToken.meritScore ledger.activeTokens).take limit.toNat,
      ledger.tokens.lookup token.tokenId = some token := fun token member =>
    lookup_of_mem_activeTokens own token
      ((bestFirst_perm _ _).mem_iff.mp (List.mem_of_mem_take member))
  exact (List.filterMap_congr found).trans List.filterMap_some

/-- Sorting the listing again changes nothing, and no listing is longer than the one that is
sorted again. -/
theorem topByMerit_eq (own : ledger.OwnIds) (limit : UInt64) :
    ledger.topByMerit limit =
      (ledger.listActive limit).mapIdx fun i token =>
        ⟨token.tokenId, token.meritScore, token.eventCount, token.chainedRoot, i + 1⟩ := by
  have within : limit.toNat ≤ usizeMax.toNat := Nat.le_of_lt_succ limit.toNat_lt
  rw [topByMerit, rankByMerit_eq, listActive_eq own, listActive_eq own, bestFirst_take, take_mapIdx,
    List.take_take, Nat.min_eq_left within]

/-- A listing of the circulating tokens by merit: as many as there are up to the limit, all of
them held and in circulation, in the order of merit and then of the ids, none left out that has
a higher merit; and the rankings of the same tokens, numbered from one. -/
structure ListsByMerit (ledger : TokenLedger Score) (limit : UInt64) : Prop where
  length : (ledger.listActive limit).length =
    min limit.toNat (ledger.countByStatus .minted + ledger.countByStatus .active)
  distinct : ((ledger.listActive limit).map GoodToken.tokenId).Nodup
  held : ∀ token ∈ ledger.listActive limit,
    ledger.tokens.lookup token.tokenId = some token ∧
      (token.status = .minted ∨ token.status = .active)
  ordered : (ledger.listActive limit).Pairwise fun first second =>
    second.meritScore ≤ first.meritScore ∧
      (first.meritScore = second.meritScore → first.tokenId < second.tokenId)
  best : ∀ id omitted, ledger.tokens.lookup id = some omitted →
    (omitted.status = .minted ∨ omitted.status = .active) →
    omitted ∉ ledger.listActive limit →
    ∀ listed ∈ ledger.listActive limit, omitted.meritScore ≤ listed.meritScore
  ranked : ledger.topByMerit limit =
    (ledger.listActive limit).mapIdx fun i token =>
      ⟨token.tokenId, token.meritScore, token.eventCount, token.chainedRoot, i + 1⟩

theorem listsByMerit (own : ledger.OwnIds) (limit : UInt64) : ListsByMerit ledger limit where
  length := by
    rw [listActive_eq own, List.length_take, (bestFirst_perm _ _).length_eq, length_activeTokens]
  distinct := by
    rw [listActive_eq own]
    have ranked := ((bestFirst_perm GoodToken.meritScore _).map GoodToken.tokenId).nodup_iff.mpr
      (nodup_tokenIds own)
    exact ranked.sublist ((List.take_sublist _ _).map _)
  held token member := by
    rw [listActive_eq own] at member
    have active := (bestFirst_perm _ _).mem_iff.mp (List.mem_of_mem_take member)
    exact ⟨lookup_of_mem_activeTokens own token active,
      ((ledger.mem_activeTokens token).mp active).2⟩
  ordered := by
    rw [listActive_eq own]
    refine .sublist (List.take_sublist _ _) (.and (bestFirst_descending _ _) ?_)
    exact bestFirst_stable _ _ ((nodup_tokenIds own).of_map _) _ (activeTokens_inOrder own)
  best id omitted held active isOmitted listed isListed := by
    rw [listActive_eq own] at isOmitted isListed
    exact le_of_left_out _ ledger.activeTokens limit.toNat listed omitted isListed
      ((ledger.mem_activeTokens omitted).mpr ⟨⟨id, held⟩, active⟩) isOmitted
  ranked := topByMerit_eq own limit

/-- In every ledger that operations lead to, and for every limit, the listing by merit is the
true top of the active set, and the rankings name it. -/
theorem run_listsByMerit (primitives : TokenPrimitives Score) (ops : List TokenOp)
    (limit : UInt64) : ListsByMerit (run primitives new ops) limit :=
  listsByMerit (fun id token held => (identified_run primitives ops id token held).1) limit

end TokenLedger

end Merit

end Hammurabi
