/-
This file proves what holds of the token ledger after every sequence of operations.

An operation refuses and changes nothing, or mints a token under an id that was free,
or moves the one token it names along an edge of the lifecycle. Everything else is
read off that one case analysis: a token keeps all but its status, its statuses are a
path of the lifecycle, and the tokens held are the mints that succeeded.
-/

import Mathlib.Data.List.Chain
import Hammurabi.Tokens
import Hammurabi.Library.Runs

namespace Hammurabi

open Json Runs

/-! ### The lifecycle -/

/-- The edges of the lifecycle. -/
inductive TokenStatus.Next : TokenStatus → TokenStatus → Prop where
  | activate : Next .minted .active
  | spend : Next .active .spent
  | burn {status : TokenStatus} (circulating : status = .minted ∨ status = .active) :
      Next status .burned
  | revoke {status : TokenStatus} (unrevoked : status ≠ .revoked) : Next status .revoked

/-- How far along the lifecycle a status is. -/
def TokenStatus.stage : TokenStatus → Nat
  | .minted => 0
  | .active => 1
  | .spent | .burned => 2
  | .revoked => 3

/-- The lifecycle only goes forward. -/
theorem TokenStatus.Next.stage_lt {first second : TokenStatus} (next : first.Next second) :
    first.stage < second.stage := by
  cases next with
  | activate => decide
  | spend => decide
  | burn circulating =>
    rcases circulating with rfl | rfl
    · decide
    · decide
  | revoke unrevoked =>
    cases first with
    | minted => decide
    | active => decide
    | spent => decide
    | burned => decide
    | revoked => exact absurd rfl unrevoked

/-! ### Operations -/

/-- An operation on the ledger, with its arguments. -/
inductive TokenOp where
  | mint (batchId : Int64) (eventCids : List String)
      (firstTimestamp lastTimestamp mintedAt : String) (metadata : Value)
  | activate (tokenId : String)
  | spend (tokenId : String)
  | burn (tokenId reason : String)
  | revoke (tokenId reason : String)

def TokenOp.isMint : TokenOp → Bool
  | .mint .. => true
  | _ => false

/-- The operation spends the token of this id. -/
def TokenOp.spends (id : String) : TokenOp → Bool
  | .spend tokenId => tokenId == id
  | _ => false

section Runs

variable {Score : Type} (primitives : TokenPrimitives Score)

/-- The id of the token an operation names; a mint names the one it derives. -/
def TokenOp.named : TokenOp → String
  | .mint batchId eventCids _ _ _ _ =>
    deriveTokenId primitives batchId (chainedRoot primitives eventCids)
  | .activate tokenId => tokenId
  | .spend tokenId => tokenId
  | .burn tokenId _ => tokenId
  | .revoke tokenId _ => tokenId

namespace TokenLedger

/-- What an operation answers, and the ledger it leaves. -/
def apply (ledger : TokenLedger Score) :
    TokenOp → CryptoResult (Option (GoodToken Score)) × TokenLedger Score
  | .mint batchId eventCids firstTimestamp lastTimestamp mintedAt metadata =>
    let (outcome, after) :=
      ledger.mint primitives batchId eventCids firstTimestamp lastTimestamp mintedAt metadata
    (outcome.map some, after)
  | .activate tokenId =>
    let (outcome, after) := ledger.activate tokenId
    (outcome.map fun _ => none, after)
  | .spend tokenId =>
    let (outcome, after) := ledger.spend tokenId
    (outcome.map fun _ => none, after)
  | .burn tokenId reason =>
    let (outcome, after) := ledger.burn tokenId reason
    (outcome.map fun _ => none, after)
  | .revoke tokenId reason =>
    let (outcome, after) := ledger.revoke tokenId reason
    (outcome.map fun _ => none, after)

/-- The ledger after a sequence of operations. -/
def run (ledger : TokenLedger Score) (ops : List TokenOp) : TokenLedger Score :=
  ops.foldl (fun before op => (before.apply primitives op).2) ledger

/-- How many operations of a kind succeed along a sequence. -/
def succeeded (kind : TokenOp → Bool) : TokenLedger Score → List TokenOp → Nat
  | _, [] => 0
  | ledger, op :: ops =>
    (if kind op && (ledger.apply primitives op).1.isOk then 1 else 0) +
      succeeded kind (ledger.apply primitives op).2 ops

/-- The status of a token, if it is held. -/
def statusOf (id : String) (ledger : TokenLedger Score) : Option TokenStatus :=
  (ledger.tokens.lookup id).map GoodToken.status

/-- The statuses a token goes through along a sequence of operations, each listed when it
begins. -/
def statusHistory (id : String) : TokenLedger Score → List TokenOp → List TokenStatus
  | ledger, [] => (ledger.statusOf id).toList
  | ledger, op :: ops =>
    let after := (ledger.apply primitives op).2
    if after.statusOf id = ledger.statusOf id then statusHistory id after ops
    else (ledger.statusOf id).toList ++ statusHistory id after ops

/-- The ledger with the status of one token changed. -/
def withStatus (ledger : TokenLedger Score) (id : String) (status : TokenStatus) :
    TokenLedger Score :=
  ⟨ledger.tokens.adjust id fun token => { token with status := status }⟩

/-- The ledger holds a token as it was given, its status apart. -/
def Keeps (id : String) (token : GoodToken Score) (ledger : TokenLedger Score) : Prop :=
  ∃ status, ledger.tokens.lookup id = some { token with status := status }

/-! ### What one operation does -/

variable (ledger : TokenLedger Score)

/-- A transition along the edges of the lifecycle, as an operation's answer. -/
theorem transition_next (tokenId : String) (allowedFrom : List TokenStatus)
    (target : TokenStatus) (edges : ∀ status ∈ allowedFrom, status.Next target) :
    let moved := ledger.transition tokenId allowedFrom target
    let answer : CryptoResult (Option (GoodToken Score)) × TokenLedger Score :=
      (moved.1.map fun _ => none, moved.2)
    (∃ error, answer = (.error error, ledger)) ∨
      ∃ token, ledger.tokens.lookup tokenId = some token ∧ token.status.Next target ∧
        answer = (.ok none, ledger.withStatus tokenId target) := by
  intro moved answer
  rcases ledger.transition_cases tokenId allowedFrom target with
    ⟨error, refused⟩ | ⟨token, held, allowed, done⟩
  · refine .inl ⟨error, ?_⟩
    simp only [answer, moved, refused]
    rfl
  · refine .inr ⟨token, held, edges _ allowed, ?_⟩
    simp only [answer, moved, done]
    rfl

/-- An operation refuses and changes nothing, mints a token under a free id, or moves the token
it names along an edge of the lifecycle. -/
theorem apply_cases (op : TokenOp) :
    (∃ error, ledger.apply primitives op = (.error error, ledger)) ∨
    (∃ token, op.isMint = true ∧ ledger.tokens.lookup (op.named primitives) = none ∧
      ledger.apply primitives op =
        (.ok (some token), ⟨ledger.tokens.insert (op.named primitives) token⟩) ∧
      token.tokenId = op.named primitives ∧
      op.named primitives = deriveTokenId primitives token.batchId token.chainedRoot ∧
      token.status = .minted) ∨
    (∃ token target, op.isMint = false ∧
      ledger.tokens.lookup (op.named primitives) = some token ∧ token.status.Next target ∧
      (op.spends (op.named primitives) = true → target = .spent) ∧
      ledger.apply primitives op =
        (.ok none, ledger.withStatus (op.named primitives) target)) := by
  cases op with
  | mint batchId eventCids firstTimestamp lastTimestamp mintedAt metadata =>
    rcases ledger.mint_cases primitives batchId eventCids firstTimestamp lastTimestamp mintedAt
      metadata with ⟨-, refused⟩ | ⟨free, token, done, id, batch, root, -, status⟩
    · left
      simp only [apply, refused]
      exact ⟨_, rfl⟩
    · refine .inr (.inl ⟨token, rfl, free, ?_, id, ?_, status⟩)
      · simp only [apply, done]
        rfl
      · rw [batch, root]
        rfl
  | activate tokenId =>
    rcases ledger.transition_next tokenId [.minted] .active
      (fun status member => List.mem_singleton.mp member ▸ .activate) with
      refused | ⟨token, held, next, done⟩
    · exact .inl refused
    · exact .inr (.inr ⟨token, .active, rfl, held, next, nofun, done⟩)
  | spend tokenId =>
    rcases ledger.transition_next tokenId [.active] .spent
      (fun status member => List.mem_singleton.mp member ▸ .spend) with
      refused | ⟨token, held, next, done⟩
    · exact .inl refused
    · exact .inr (.inr ⟨token, .spent, rfl, held, next, fun _ => rfl, done⟩)
  | burn tokenId reason =>
    rcases ledger.transition_next tokenId [.minted, .active] .burned
      (fun status member => .burn (by simpa using member)) with
      refused | ⟨token, held, next, done⟩
    · exact .inl refused
    · exact .inr (.inr ⟨token, .burned, rfl, held, next, nofun, done⟩)
  | revoke tokenId reason =>
    rcases ledger.transition_next tokenId [.minted, .active, .spent, .burned] .revoked
      (fun status member => .revoke (by rintro rfl; simp at member)) with
      refused | ⟨token, held, next, done⟩
    · exact .inl refused
    · exact .inr (.inr ⟨token, .revoked, rfl, held, next, nofun, done⟩)

/-! ### What is looked up after an operation -/

theorem lookup_withStatus (id : String) (status : TokenStatus) (key : String) :
    (ledger.withStatus id status).tokens.lookup key =
      if key = id then (ledger.tokens.lookup key).map fun token => { token with status := status }
      else ledger.tokens.lookup key :=
  OrderedMap.lookup_adjust ..

theorem statusOf_withStatus (id : String) (status : TokenStatus) (token : GoodToken Score)
    (held : ledger.tokens.lookup id = some token) :
    (ledger.withStatus id status).statusOf id = some status := by
  rw [statusOf, lookup_withStatus, if_pos rfl, held]
  rfl

/-- An operation changes at most the token it names. -/
theorem apply_frame (op : TokenOp) (id : String) (other : id ≠ op.named primitives) :
    (ledger.apply primitives op).2.tokens.lookup id = ledger.tokens.lookup id := by
  rcases ledger.apply_cases primitives op with
    ⟨error, done⟩ | ⟨token, -, -, done, -⟩ | ⟨token, target, -, -, -, -, done⟩
  · rw [done]
  · rw [done]
    exact (OrderedMap.lookup_insert ..).trans (if_neg other)
  · rw [done]
    exact (ledger.lookup_withStatus ..).trans (if_neg other)

/-- An operation that refuses changes nothing. -/
theorem apply_refused (op : TokenOp) (error : CryptoError)
    (refused : (ledger.apply primitives op).1 = .error error) :
    (ledger.apply primitives op).2 = ledger := by
  rcases ledger.apply_cases primitives op with
    ⟨_, done⟩ | ⟨token, -, -, done, -⟩ | ⟨token, target, -, -, -, -, done⟩
  · rw [done]
  · rw [done] at refused
    cases refused
  · rw [done] at refused
    cases refused

/-- A token that is held stays held, with all but its status as it was. -/
theorem apply_keeps (op : TokenOp) (id : String) (token : GoodToken Score)
    (held : ledger.tokens.lookup id = some token) :
    (ledger.apply primitives op).2.Keeps id token := by
  by_cases named : id = op.named primitives
  · subst named
    rcases ledger.apply_cases primitives op with
      ⟨error, done⟩ | ⟨other, -, free, -⟩ | ⟨other, target, -, -, -, -, done⟩
    · rw [done]
      exact ⟨token.status, held⟩
    · rw [free] at held
      cases held
    · rw [done]
      refine ⟨target, ?_⟩
      change (ledger.withStatus (op.named primitives) target).tokens.lookup _ = _
      rw [lookup_withStatus, if_pos rfl, held]
      rfl
  · exact ⟨token.status, (ledger.apply_frame primitives op id named).trans held⟩

/-- The status of a token stays, begins as minted, or moves along an edge of the lifecycle. -/
theorem statusOf_apply (op : TokenOp) (id : String) :
    (ledger.apply primitives op).2.statusOf id = ledger.statusOf id ∨
    (ledger.statusOf id = none ∧
      (ledger.apply primitives op).2.statusOf id = some .minted) ∨
    ∃ first second, ledger.statusOf id = some first ∧
      (ledger.apply primitives op).2.statusOf id = some second ∧ first.Next second := by
  by_cases named : id = op.named primitives
  · subst named
    rcases ledger.apply_cases primitives op with
      ⟨error, done⟩ | ⟨token, -, free, done, -, -, minted⟩ | ⟨token, target, -, held, next, -, done⟩
    · rw [done]
      exact .inl rfl
    · refine .inr (.inl ⟨by rw [statusOf, free]; rfl, ?_⟩)
      rw [done, statusOf, OrderedMap.lookup_insert, if_pos rfl, Option.map_some, minted]
    · refine .inr (.inr ⟨token.status, target, by rw [statusOf, held]; rfl, ?_, next⟩)
      rw [done]
      exact ledger.statusOf_withStatus _ target token held
  · left
    rw [statusOf, ledger.apply_frame primitives op id named]
    rfl

/-! ### Runs of operations -/

theorem run_runs (ops : List TokenOp) :
    Run (fun before op after => (before.apply primitives op).2 = after) ledger ops
      (ledger.run primitives ops) := by
  induction ops generalizing ledger with
  | nil => exact .stop ledger
  | cons op ops inductionHypothesis => exact .step rfl (inductionHypothesis _)

theorem run_append (front back : List TokenOp) :
    ledger.run primitives (front ++ back) = (ledger.run primitives front).run primitives back :=
  List.foldl_append

/-- Each key is the id of its token, derived from the token's own batch and root. -/
def Identified (ledger : TokenLedger Score) : Prop :=
  ∀ id token, ledger.tokens.lookup id = some token →
    token.tokenId = id ∧ id = deriveTokenId primitives token.batchId token.chainedRoot

theorem identified_new : Identified primitives (new : TokenLedger Score) := by
  intro id token held
  cases held

theorem identified_apply (op : TokenOp) (identified : Identified primitives ledger) :
    Identified primitives (ledger.apply primitives op).2 := by
  intro id token held
  rcases ledger.apply_cases primitives op with
    ⟨error, done⟩ | ⟨minted, -, -, done, own, derived, -⟩ | ⟨other, target, -, -, -, -, done⟩
  · rw [done] at held
    exact identified id token held
  · rw [done, OrderedMap.lookup_insert] at held
    split at held
    · rename_i named
      obtain rfl := Option.some.inj held
      rw [named]
      exact ⟨own, derived⟩
    · exact identified id token held
  · rw [done] at held
    change (ledger.withStatus _ target).tokens.lookup id = some token at held
    rw [lookup_withStatus] at held
    split at held
    · obtain ⟨before, found, rfl⟩ := Option.map_eq_some_iff.mp held
      exact identified id before found
    · exact identified id token held

theorem identified_run (ops : List TokenOp) : Identified primitives (run primitives new ops) :=
  (run_runs primitives new ops).kept
    (fun before op _ applied identified =>
      applied ▸ before.identified_apply primitives op identified)
    (identified_new primitives)

/-- A token that is held stays held over a run, with all but its status as it was. -/
theorem run_keeps (ops : List TokenOp) (id : String) (token : GoodToken Score)
    (held : ledger.tokens.lookup id = some token) :
    (ledger.run primitives ops).Keeps id token := by
  refine (ledger.run_runs primitives ops).kept ?_ ⟨token.status, held⟩
  rintro before op _ rfl ⟨status, kept⟩
  exact before.apply_keeps primitives op id { token with status := status } kept

/-- A token that is held after a run was held before it or is a mint of it. -/
theorem exists_mint_of_held (ops : List TokenOp) (id : String) (token : GoodToken Score)
    (held : (ledger.run primitives ops).tokens.lookup id = some token)
    (absent : ledger.tokens.lookup id = none) :
    ∃ earlier op later minted, ops = earlier ++ op :: later ∧ op.isMint = true ∧
      op.named primitives = id ∧
      ((ledger.run primitives earlier).apply primitives op).1 = .ok (some minted) ∧
      minted.status = .minted ∧ token = { minted with status := token.status } := by
  induction ops generalizing ledger with
  | nil =>
    have none := held.symm.trans absent
    cases none
  | cons op ops inductionHypothesis =>
    cases next : (ledger.apply primitives op).2.tokens.lookup id with
    | none =>
      obtain ⟨earlier, mint, later, minted, rfl, rest⟩ := inductionHypothesis _ held next
      exact ⟨op :: earlier, mint, later, minted, rfl, rest⟩
    | some first =>
      -- This operation is the one that begins the token.
      have named : id = op.named primitives := by
        by_contra other
        rw [ledger.apply_frame primitives op id other, absent] at next
        cases next
      subst named
      rcases ledger.apply_cases primitives op with
        ⟨error, done⟩ | ⟨minted, mints, -, done, -, -, fresh⟩ | ⟨other, target, -, found, -⟩
      · rw [done, absent] at next
        cases next
      · obtain ⟨status, kept⟩ := run_keeps primitives _ ops _ first next
        rw [done, OrderedMap.lookup_insert, if_pos rfl] at next
        obtain rfl := Option.some.inj next
        obtain rfl := Option.some.inj (held.symm.trans kept)
        exact ⟨[], op, ops, minted, rfl, mints, rfl, congrArg Prod.fst done, fresh, rfl⟩
      · rw [absent] at found
        cases found

/-! ### The history of a token -/

theorem run_cons (op : TokenOp) (ops : List TokenOp) :
    ledger.run primitives (op :: ops) = (ledger.apply primitives op).2.run primitives ops := rfl

/-- The history begins with the status the token has, if it is held. -/
theorem exists_statusHistory_eq_cons (ops : List TokenOp) (id : String) (status : TokenStatus)
    (held : ledger.statusOf id = some status) :
    ∃ rest, statusHistory primitives id ledger ops = status :: rest := by
  induction ops generalizing ledger with
  | nil => exact ⟨[], by rw [statusHistory, held]; rfl⟩
  | cons op ops inductionHypothesis =>
    rw [statusHistory]
    by_cases same : (ledger.apply primitives op).2.statusOf id = ledger.statusOf id
    · rw [if_pos same]
      exact inductionHypothesis _ (same.trans held)
    · rw [if_neg same, held]
      exact ⟨_, rfl⟩

/-- The history of a token that is not held yet begins as minted. -/
theorem statusHistory_head (ops : List TokenOp) (id : String)
    (absent : ledger.statusOf id = none) :
    ∀ status ∈ (statusHistory primitives id ledger ops).head?, status = .minted := by
  induction ops generalizing ledger with
  | nil =>
    rw [statusHistory, absent]
    exact fun status member => nomatch member
  | cons op ops inductionHypothesis =>
    rw [statusHistory]
    rcases ledger.statusOf_apply primitives op id with same | ⟨-, begun⟩ | ⟨first, -, held, -⟩
    · rw [if_pos same]
      exact inductionHypothesis _ (same.trans absent)
    · obtain ⟨rest, history⟩ := exists_statusHistory_eq_cons primitives _ ops id _ begun
      rw [if_neg (by rw [begun, absent]; exact nofun), absent, history]
      exact fun status member => (Option.some.inj member).symm
    · rw [absent] at held
      cases held

/-- The history is a path of the lifecycle. -/
theorem isChain_statusHistory (ops : List TokenOp) (id : String) :
    (statusHistory primitives id ledger ops).IsChain TokenStatus.Next := by
  induction ops generalizing ledger with
  | nil =>
    rw [statusHistory]
    cases ledger.statusOf id with
    | none => exact .nil
    | some status => exact .singleton status
  | cons op ops inductionHypothesis =>
    rw [statusHistory]
    by_cases same : (ledger.apply primitives op).2.statusOf id = ledger.statusOf id
    · rw [if_pos same]
      exact inductionHypothesis _
    · rw [if_neg same]
      rcases ledger.statusOf_apply primitives op id with
        unchanged | ⟨absent, -⟩ | ⟨first, second, held, moved, next⟩
      · exact absurd unchanged same
      · rw [absent]
        exact inductionHypothesis _
      · have path := inductionHypothesis (ledger.apply primitives op).2
        obtain ⟨rest, history⟩ := exists_statusHistory_eq_cons primitives _ ops id second moved
        rw [history] at path
        rw [held, history]
        exact .cons_cons next path

/-- The history ends with the status the token has after the run. -/
theorem getLast?_statusHistory (ops : List TokenOp) (id : String) :
    (statusHistory primitives id ledger ops).getLast? =
      (ledger.run primitives ops).statusOf id := by
  induction ops generalizing ledger with
  | nil =>
    rw [statusHistory]
    change _ = ledger.statusOf id
    cases ledger.statusOf id with
    | none => rfl
    | some status => rfl
  | cons op ops inductionHypothesis =>
    rw [statusHistory, run_cons]
    by_cases same : (ledger.apply primitives op).2.statusOf id = ledger.statusOf id
    · rw [if_pos same, inductionHypothesis]
    · have held : ∃ status, (ledger.apply primitives op).2.statusOf id = some status := by
        rcases ledger.statusOf_apply primitives op id with
          unchanged | ⟨-, begun⟩ | ⟨-, second, -, moved, -⟩
        · exact absurd unchanged same
        · exact ⟨_, begun⟩
        · exact ⟨_, moved⟩
      obtain ⟨status, held⟩ := held
      obtain ⟨rest, history⟩ := exists_statusHistory_eq_cons primitives _ ops id status held
      rw [if_neg same, ← inductionHypothesis, history,
        List.getLast?_append_of_ne_nil _ (List.cons_ne_nil _ _)]

/-! ### Spending once -/

/-- A spend that succeeds takes the token from active to spent. -/
theorem spends_cases (op : TokenOp) (id : String) (spends : op.spends id = true)
    (succeeds : (ledger.apply primitives op).1.isOk = true) :
    ledger.statusOf id = some .active ∧
      (ledger.apply primitives op).2.statusOf id = some .spent := by
  cases op with
  | spend tokenId =>
    obtain rfl := beq_iff_eq.mp spends
    rcases ledger.transition_cases tokenId [.active] .spent with
      ⟨error, refused⟩ | ⟨token, held, allowed, done⟩
    · simp only [apply, TokenLedger.spend, refused] at succeeds
      cases succeeds
    · constructor
      · rw [statusOf, held, Option.map_some, List.mem_singleton.mp allowed]
      · simp only [apply, TokenLedger.spend, done]
        exact ledger.statusOf_withStatus tokenId .spent token held
  | mint => cases spends
  | activate => cases spends
  | burn => cases spends
  | revoke => cases spends

/-- A token past the active status is not spent again. -/
theorem succeeded_spends_eq_zero (ops : List TokenOp) (id : String) (status : TokenStatus)
    (held : ledger.statusOf id = some status) (past : 2 ≤ status.stage) :
    succeeded primitives (TokenOp.spends id) ledger ops = 0 := by
  induction ops generalizing ledger status with
  | nil => rfl
  | cons op ops inductionHypothesis =>
    have later : ∃ next, (ledger.apply primitives op).2.statusOf id = some next ∧
        2 ≤ next.stage := by
      rcases ledger.statusOf_apply primitives op id with
        same | ⟨absent, -⟩ | ⟨first, second, before, moved, next⟩
      · exact ⟨status, same.trans held, past⟩
      · rw [absent] at held
        cases held
      · obtain rfl := Option.some.inj (before.symm.trans held)
        exact ⟨second, moved, past.trans next.stage_lt.le⟩
    obtain ⟨next, moved, stillPast⟩ := later
    rw [succeeded, inductionHypothesis _ next moved stillPast, if_neg]
    intro spent
    rw [Bool.and_eq_true] at spent
    have active := (ledger.spends_cases primitives op id spent.1 spent.2).1
    obtain rfl := Option.some.inj (held.symm.trans active)
    exact absurd past (by decide)

/-- A token is spent at most once. -/
theorem succeeded_spends_le_one (ops : List TokenOp) (id : String) :
    succeeded primitives (TokenOp.spends id) ledger ops ≤ 1 := by
  induction ops generalizing ledger with
  | nil => exact Nat.zero_le 1
  | cons op ops inductionHypothesis =>
    rw [succeeded]
    split
    · rename_i spent
      rw [Bool.and_eq_true] at spent
      have done := (ledger.spends_cases primitives op id spent.1 spent.2).2
      rw [succeeded_spends_eq_zero primitives _ ops id .spent done (by decide)]
    · rw [Nat.zero_add]
      exact inductionHypothesis _

/-! ### Accounting -/

/-- The tokens held are those held before and the mints that succeeded. -/
theorem total_run (ops : List TokenOp) :
    (ledger.run primitives ops).total =
      ledger.total + succeeded primitives TokenOp.isMint ledger ops := by
  induction ops generalizing ledger with
  | nil => rfl
  | cons op ops inductionHypothesis =>
    rw [run_cons, inductionHypothesis, succeeded, ← Nat.add_assoc]
    congr 1
    rcases ledger.apply_cases primitives op with
      ⟨error, done⟩ | ⟨token, mints, free, done, -⟩ | ⟨token, target, moves, -, -, -, done⟩
    · rw [done]
      cases op.isMint <;> rfl
    · rw [done, mints]
      exact OrderedMap.size_insert_of_absent _ _ _ free
    · rw [done, moves]
      exact OrderedMap.size_adjust ..

/-! ### Every run of the ledger -/

/-- Every edge of the lifecycle is taken by an operation that names the token. -/
theorem exists_op_of_next (id : String) (token : GoodToken Score) (target : TokenStatus)
    (held : ledger.tokens.lookup id = some token) (next : token.status.Next target) :
    ∃ op, op.isMint = false ∧ op.named primitives = id ∧
      ledger.apply primitives op = (.ok none, ledger.withStatus id target) := by
  have answer : ∀ allowedFrom, token.status ∈ allowedFrom →
      ledger.transition id allowedFrom target = (.ok (), ledger.withStatus id target) :=
    fun allowedFrom allowed => ledger.transition_of_allowed id allowedFrom target token held allowed
  generalize token.status = status at next answer
  cases next with
  | activate =>
    refine ⟨.activate id, rfl, rfl, ?_⟩
    simp only [apply, TokenLedger.activate, answer [.minted] (by decide)]
    rfl
  | spend =>
    refine ⟨.spend id, rfl, rfl, ?_⟩
    simp only [apply, TokenLedger.spend, answer [.active] (by decide)]
    rfl
  | burn circulating =>
    refine ⟨.burn id "", rfl, rfl, ?_⟩
    simp only [apply, TokenLedger.burn, answer [.minted, .active] (by simpa using circulating)]
    rfl
  | revoke unrevoked =>
    refine ⟨.revoke id "", rfl, rfl, ?_⟩
    have allowed : status ∈ [TokenStatus.minted, .active, .spent, .burned] := by
      cases status <;> simp at unrevoked ⊢
    simp only [apply, TokenLedger.revoke, answer _ allowed]
    rfl

/-- What holds of a new ledger after a sequence of operations. -/
structure SoundRun (ops : List TokenOp) : Prop where
  /-- Each key is the id of its token, derived from the token's own batch and root. -/
  identified : Identified primitives (run primitives new ops)
  /-- A token that is held was minted under its id, and is as it was minted, its status apart. -/
  minted : ∀ id token, (run primitives new ops).tokens.lookup id = some token →
    ∃ earlier op later minted, ops = earlier ++ op :: later ∧ op.isMint = true ∧
      op.named primitives = id ∧
      ((run primitives new earlier).apply primitives op).1 = .ok (some minted) ∧
      minted.status = .minted ∧ token = { minted with status := token.status }
  /-- It stays so over all that follows. -/
  kept : ∀ id token, (run primitives new ops).tokens.lookup id = some token →
    ∀ more, (run primitives new (ops ++ more)).Keeps id token
  /-- The statuses of a token, up to the one it has, are a path of the lifecycle from minted. -/
  path : ∀ id, (statusHistory primitives id new ops).IsChain TokenStatus.Next
  begins : ∀ id, ∀ status ∈ (statusHistory primitives id new ops).head?, status = .minted
  ends : ∀ id, (statusHistory primitives id new ops).getLast? =
    (run primitives new ops).statusOf id
  /-- Every edge of the lifecycle is there to be taken, to the revoked status among them. -/
  available : ∀ id token target, (run primitives new ops).tokens.lookup id = some token →
    token.status.Next target → ∃ op, op.isMint = false ∧ op.named primitives = id ∧
      (run primitives new ops).apply primitives op =
        (.ok none, (run primitives new ops).withStatus id target)
  spentOnce : ∀ id, succeeded primitives (TokenOp.spends id) new ops ≤ 1
  /-- One more operation changes at most the token it names, and nothing if it refuses. -/
  frame : ∀ op id, id ≠ op.named primitives →
    ((run primitives new ops).apply primitives op).2.tokens.lookup id =
      (run primitives new ops).tokens.lookup id
  refused : ∀ op error, ((run primitives new ops).apply primitives op).1 = .error error →
    ((run primitives new ops).apply primitives op).2 = run primitives new ops
  /-- The tokens in the five statuses are all the tokens, and as many as the mints that
  succeeded. -/
  counted : (run primitives new ops).countByStatus .minted +
    (run primitives new ops).countByStatus .active +
    (run primitives new ops).countByStatus .spent +
    (run primitives new ops).countByStatus .burned +
    (run primitives new ops).countByStatus .revoked = (run primitives new ops).total
  total : (run primitives new ops).total = succeeded primitives TokenOp.isMint new ops

/-- Whatever the operations and their order, the ledger keeps the lifecycle of every token. -/
theorem run_sound (ops : List TokenOp) : SoundRun primitives ops where
  identified := identified_run primitives ops
  minted id token held := exists_mint_of_held primitives new ops id token held rfl
  kept id token held more := by
    rw [run_append]
    exact run_keeps primitives _ more id token held
  path id := isChain_statusHistory primitives new ops id
  begins id := statusHistory_head primitives new ops id rfl
  ends id := getLast?_statusHistory primitives new ops id
  available id token target held next := exists_op_of_next primitives _ id token target held next
  spentOnce id := succeeded_spends_le_one primitives new ops id
  frame op id other := apply_frame primitives _ op id other
  refused op error answered := apply_refused primitives _ op error answered
  counted := countByStatus_sum _
  total := by
    rw [total_run]
    exact Nat.zero_add _

end TokenLedger

end Runs

end Hammurabi
