/-
This file is about what comes of an execution that is handled alone.

It ends in one of five ways. The guard refuses it, with a line and with terms; the
receipt it presents is burned and its body does not extract, or is for another intent,
and it is answered at once; the vault refuses to mint, and says so; or the credential
is released and the envelope staged, with a line for each.
-/

import Hammurabi.System

namespace Hammurabi

open Json Unicode

/-- The receipt an execution presents, held for the intent of its header. -/
def Presents (state : HandoffState) (request : Request) (receipt : PaymentReceipt) : Prop :=
  ∃ receiptId, request.headerStr? receiptHeader = some receiptId ∧
    state.gate.receipts.lookup receiptId = some receipt ∧
    receipt.intentId = (request.headerStr? intentHeader).getD ""

/-- At most one receipt is presented. -/
theorem presents_unique (state : HandoffState) (request : Request) (first second : PaymentReceipt)
    (presents : Presents state request first) (other : Presents state request second) :
    first = second := by
  obtain ⟨receiptId, header, found, -⟩ := presents
  obtain ⟨otherId, header', found', -⟩ := other
  cases header.symm.trans header'
  exact Option.some.inj (found.symm.trans found')

section Executions

variable (framework : Framework) (primitives : Primitives)

/-- How an execution ends: with an answer, after lines of some kinds. The environment is that of
the mint. -/
inductive ExecutionEnds (env : Env) (state : HandoffState) (request : Request) :
    Response → List MeshEventKind → Prop
  | refused (unpresented : ¬ ∃ receipt, Presents state request receipt) :
    ExecutionEnds env state request
      ⟨402, .paymentRequired (.quote ((request.headerStr? intentHeader).getD ""))⟩
      [.restriction]
  | unread (receipt : PaymentReceipt) (presents : Presents state request receipt)
    (unread : framework.extractJson AgentIntent.fromJson request = none) :
    ExecutionEnds env state request (framework.refuse request) []
  | mismatched (receipt : PaymentReceipt) (presents : Presents state request receipt)
    (intent : AgentIntent)
    (extracted : framework.extractJson AgentIntent.fromJson request = some intent)
    (different : receipt.intentId ≠ intent.intentId) :
    ExecutionEnds env state request ⟨402, .error "payment_required"
      "receipt is bound to a different intent than the request body"⟩ []
  | unminted (receipt : PaymentReceipt) (presents : Presents state request receipt)
    (intent : AgentIntent)
    (extracted : framework.extractJson AgentIntent.fromJson request = some intent)
    (same : receipt.intentId = intent.intentId) (refusal : VaultError)
    (refuses : mint primitives intent.payload receipt env.now env.entropy = .error refusal) :
    ExecutionEnds env state request ⟨422, .error "mint_refused" refusal.toString⟩ [.info]
  | released (receipt : PaymentReceipt) (presents : Presents state request receipt)
    (intent : AgentIntent)
    (extracted : framework.extractJson AgentIntent.fromJson request = some intent)
    (same : receipt.intentId = intent.intentId) (credential : EphemeralCredential)
    (minted : mint primitives intent.payload receipt env.now env.entropy = .ok credential) :
    ExecutionEnds env state request
      ⟨200, .envelope (.package intent.payload credential receipt)⟩ [.credential, .settlement]

/-- Only a released credential is answered with an envelope, around the extracted intent. -/
theorem ends_released (env : Env) (state : HandoffState) (request : Request) (response : Response)
    (kinds : List MeshEventKind)
    (ends : ExecutionEnds framework primitives env state request response kinds)
    (envelope : OneShotEnvelope) (carried : response.envelope = some envelope) :
    ∃ receipt intent credential,
      framework.extractJson AgentIntent.fromJson request = some intent ∧
      envelope = .package intent.payload credential receipt := by
  cases ends with
  | released receipt presents intent extracted same credential minted =>
    exact ⟨receipt, intent, credential, extracted, (Option.some.inj carried).symm⟩
  | _ => cases carried

/-- A request handled up to an answer, with the kinds of its lines. -/
def Handled.Ends (handled : Handled) (response : Response) (kinds : List MeshEventKind) : Prop :=
  handled.phase = .answer response ∧ handled.lines.map MeshMessage.kind = kinds

variable (envs : Nat → Env)

theorem ends_answer (fuel k : Nat) (state : HandoffState) (response : Response) :
    (drive framework primitives envs fuel k state (.answer response)).Ends response [] := by
  rw [drive_answer]
  exact ⟨rfl, rfl⟩

/-- A step that pushes no line leaves the end as it is. -/
theorem ends_step (fuel k : Nat) (state : HandoffState) (phase : Phase) (response : Response)
    (kinds : List MeshEventKind) (waiting : 0 < phase.distance) (unspoken : phase.line = [])
    (rest : (drive framework primitives envs fuel (k + 1)
      (advance framework primitives (envs k) state phase).1
      (advance framework primitives (envs k) state phase).2).Ends response kinds) :
    (drive framework primitives envs (fuel + 1) k state phase).Ends response kinds := by
  rw [drive_succ framework primitives envs fuel k state phase waiting, unspoken]
  exact rest

/-- A line is posted in three steps, and then the request goes on. -/
theorem ends_narrate (fuel k : Nat) (state : HandoffState) (sender : String)
    (kind : MeshEventKind) (body : String) (after : Phase) (response : Response)
    (kinds : List MeshEventKind)
    (rest : ∀ state, (drive framework primitives envs fuel (k + 3) state after).Ends response
      kinds) :
    (drive framework primitives envs (fuel + 3) k state (.narrate sender kind body after)).Ends
      response (kind :: kinds) := by
  obtain ⟨answered, same⟩ := rest _
  exact ⟨answered, congrArg (kind :: ·) same⟩

/-- The mint of an extracted intent ends the execution. -/
theorem ends_mint (state held : HandoffState) (request : Request) (receipt : PaymentReceipt)
    (presents : Presents state request receipt) (intent : AgentIntent)
    (extracted : framework.extractJson AgentIntent.fromJson request = some intent)
    (same : receipt.intentId = intent.intentId) :
    ∃ response kinds, ExecutionEnds framework primitives (envs 2) state request response kinds ∧
      (drive framework primitives envs 14 2 held (.mint receipt intent)).Ends response kinds := by
  cases minted : mint primitives intent.payload receipt (envs 2).now (envs 2).entropy with
  | error refusal =>
    refine ⟨_, _, .unminted receipt presents intent extracted same refusal minted, ?_⟩
    refine ends_step framework primitives envs 13 2 held _ _ _ (Nat.zero_lt_succ 6) rfl ?_
    rw [advance, mintAndPackage, minted]
    exact ends_narrate framework primitives envs 10 3 held _ _ _ _ _ _ fun state =>
      ends_answer framework primitives envs 10 6 state _
  | ok credential =>
    refine ⟨_, _, .released receipt presents intent extracted same credential minted, ?_⟩
    refine ends_step framework primitives envs 13 2 held _ _ _ (Nat.zero_lt_succ 6) rfl ?_
    rw [advance, mintAndPackage, minted]
    exact ends_narrate framework primitives envs 10 3 held _ _ _ _ _ _ fun state =>
      ends_narrate framework primitives envs 7 6 state _ _ _ _ _ _ fun state =>
        ends_answer framework primitives envs 7 9 state _

/-- The extraction of the body, once the receipt is burned, and what follows end the execution. -/
theorem ends_execute (state held : HandoffState) (request : Request)
    (post : request.method = "POST") (receipt : PaymentReceipt)
    (presents : Presents state request receipt) :
    ∃ response kinds, ExecutionEnds framework primitives (envs 2) state request response kinds ∧
      (drive framework primitives envs 15 1 held (.execute request receipt)).Ends response
        kinds := by
  cases extracted : framework.extractJson AgentIntent.fromJson request with
  | none =>
    refine ⟨_, _, .unread receipt presents extracted, ?_⟩
    refine ends_step framework primitives envs 14 1 held _ _ _ (Nat.zero_lt_succ 7) rfl ?_
    rw [advance, execute, if_neg (not_not.mpr post), extracted]
    exact ends_answer framework primitives envs 14 2 _ _
  | some intent =>
    by_cases same : receipt.intentId = intent.intentId
    · obtain ⟨response, kinds, ends, rest⟩ := ends_mint framework primitives envs state held request
        receipt presents intent extracted same
      refine ⟨response, kinds, ends, ?_⟩
      refine ends_step framework primitives envs 14 1 held _ _ _ (Nat.zero_lt_succ 7) rfl ?_
      rw [advance, execute_of_extracted framework held request receipt intent post extracted same]
      exact rest
    · refine ⟨_, _, .mismatched receipt presents intent extracted same, ?_⟩
      refine ends_step framework primitives envs 14 1 held _ _ _ (Nat.zero_lt_succ 7) rfl ?_
      rw [advance, execute, if_neg (not_not.mpr post), extracted]
      dsimp only
      rw [if_pos same]
      exact ends_answer framework primitives envs 14 2 _ _

/-- Every execution ends in one of the five ways. -/
theorem guard_ends (state : HandoffState) (request : Request) (post : request.method = "POST") :
    ∃ response kinds, ExecutionEnds framework primitives (envs 2) state request response kinds ∧
      (drive framework primitives envs maxSteps 0 state (.guard request)).Ends response kinds := by
  rcases paymentGuard_cases state request with
    ⟨gate, body, -, comes⟩ | ⟨receiptId, receipt, header, found, named, comes⟩
  · refine ⟨_, _, .refused ?_,
      ends_step framework primitives envs 15 0 state _ _ _ (Nat.zero_lt_succ 8) rfl ?_⟩
    · rintro ⟨receipt, receiptId, header, found, named⟩
      rw [paymentGuard_of_held state request receiptId receipt header found named] at comes
      cases comes
    · rw [advance, comes]
      exact ends_narrate framework primitives envs 12 1 _ _ _ body _ _ _ fun state =>
        ends_answer framework primitives envs 12 4 state _
  · obtain ⟨response, kinds, ends, rest⟩ := ends_execute framework primitives envs state
      { state with gate :=
        (state.gate.redeem receiptId ((request.headerStr? intentHeader).getD "")).2 }
      request post receipt ⟨receiptId, header, found, named⟩
    refine ⟨response, kinds, ends,
      ends_step framework primitives envs 15 0 state _ _ _ (Nat.zero_lt_succ 8) rfl ?_⟩
    rw [advance, comes]
    exact rest

theorem handle_ends (state : HandoffState) (request : Request) (post : request.method = "POST")
    (execution : request.uri = "/execute") :
    ∃ response kinds, ExecutionEnds framework primitives (envs 2) state request response kinds ∧
      (handle framework primitives envs state request).Ends response kinds := by
  rw [handle, handoffRouter_execute request execution]
  exact guard_ends framework primitives envs state request post

end Executions

/-! ### Executions of intent `a` -/

/-- A request to execute intent `a` with its receipt, and no body. -/
def bodilessExecution : Request where
  method := "POST"
  uri := "/execute"
  headers := [
    (intentHeader, ⟨utf8 "a".toList, by decide⟩),
    (receiptHeader, ⟨utf8 plainEnv.ulid.toString.toList, by decide⟩),
    ("content-type", ⟨utf8 "application/json".toList, by decide⟩)]
  body := []

theorem bodilessExecution_presents :
    Presents (settledSystem (.cleared plainEnv.ulid "a" 7)).state bodilessExecution
      (.cleared plainEnv.ulid "a" 7) :=
  ⟨plainEnv.ulid.toString, by decide, rfl, by decide⟩

/-- The same request with a body. -/
def executionOf (body : Value) : Request := { bodilessExecution with body := utf8 body.text }

theorem executionOf_presents (body : Value) :
    Presents (settledSystem (.cleared plainEnv.ulid "a" 7)).state (executionOf body)
      (.cleared plainEnv.ulid "a" 7) := bodilessExecution_presents

theorem executionOf_extracts (body : Value) (unique : body.UniqueKeys)
    (integer : body.IntegerOnly) (shallow : body.depth < 128)
    (small : body.byteLength ≤ maxRequestBodyBytes) :
    plainFramework.extractJson AgentIntent.fromJson (executionOf body) =
      AgentIntent.fromJson body := by
  have read := plainFramework_readsBack.body body unique integer shallow
  have reads : (plainFramework.fromBody (utf8 body.text)).bind AgentIntent.fromJson =
      AgentIntent.fromJson body := by rw [read, Option.bind_some]
  exact (if_pos ⟨plainFramework_readsBack.contentType, small⟩).trans reads

end Hammurabi
