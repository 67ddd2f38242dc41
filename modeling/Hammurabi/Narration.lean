/-
This file is about the feed as a record of the burned receipts.

The guard burns the receipt before the body of an execution is read. A refusal of the
guard, a refused mint and a release each post a line, but the answers in between post
none: a body that does not extract, and a body for another intent than the header's.
So a receipt is burned without a line in exactly these two cases.
-/

import Hammurabi.Execution

namespace Hammurabi

open Json Runs Unicode

/-! ### A burned receipt and the feed -/

/-- Some receipt is in the treasury before and is gone after. -/
def Burned (before after : HandoffState) : Prop :=
  ∃ id receipt, before.gate.receipts.lookup id = some receipt ∧
    after.gate.receipts.lookup id = none

section Executions

variable (framework : Framework) (primitives : Primitives) (envs : Nat → Env)
  (state : HandoffState) (request : Request)

/-- An execution that presents a receipt ends with a line when the body is the intent the receipt
was settled for, and only then. -/
theorem spoken_iff (env : Env) (response : Response) (kinds : List MeshEventKind)
    (ends : ExecutionEnds framework primitives env state request response kinds)
    (receipt : PaymentReceipt) (presents : Presents state request receipt) :
    kinds ≠ [] ↔ ∃ intent, framework.extractJson AgentIntent.fromJson request = some intent ∧
      intent.intentId = receipt.intentId := by
  cases ends with
  | refused unpresented => exact absurd ⟨receipt, presents⟩ unpresented
  | unread other _ unread =>
    refine iff_of_false (not_not.mpr rfl) ?_
    rintro ⟨intent, extracted, -⟩
    cases unread.symm.trans extracted
  | mismatched other presentsOther intent extracted different =>
    cases presents_unique state request other receipt presentsOther presents
    refine iff_of_false (not_not.mpr rfl) ?_
    rintro ⟨body, extractedBody, same⟩
    cases extracted.symm.trans extractedBody
    exact different same.symm
  | unminted other presentsOther intent extracted same =>
    cases presents_unique state request other receipt presentsOther presents
    exact iff_of_true (List.cons_ne_nil _ _) ⟨intent, extracted, same.symm⟩
  | released other presentsOther intent extracted same =>
    cases presents_unique state request other receipt presentsOther presents
    exact iff_of_true (List.cons_ne_nil _ _) ⟨intent, extracted, same.symm⟩

theorem lines_ne_nil_iff (handled : Handled) (response : Response) (kinds : List MeshEventKind)
    (ends : handled.Ends response kinds) : handled.lines ≠ [] ↔ kinds ≠ [] := by
  rw [← ends.2, ne_eq, ne_eq, List.map_eq_nil_iff]

/-- A receipt that is presented for its own intent is burned, and a line is posted when the body is
that intent, and only then. -/
theorem burned_of_presents (post : request.method = "POST") (execution : request.uri = "/execute")
    (receipt : PaymentReceipt) (presents : Presents state request receipt) :
    Burned state (handle framework primitives envs state request).state ∧
      ((handle framework primitives envs state request).lines ≠ [] ↔
        ∃ intent, framework.extractJson AgentIntent.fromJson request = some intent ∧
          intent.intentId = receipt.intentId) := by
  constructor
  · obtain ⟨receiptId, presented, found, same⟩ := presents
    refine ⟨receiptId, receipt, found, ?_⟩
    rw [handle_execution framework primitives envs state request execution,
      paymentGuard_of_held state request receiptId receipt presented found same,
      drive_quiet framework primitives envs 15 1 _ (.execute request receipt) rfl]
    dsimp only
    cases after : (state.gate.redeem receiptId
      ((request.headerStr? intentHeader).getD "")).2.receipts.lookup receiptId with
    | none => rfl
    | some other => exact absurd rfl ((X402Gate.lookup_redeem _ _ _ _ _).mp after).1
  · obtain ⟨response, kinds, ends, reached⟩ :=
      handle_ends framework primitives envs state request post execution
    rw [lines_ne_nil_iff _ response kinds reached]
    exact spoken_iff framework primitives state request (envs 2) response kinds ends receipt
      presents

/-- Every other execution is refused by the guard, which says so. -/
theorem lines_of_refused (post : request.method = "POST") (execution : request.uri = "/execute")
    (refused : ¬ ∃ receipt, Presents state request receipt) :
    (handle framework primitives envs state request).lines ≠ [] := by
  obtain ⟨response, kinds, ends, reached⟩ :=
    handle_ends framework primitives envs state request post execution
  rw [lines_ne_nil_iff _ response kinds reached]
  cases ends with
  | refused _ => exact List.cons_ne_nil _ _
  | unread receipt presents => exact absurd ⟨receipt, presents⟩ refused
  | mismatched receipt presents => exact absurd ⟨receipt, presents⟩ refused
  | unminted receipt presents => exact absurd ⟨receipt, presents⟩ refused
  | released receipt presents => exact absurd ⟨receipt, presents⟩ refused

end Executions

/-- An execution that burns a receipt posts a line, exactly when any receipt it presents for its own
intent comes with a body that is this intent. -/
theorem burn_narrated_iff (framework : Framework) (primitives : Primitives) (envs : Nat → Env)
    (state : HandoffState) (request : Request) (post : request.method = "POST")
    (execution : request.uri = "/execute") :
    (Burned state (handle framework primitives envs state request).state →
      (handle framework primitives envs state request).lines ≠ []) ↔
    ∀ receipt, Presents state request receipt →
      ∃ intent, framework.extractJson AgentIntent.fromJson request = some intent ∧
        intent.intentId = receipt.intentId := by
  constructor
  · intro narrated receipt presents
    obtain ⟨burned, spoken⟩ :=
      burned_of_presents framework primitives envs state request post execution receipt presents
    exact spoken.mp (narrated burned)
  · intro matching burned
    by_cases refused : ∃ receipt, Presents state request receipt
    · obtain ⟨receipt, presents⟩ := refused
      exact (burned_of_presents framework primitives envs state request post execution receipt
        presents).2.mpr (matching receipt presents)
    · exact lines_of_refused framework primitives envs state request post execution refused

/-- The execution of the paid mock intent burns its receipt and posts a line. -/
theorem burn_narrated_iff_mock :
    let intent := AgentIntent.mockEthLimitOrder plainEnv.ulid
    let receipt := PaymentReceipt.cleared plainEnv.ulid intent.intentId 7
    let state := (settledSystem receipt).state
    ∃ request, buildRequest "POST" "/execute" (mintingHeaders intent receipt.receiptId)
        (some intent.payload) = some request ∧
      let handled := handle plainFramework (markingPrimitives []) (fun _ => plainEnv) state request
      Burned state handled.state ∧ handled.lines ≠ [] := by
  intro intent receipt state
  have visible : Visible intent.intentId := visible_ulid plainEnv.ulid
  obtain ⟨request, built⟩ := exists_mintingRequest intent receipt.receiptId visible visible
  obtain ⟨post, execution, -⟩ := buildRequest_eq_some _ _ _ _ _ built
  obtain ⟨header, -, presented⟩ := headerStr?_minting intent receipt.receiptId request built
  have extracted := extractJson_minting plainFramework plainFramework_readsBack intent _ request
    built (by decide +kernel)
  have named : receipt.intentId = (request.headerStr? intentHeader).getD "" := by
    rw [header visible]
    rfl
  have presents : Presents state request receipt :=
    ⟨receipt.receiptId, presented visible, rfl, named⟩
  have burned := (burned_of_presents plainFramework (markingPrimitives []) (fun _ => plainEnv)
    state request post execution receipt presents).1
  refine ⟨request, built, burned, ?_⟩
  refine (burn_narrated_iff plainFramework (markingPrimitives []) (fun _ => plainEnv) state request
    post execution).mpr ?_ burned
  rintro other ⟨-, -, -, same⟩
  exact ⟨intent, extracted, (same.trans named.symm).symm⟩

theorem bodilessExecution_extracts :
    plainFramework.extractJson AgentIntent.fromJson bodilessExecution = none := by
  have empty : plainFramework.fromBody [] = none := by
    change (decodeUtf8 (utf8 [])).bind Json.read = none
    rw [decodeUtf8_utf8]
    rfl
  have typed : bodilessExecution.headers.lookup "content-type" =
      some ⟨utf8 "application/json".toList, by decide⟩ := rfl
  rw [Framework.extractJson, typed]
  dsimp only [bodilessExecution]
  rw [empty]
  split_ifs
  · rfl
  · rfl

/-- Without a body the receipt is burned and nothing is posted. -/
theorem burn_unnarrated :
    ¬ ∀ (framework : Framework) (primitives : Primitives) (envs : Nat → Env)
      (actions : List Action) (final : System) (request : Request),
      Run (System.Step framework primitives) (.start .mock) actions final →
      request.method = "POST" → request.uri = "/execute" →
      Burned final.state (handle framework primitives envs final.state request).state →
      (handle framework primitives envs final.state request).lines ≠ [] := by
  intro narrated
  obtain ⟨burned, spoken⟩ := burned_of_presents plainFramework (markingPrimitives [])
    (fun _ => plainEnv) _ bodilessExecution rfl rfl _ bodilessExecution_presents
  have lines := narrated plainFramework (markingPrimitives []) (fun _ => plainEnv) _ _
    bodilessExecution (run_settledSystem plainFramework (markingPrimitives [])
      plainFramework_readsBack "a" plainEnv (by decide)) rfl rfl burned
  obtain ⟨intent, extracted, -⟩ := spoken.mp lines
  rw [bodilessExecution_extracts] at extracted
  cases extracted

end Hammurabi
