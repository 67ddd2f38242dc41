/-
This file is about a paid intent: that it can be executed through the OKX bridge.

A receipt stays in the treasury from its recording on, until a guard reads its id or
a later recording finds it stale. The invocation then carries the intent's id twice,
as a header and in the body. The body carries any string; the header carries only
strings of visible ASCII and tabs, and what it does not carry is taken for the empty
id. And the response has to fit the bridge's limit, which the intent alone may nearly
fill. When both fit, the bridge answers with the envelope; otherwise it never does.
-/

import Hammurabi.PayBeforeMint
import Hammurabi.SelfAttack
import Hammurabi.Sizes

namespace Hammurabi

open Json Runs Unicode

/-! ### A recorded receipt stays -/

/-- A step presents a receipt: a guard reads its id. -/
def System.Presents (system : System) (receipt : PaymentReceipt) : Action → Prop
  | .arrive _ => False
  | .advance index _ => ∃ request, system.tasks[index]? = some (.guard request) ∧
      request.headerStr? receiptHeader = some receipt.receiptId

/-- A step evicts a receipt: another is recorded at an instant from which this one is stale. -/
def System.Evicts (system : System) (receipt : PaymentReceipt) : Action → Prop
  | .arrive _ => False
  | .advance index _ => ∃ other now, system.tasks[index]? = some (.record other now) ∧
      ¬ now.toInt - receipt.clearedAt.toInt < 600

/-- A step that neither presents nor evicts a receipt. -/
def System.SparingStep (framework : Framework) (primitives : Primitives)
    (receipt : PaymentReceipt) (before : System) (action : Action) (after : System) : Prop :=
  before.Step framework primitives action after ∧ ¬ before.Presents receipt action ∧
    ¬ before.Evicts receipt action

/-- The system is accounted and the receipt is in the treasury. -/
def System.Holds (system : System) (receipt : PaymentReceipt) : Prop :=
  system.Accounted ∧ system.state.gate.receipts.lookup receipt.receiptId = some receipt

/-- Every receipt issued is one for the fee, under a new id. -/
def System.Cleared (system : System) : Prop :=
  ∀ receipt ∈ system.issued, ∃ ulid intentId now, receipt = .cleared ulid intentId now

section Staying

variable (framework : Framework) (primitives : Primitives) (receipt : PaymentReceipt)

/-- Only a guard that reads its id and a recording at a late instant take a receipt away. -/
theorem lookup_advance (env : Env) (state : HandoffState) (phase : Phase)
    (held : state.gate.receipts.lookup receipt.receiptId = some receipt)
    (unpresented : ∀ request, phase = .guard request →
      request.headerStr? receiptHeader ≠ some receipt.receiptId)
    (kept : ∀ other now, phase = .record other now →
      other.receiptId ≠ receipt.receiptId ∧ now.toInt - receipt.clearedAt.toInt < 600) :
    (advance framework primitives env state phase).1.gate.receipts.lookup receipt.receiptId =
      some receipt := by
  cases phase with
  | settle request =>
    rcases x402Settle_cases framework env state request with
      ⟨phase, response, -, comes, -⟩ | ⟨req, cleared, -, -, comes⟩
    · rwa [advance, comes]
    · rwa [advance, comes]
  | record other now =>
    obtain ⟨different, fresh⟩ := kept other now rfl
    exact (X402Gate.lookup_record _ _ _ _ _).mpr (.inr ⟨different.symm, held, fresh⟩)
  | guard request =>
    have spared : ∀ receiptId intentId, request.headerStr? receiptHeader = some receiptId →
        (state.gate.redeem receiptId intentId).2.receipts.lookup receipt.receiptId =
          some receipt := by
      intro receiptId intentId presented
      refine (X402Gate.lookup_redeem _ _ _ _ _).mpr ⟨?_, held⟩
      rintro rfl
      exact unpresented request rfl presented
    rcases paymentGuard_cases state request with
      ⟨gate, body, gate_eq, comes⟩ | ⟨receiptId, other, presented, -, -, comes⟩
    · rw [advance, comes]
      rcases gate_eq with rfl | ⟨receiptId, presented, rfl⟩
      · exact held
      · exact spared receiptId _ presented
    · rw [advance, comes]
      exact spared receiptId _ presented
  | execute request burned =>
    rwa [(advance_quiet framework primitives env state (.execute request burned) rfl).1]
  | mint burned intent =>
    rwa [(advance_quiet framework primitives env state (.mint burned intent) rfl).1]
  | _ => exact held

theorem holds_step (before : System) (action : Action) (after : System)
    (step : before.SparingStep framework primitives receipt action after)
    (holds : before.Holds receipt) : after.Holds receipt := by
  obtain ⟨step, unpresented, unevicted⟩ := step
  obtain ⟨accounted, held⟩ := holds
  refine ⟨accounted_step framework primitives before action after step accounted, ?_⟩
  obtain ⟨-, rfl⟩ := step
  rcases step_cases framework primitives before action with
    same | ⟨request, arrived⟩ | ⟨index, env, front, phase, back, rfl, found, split, advanced⟩
  · rwa [same]
  · rwa [arrived]
  · rw [advanced]
    refine lookup_advance framework primitives receipt env before.state phase held ?_ ?_
    · rintro request rfl presented
      exact unpresented ⟨request, found, presented⟩
    · rintro other now rfl
      constructor
      · intro same
        have member : Phase.record other now ∈ before.tasks := List.mem_of_getElem? found
        have absent := accounted.lookup_of_held _ member other.receiptId rfl
        rw [same, held] at absent
        cases absent
      · by_contra stale
        exact unevicted ⟨other, now, found, stale⟩

/-- A recorded receipt stays in the treasury as long as it is neither presented nor evicted. -/
theorem holds_run {start finish : System} {actions : List Action}
    (run : Run (System.SparingStep framework primitives receipt) start actions finish)
    (holds : start.Holds receipt) : finish.Holds receipt :=
  run.kept (holds_step framework primitives receipt) holds

/-- What a step issues is a receipt for the fee, under a new id. -/
theorem cleared_of_issues (env : Env) (state : HandoffState) (phase : Phase)
    (issued : receipt ∈ phase.issues (advance framework primitives env state phase).2) :
    ∃ ulid intentId now, receipt = .cleared ulid intentId now := by
  obtain ⟨request, body, -, -, settled⟩ :=
    settled_of_issues framework primitives env state phase receipt issued
  exact ⟨_, _, _, settle_eq_ok _ _ _ _ _ _ settled⟩

theorem cleared_step (before : System) (action : Action) (after : System)
    (step : before.Step framework primitives action after) (cleared : before.Cleared) :
    after.Cleared := by
  obtain ⟨-, rfl⟩ := step
  intro receipt issued
  rcases step_cases framework primitives before action with
    same | ⟨request, arrived⟩ | ⟨index, env, front, phase, back, rfl, found, split, advanced⟩
  · rw [same] at issued
    exact cleared receipt issued
  · rw [arrived] at issued
    exact cleared receipt issued
  · rw [advanced] at issued
    rcases List.mem_append.mp issued with before | new
    · exact cleared receipt before
    · exact cleared_of_issues framework primitives receipt env _ phase new

/-- So is every receipt ever issued. -/
theorem cleared_run (backend : SettlementBackend) (actions : List Action) (final : System)
    (run : Run (System.Step framework primitives) (.start backend) actions final) :
    final.Cleared := by
  refine run.kept (cleared_step framework primitives) ?_
  intro receipt none
  cases none

/-- A receipt is in the treasury once it is recorded. -/
theorem holds_recorded (before after : System) (index : Nat) (env : Env) (now : Int64)
    (accounted : before.Accounted) (recording : before.tasks[index]? = some (.record receipt now))
    (step : before.Step framework primitives (.advance index env) after) :
    after.Holds receipt := by
  refine ⟨accounted_step framework primitives before _ after step accounted, ?_⟩
  obtain ⟨-, rfl⟩ := step
  rw [System.step, recording]
  exact (X402Gate.lookup_record _ _ _ _ _).mpr (.inl ⟨rfl, rfl⟩)

end Staying

/-! ### The execution -/

section Execution

variable (framework : Framework) (primitives : Primitives) (envs : Nat → Env)
  (state : HandoffState) (request : Request) (intent : AgentIntent) (receipt : PaymentReceipt)

/-- The execution of a paid intent under its own header answers with the envelope. -/
theorem handle_paid (post : request.method = "POST") (execution : request.uri = "/execute")
    (header : request.headerStr? intentHeader = some intent.intentId)
    (presented : request.headerStr? receiptHeader = some receipt.receiptId)
    (extracted : framework.extractJson AgentIntent.fromJson request = some intent)
    (held : state.gate.receipts.lookup receipt.receiptId = some receipt)
    (paid : receipt.intentId = intent.intentId)
    (ideal : IdealMint primitives intent.payload (envs 2).now (envs 2).entropy) :
    ∃ canonical chaos, (handle framework primitives envs state request).phase =
      .answer ⟨200, .envelope (.package intent.payload
        (releasedCredential primitives canonical receipt (envs 2).now (envs 2).entropy chaos)
        receipt)⟩ := by
  obtain ⟨canonical, chaos, minted⟩ :=
    mint_payload primitives intent receipt (envs 2).now (envs 2).entropy ideal
  refine ⟨canonical, chaos, ?_⟩
  have same : receipt.intentId = (request.headerStr? intentHeader).getD "" := by
    rw [header]
    exact paid
  rw [handle_execution framework primitives envs state request execution,
    paymentGuard_of_held state request _ receipt presented held same,
    drive_succ framework primitives envs 14 1 _ (.execute request receipt) (Nat.zero_lt_succ 7),
    advance, execute_of_extracted framework _ request receipt intent post extracted paid]
  dsimp only
  rw [drive_succ framework primitives envs 13 2 _ (.mint receipt intent) (Nat.zero_lt_succ 6),
    advance]
  generalize outcome : mintAndPackage primitives (envs 2) _ receipt intent = next
  rcases mintAndPackage_cases primitives (envs 2) _ receipt intent with
    ⟨refusal, body, response, -, refused, -⟩ | ⟨credential, body, released, comes⟩
  · cases minted.symm.trans refused
  · cases minted.symm.trans released
    rw [← outcome, comes]
    exact drive_reply framework primitives envs 13 3 _ _ _ (Nat.le_of_ble_eq_true rfl) rfl

/-- An execution without an intent header is refused, unless the receipt is for the empty id. -/
theorem handle_headerless (execution : request.uri = "/execute")
    (header : request.headerStr? intentHeader = none)
    (presented : request.headerStr? receiptHeader = some receipt.receiptId)
    (held : state.gate.receipts.lookup receipt.receiptId = some receipt)
    (named : receipt.intentId ≠ "") :
    (handle framework primitives envs state request).phase =
      .answer ⟨402, .paymentRequired (.quote "")⟩ := by
  rw [handle_execution framework primitives envs state request execution]
  rcases paymentGuard_cases state request with
    ⟨gate, body, -, comes⟩ | ⟨receiptId, other, presentedOther, found, same, -⟩
  · rw [comes, header]
    exact drive_reply framework primitives envs 15 1 _ _ _ (Nat.le_of_ble_eq_true rfl) rfl
  · rw [header] at same
    cases presented.symm.trans presentedOther
    cases held.symm.trans found
    exact absurd same named

end Execution

/-! ### A paid intent is executed -/

section Paid

variable (framework : Framework) (primitives : Primitives) (readsBack : framework.ReadsBack)
  (hexText : HexText primitives) (intent : AgentIntent) (ulid : Ulid) (cleared : Int64)
  (state : HandoffState) (envs : Nat → Env) (requestId : String)

include readsBack hexText in
/-- An intent with a visible id is executed, and the envelope is read back within the limit. -/
theorem dispatch_visible (visible : Visible intent.intentId)
    (small : intent.payload.byteLength ≤ maxRequestBodyBytes)
    (held : state.gate.receipts.lookup ulid.toString =
      some (.cleared ulid intent.intentId cleared))
    (ideal : IdealMint primitives intent.payload (envs 2).now (envs 2).entropy) :
    ∃ envelope : OneShotEnvelope, envelope.params.intent = intent.payload ∧
      (dispatchOkx framework primitives envs state
        (mintingInvocation requestId intent ulid.toString)).2 =
      if intent.payload.byteLength + frameLength (envs 2).now ≤ maxResponseBytes then
        .ok ⟨requestId, 200, envelope.toBroadcastJson⟩
      else .error s!"body read failed: {framework.lengthError}" := by
  obtain ⟨request, built⟩ := exists_mintingRequest intent _ visible (visible_ulid ulid)
  obtain ⟨post, execution, -⟩ := buildRequest_eq_some _ _ _ _ _ built
  obtain ⟨header, -, presented⟩ := headerStr?_minting intent _ request built
  have extracted := extractJson_minting framework readsBack intent _ request built small
  obtain ⟨canonical, chaos, answered⟩ := handle_paid framework primitives envs state request
    intent (.cleared ulid intent.intentId cleared) post execution (header visible)
    (presented (visible_ulid ulid)) extracted held rfl ideal
  have size := byteLength_released primitives hexText intent.payload canonical
    (.cleared ulid intent.intentId cleared) (envs 2).now (envs 2).entropy chaos
  rw [envelopeLength_cleared] at size
  generalize releasedCredential primitives canonical (.cleared ulid intent.intentId cleared)
    (envs 2).now (envs 2).entropy chaos = credential at answered size
  refine ⟨.package intent.payload credential (.cleared ulid intent.intentId cleared), rfl, ?_⟩
  rw [dispatchOkx_of_answer framework primitives envs state _ _ request _
    (mintingInvocation_call requestId intent _) built answered,
    readResponse_envelope framework readsBack]
  dsimp only
  rw [size, apply_ite (Except.map _)]
  rfl

/-- An intent with any other id is not. -/
theorem dispatch_hidden (hidden : ¬ Visible intent.intentId)
    (held : state.gate.receipts.lookup ulid.toString =
      some (.cleared ulid intent.intentId cleared)) (document : Value) :
    (dispatchOkx framework primitives envs state
      (mintingInvocation requestId intent ulid.toString)).2 ≠ .ok ⟨requestId, 200, document⟩ := by
  intro executed
  have known := mintingInvocation_call requestId intent ulid.toString
  cases built : buildRequest "POST" "/execute" (mintingHeaders intent ulid.toString)
    (some intent.payload) with
  | none =>
    rw [dispatchOkx_of_unbuilt framework primitives envs state _ _ known built] at executed
    cases executed
  | some request =>
    obtain ⟨-, execution, -⟩ := buildRequest_eq_some _ _ _ _ _ built
    obtain ⟨-, header, presented⟩ := headerStr?_minting intent _ request built
    have named : intent.intentId ≠ "" := by
      intro empty
      rw [empty] at hidden
      exact hidden rfl
    have answered := handle_headerless framework primitives envs state request
      (.cleared ulid intent.intentId cleared) execution (header hidden)
      (presented (visible_ulid ulid)) held named
    rw [dispatchOkx_of_answer framework primitives envs state _ _ request _ known built
      answered] at executed
    cases read : readResponse framework ⟨402, .paymentRequired (.quote "")⟩ with
    | error refusal =>
      rw [read] at executed
      cases executed
    | ok answer =>
      rw [read] at executed
      have status := readResponse_status framework _ answer.1 answer.2 read
      have claimed : answer.1 = 200 := congrArg OkxResult.status (Except.ok.inj executed)
      rw [claimed] at status
      exact absurd status (by decide)

end Paid

/-- A paid intent is executed exactly when its id is visible and its envelope is within the limit:
from any reachable state in which its receipt is being recorded, and for as long as nobody else
presents the receipt and no later settlement finds it stale. -/
theorem paid_intent_executes_iff (framework : Framework) (primitives : Primitives)
    (readsBack : framework.ReadsBack) (hexText : HexText primitives) (backend : SettlementBackend)
    (intent : AgentIntent) (small : intent.payload.byteLength ≤ maxRequestBodyBytes)
    (receipt : PaymentReceipt) (paid : receipt.intentId = intent.intentId)
    (actions later : List Action) (before settled final : System)
    (reached : Run (System.Step framework primitives) (.start backend) actions before)
    (index : Nat) (env : Env) (now : Int64)
    (recording : before.tasks[index]? = some (.record receipt now))
    (settles : before.Step framework primitives (.advance index env) settled)
    (spared : Run (System.SparingStep framework primitives receipt) settled later final)
    (envs : Nat → Env)
    (ideal : IdealMint primitives intent.payload (envs 2).now (envs 2).entropy)
    (requestId : String) :
    (∃ envelope : OneShotEnvelope, envelope.params.intent = intent.payload ∧
      (dispatchOkx framework primitives envs final.state
        (mintingInvocation requestId intent receipt.receiptId)).2 =
          .ok ⟨requestId, 200, envelope.toBroadcastJson⟩) ↔
    Visible intent.intentId ∧
      intent.payload.byteLength + frameLength (envs 2).now ≤ maxResponseBytes := by
  have accounted := accounted_run framework primitives backend actions before reached
  have issued : receipt ∈ before.issued :=
    accounted.backed _ (List.mem_of_getElem? recording)
  obtain ⟨ulid, intentId, cleared, rfl⟩ :=
    cleared_run framework primitives backend actions before reached receipt issued
  obtain rfl : intentId = intent.intentId := paid
  have held := (holds_run framework primitives _ spared
    (holds_recorded framework primitives _ before settled index env now accounted recording
      settles)).2
  constructor
  · rintro ⟨envelope, -, executed⟩
    by_cases visible : Visible intent.intentId
    · obtain ⟨other, -, answered⟩ := dispatch_visible framework primitives readsBack hexText intent
        ulid cleared final.state envs requestId visible small held ideal
      refine ⟨visible, ?_⟩
      by_contra exceeds
      rw [if_neg exceeds] at answered
      cases executed.symm.trans answered
    · exact absurd executed (dispatch_hidden framework primitives intent ulid cleared final.state
        envs requestId visible held _)
  · rintro ⟨visible, within⟩
    obtain ⟨envelope, same, answered⟩ := dispatch_visible framework primitives readsBack hexText
      intent ulid cleared final.state envs requestId visible small held ideal
    rw [if_pos within] at answered
    exact ⟨envelope, same, answered⟩

/-- The mock intent is executed. -/
theorem paid_intent_executes_mock :
    let intent := AgentIntent.mockEthLimitOrder plainEnv.ulid
    let receipt := PaymentReceipt.cleared plainEnv.ulid intent.intentId 7
    ∃ primitives, ∃ envelope : OneShotEnvelope, envelope.params.intent = intent.payload ∧
      (dispatchOkx plainFramework primitives (fun _ => plainEnv) (settledSystem receipt).state
        (mintingInvocation "1" intent receipt.receiptId)).2 =
          .ok ⟨"1", 200, envelope.toBroadcastJson⟩ := by
  intro intent receipt
  obtain ⟨marked, ideal⟩ := exists_idealMint intent 7
  have reached := run_recordingSystem plainFramework (markingPrimitives marked)
    plainFramework_readsBack intent.intentId plainEnv (by decide)
  exact ⟨markingPrimitives marked, (paid_intent_executes_iff plainFramework
    (markingPrimitives marked) plainFramework_readsBack (fun _ => rfl) .mock intent
    (by decide +kernel) receipt rfl _ [] _ _ _ reached 0 plainEnv 7 rfl
    (step_settledSystem plainFramework (markingPrimitives marked) receipt plainEnv) (.stop _)
    (fun _ => plainEnv) ideal "1").mpr ⟨visible_ulid plainEnv.ulid, by decide +kernel⟩⟩

/-- An intent whose id is not ASCII. -/
def accentedIntent : AgentIntent :=
  { AgentIntent.mockEthLimitOrder plainEnv.ulid with intentId := "\u00e9" }

/-- A paid intent whose id is not ASCII is not executed. -/
theorem paid_intent_unexecuted :
    ¬ ∀ (framework : Framework) (primitives : Primitives), framework.ReadsBack →
      HexText primitives → ∀ intent : AgentIntent,
      intent.payload.byteLength ≤ maxRequestBodyBytes →
      ∀ receipt : PaymentReceipt, receipt.intentId = intent.intentId →
      ∀ (actions later : List Action) (before settled final : System),
      Run (System.Step framework primitives) (.start .mock) actions before →
      ∀ (index : Nat) (env : Env) (now : Int64),
      before.tasks[index]? = some (.record receipt now) →
      before.Step framework primitives (.advance index env) settled →
      Run (System.SparingStep framework primitives receipt) settled later final →
      ∀ envs : Nat → Env, IdealMint primitives intent.payload (envs 2).now (envs 2).entropy →
      ∀ requestId, ∃ envelope : OneShotEnvelope, envelope.params.intent = intent.payload ∧
        (dispatchOkx framework primitives envs final.state
          (mintingInvocation requestId intent receipt.receiptId)).2 =
            .ok ⟨requestId, 200, envelope.toBroadcastJson⟩ := by
  intro claim
  obtain ⟨marked, ideal⟩ := exists_idealMint accentedIntent 7
  have reached := run_recordingSystem plainFramework (markingPrimitives marked)
    plainFramework_readsBack accentedIntent.intentId plainEnv (by decide)
  obtain ⟨envelope, -, executed⟩ := claim plainFramework (markingPrimitives marked)
    plainFramework_readsBack (fun _ => rfl) accentedIntent (by decide +kernel)
    (.cleared plainEnv.ulid accentedIntent.intentId 7) rfl _ [] _ _ _ reached 0 plainEnv 7 rfl
    (step_settledSystem plainFramework (markingPrimitives marked) _ plainEnv) (.stop _)
    (fun _ => plainEnv) ideal "1"
  have hidden : ¬ Visible accentedIntent.intentId := by
    rw [Visible]
    decide
  exact dispatch_hidden plainFramework (markingPrimitives marked) accentedIntent plainEnv.ulid 7
    (settledSystem (.cleared plainEnv.ulid accentedIntent.intentId 7)).state (fun _ => plainEnv)
    "1" hidden rfl _ executed

end Hammurabi
