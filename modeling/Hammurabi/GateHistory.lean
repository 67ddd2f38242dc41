/-
This file reduces the treasury of the running process to a history of the gate.

Requests interleave, and a settlement has even two steps: the backend clears it, and only
later is its receipt recorded. But a request touches the treasury once at most, when it
records a receipt or when its guard presents one, and each touch is atomic. So whatever
the interleaving and whatever the backend, the treasury is that of a sequential history
with the same touches in the same order; no id is recorded twice in it, and a guard lets
a request pass exactly if the receipt it presents is outstanding in it.
-/

import Hammurabi.PayBeforeMint
import Hammurabi.TreasuryHistory

namespace Hammurabi

open Runs

/-! ### Touches -/

/-- What a step does to the treasury: it records a receipt at an instant, or presents an id for an
intent. -/
inductive Touch where
  | recorded (receipt : PaymentReceipt) (now : Int64)
  | presented (receiptId intentId : String)
  deriving DecidableEq, Repr

/-- The treasury after a touch. -/
def Touch.apply (treasury : Treasury) : Touch → Treasury
  | .recorded receipt now => (treasury.evictStale now).insert receipt
  | .presented receiptId _ => treasury.remove receiptId

/-- The id that a touch records. -/
def Touch.recordedId : Touch → Option String
  | .recorded receipt _ => some receipt.receiptId
  | .presented _ _ => none

/-- The touch of an operation on the gate, as far as it settles on the mock backend. -/
def GateOp.touch : GateOp → Touch
  | .settle intentId _ now ulid => .recorded (.cleared ulid intentId now) now
  | .mockSettle intentId now ulid => .recorded (.cleared ulid intentId now) now
  | .redeem receiptId intentId => .presented receiptId intentId

/-- What the next step of a request does to the treasury. -/
def Phase.touch : Phase → Option Touch
  | .record receipt now => some (.recorded receipt now)
  | .guard request => (request.headerStr? receiptHeader).map fun receiptId =>
      .presented receiptId ((request.headerStr? intentHeader).getD "")
  | _ => none

/-- What an action does to the treasury. -/
def System.touches (system : System) : Action → List Touch
  | .arrive _ => []
  | .advance index _ => (system.tasks[index]?.bind Phase.touch).toList

/-- The touches of some actions, in their order. -/
def touchesOf (framework : Framework) (primitives : Primitives) : System → List Action → List Touch
  | _, [] => []
  | system, action :: actions =>
    system.touches action ++
      touchesOf framework primitives (system.step framework primitives action) actions

/-! ### The treasury after the touches -/

/-- The treasury after a history is the treasury after its touches. -/
theorem receipts_gateAfter (ops : List GateOp) :
    (gateAfter ops).receipts = (ops.map GateOp.touch).foldl Touch.apply .empty := by
  induction ops using List.reverseRecOn with
  | nil => rfl
  | append_singleton ops op inductionHypothesis =>
    rw [gateAfter_append_singleton, List.map_append, List.foldl_append, ← inductionHypothesis]
    cases op with
    | settle intentId payment now ulid =>
      rw [GateOp.apply, X402Gate.settle_mock _ (gateAfter_backend ops)]
      rfl
    | mockSettle intentId now ulid => rfl
    | redeem receiptId intentId =>
      rw [GateOp.apply, X402Gate.redeem_snd]
      rfl

section Steps

variable (framework : Framework) (primitives : Primitives)

/-- A step of a request changes the treasury by its touch. -/
theorem receipts_advance (env : Env) (state : HandoffState) (phase : Phase) :
    (advance framework primitives env state phase).1.gate.receipts =
      phase.touch.toList.foldl Touch.apply state.gate.receipts := by
  cases phase with
  | settle request =>
    rcases x402Settle_cases framework env state request with
      ⟨phase, response, -, comes, -⟩ | ⟨req, receipt, -, -, comes⟩
    · rw [advance, comes]
      rfl
    · rw [advance, comes]
      rfl
  | guard request =>
    rw [advance, paymentGuard, Phase.touch]
    cases request.headerStr? receiptHeader with
    | none => rfl
    | some receiptId =>
      have burned := X402Gate.redeem_snd state.gate receiptId
        ((request.headerStr? intentHeader).getD "")
      dsimp only
      split
      · exact congrArg X402Gate.receipts burned
      · exact congrArg X402Gate.receipts burned
  | execute request receipt =>
    rw [(advance_quiet framework primitives env state (.execute request receipt) rfl).1]
    rfl
  | mint receipt intent =>
    rw [(advance_quiet framework primitives env state (.mint receipt intent) rfl).1]
    rfl
  | _ => rfl

theorem receipts_step (system : System) (action : Action) :
    (system.step framework primitives action).state.gate.receipts =
      (system.touches action).foldl Touch.apply system.state.gate.receipts := by
  cases action with
  | arrive arrival =>
    rw [System.step]
    cases arrival.request? with
    | none => rfl
    | some request => rfl
  | advance index env =>
    rw [System.step, System.touches]
    cases system.tasks[index]? with
    | none => rfl
    | some phase => exact receipts_advance framework primitives env system.state phase

/-- Over a run the treasury changes by the touches, in the order of the steps. -/
theorem receipts_of_run (start final : System) (actions : List Action)
    (run : Run (System.Step framework primitives) start actions final) :
    final.state.gate.receipts =
      (touchesOf framework primitives start actions).foldl Touch.apply
        start.state.gate.receipts := by
  induction run with
  | stop system => rfl
  | step first rest inductionHypothesis =>
    obtain ⟨-, rfl⟩ := first
    rw [inductionHypothesis, touchesOf, List.foldl_append, receipts_step]

/-! ### No id is recorded twice -/

/-- The id of the receipt a request is about to record. -/
def Phase.recordingId : Phase → Option String
  | .record receipt _ => some receipt.receiptId
  | .narrate _ _ _ after => after.recordingId
  | .push _ after => after.recordingId
  | .send _ after => after.recordingId
  | _ => none

/-- What a request is about to record is a receipt as a settlement gives it, at its own instant. -/
def Phase.Clears : Phase → Prop
  | .record receipt now => ∃ ulid, receipt = .cleared ulid receipt.intentId now
  | .narrate _ _ _ after => after.Clears
  | .push _ after => after.Clears
  | .send _ after => after.Clears
  | _ => True

/-- The ids recorded by some touches, and those that requests are about to record. -/
def recordingIds (touches : List Touch) (tasks : List Phase) : List String :=
  touches.filterMap Touch.recordedId ++ tasks.filterMap Phase.recordingId

/-- A request comes to record a receipt by a settlement only, under the id it has just drawn; any
other step takes the id it was about to record to the treasury, if there was one. -/
theorem recording_advance (env : Env) (state : HandoffState) (phase : Phase)
    (clears : phase.Clears) :
    (advance framework primitives env state phase).2.Clears ∧
      ((∃ request receipt, phase = .settle request ∧ receipt.receiptId = env.ulid.toString ∧
        (advance framework primitives env state phase).2 = .record receipt env.now) ∨
      recordingIds phase.touch.toList [(advance framework primitives env state phase).2] =
        recordingIds [] [phase]) := by
  cases phase with
  | settle request =>
    rcases x402Settle_cases framework env state request with
      ⟨phase, response, -, comes, rfl | ⟨body, rfl⟩⟩ | ⟨req, receipt, -, settled, comes⟩
    · rw [advance, comes]
      exact ⟨trivial, .inr rfl⟩
    · rw [advance, comes]
      exact ⟨trivial, .inr rfl⟩
    · obtain rfl := settle_eq_ok _ _ _ _ _ _ settled
      rw [advance, comes]
      exact ⟨⟨env.ulid, rfl⟩, .inl ⟨request, _, rfl, rfl, rfl⟩⟩
  | guard request =>
    have unrecorded : (Phase.guard request).touch.toList.filterMap Touch.recordedId = [] := by
      rw [Phase.touch]
      cases request.headerStr? receiptHeader with
      | none => rfl
      | some receiptId => rfl
    rcases paymentGuard_cases state request with
      ⟨gate, body, -, comes⟩ | ⟨receiptId, receipt, -, -, -, comes⟩
    · rw [advance, comes, recordingIds, unrecorded]
      exact ⟨trivial, .inr rfl⟩
    · rw [advance, comes, recordingIds, unrecorded]
      exact ⟨trivial, .inr rfl⟩
  | execute request receipt =>
    rcases execute_cases framework state request receipt with
      ⟨response, -, comes⟩ | ⟨intent, -, -, comes⟩
    · rw [advance, comes]
      exact ⟨trivial, .inr rfl⟩
    · rw [advance, comes]
      exact ⟨trivial, .inr rfl⟩
  | mint receipt intent =>
    have outcome := mintAndPackage_cases primitives env state receipt intent
    rw [advance]
    generalize mintAndPackage primitives env state receipt intent = next at outcome ⊢
    rcases outcome with ⟨refusal, body, response, -, -, rfl⟩ | ⟨credential, body, -, rfl⟩
    · exact ⟨trivial, .inr rfl⟩
    · exact ⟨trivial, .inr rfl⟩
  | narrate sender kind body after => exact ⟨clears, .inr rfl⟩
  | push message after => exact ⟨clears, .inr rfl⟩
  | send message after => exact ⟨clears, .inr rfl⟩
  | _ => exact ⟨trivial, .inr rfl⟩

end Steps

/-- The ids recorded so far, and those that requests are about to record, are distinct ids of issued
receipts, and every recorded receipt is one as a settlement gives it. -/
structure Recorded (touches : List Touch) (system : System) : Prop where
  distinct : (recordingIds touches system.tasks).Nodup
  issued : ∀ id ∈ recordingIds touches system.tasks,
    id ∈ system.issued.map PaymentReceipt.receiptId
  clears : ∀ phase ∈ system.tasks, phase.Clears
  cleared : ∀ receipt now, .recorded receipt now ∈ touches →
    ∃ ulid, receipt = .cleared ulid receipt.intentId now

theorem recorded_start (backend : SettlementBackend) : Recorded [] (.start backend) where
  distinct := .nil
  issued _ none := absurd none List.not_mem_nil
  clears _ none := absurd none List.not_mem_nil
  cleared _ _ none := absurd none List.not_mem_nil

/-- One request and its touch apart from the others. -/
theorem recordingIds_split (touches more : List Touch) (front back : List Phase) (phase : Phase) :
    (recordingIds (touches ++ more) (front ++ phase :: back)).Perm
      (recordingIds more [phase] ++ recordingIds touches (front ++ back)) := by
  refine List.perm_iff_count.mpr fun id => ?_
  rw [← List.singleton_append (l := back)]
  simp only [recordingIds, List.filterMap_append, List.count_append]
  omega

section Runs

variable (framework : Framework) (primitives : Primitives)

/-- A request that takes a step is replaced among the others. -/
theorem step_split (before : System) (index : Nat) (env : Env) (phase : Phase)
    (found : before.tasks[index]? = some phase) :
    ∃ front back, before.tasks = front ++ phase :: back ∧
      before.step framework primitives (.advance index env) =
        { state := (advance framework primitives env before.state phase).1
          tasks := front ++ (advance framework primitives env before.state phase).2 :: back
          issued := before.issued ++
            phase.issues (advance framework primitives env before.state phase).2 } := by
  obtain ⟨inside, here⟩ := List.getElem?_eq_some_iff.mp found
  refine ⟨before.tasks.take index, before.tasks.drop (index + 1), ?_, ?_⟩
  · rw [← here, List.getElem_cons_drop, List.take_append_drop]
  · rw [step_advance framework primitives before index env phase found,
      List.set_eq_take_append_cons_drop, if_pos inside]

theorem recordingId_handoffRouter (request : Request) :
    (handoffRouter request).recordingId = none ∧ (handoffRouter request).Clears := by
  rw [handoffRouter]
  split_ifs
  all_goals exact ⟨rfl, trivial⟩

/-- A touch records what its request was about to record. -/
theorem cleared_touch (phase : Phase) (clears : phase.Clears) (receipt : PaymentReceipt)
    (now : Int64) (touched : .recorded receipt now ∈ phase.touch.toList) :
    ∃ ulid, receipt = .cleared ulid receipt.intentId now := by
  cases phase with
  | record other instant =>
    cases List.mem_singleton.mp touched
    exact clears
  | guard request =>
    rw [Phase.touch] at touched
    cases presented : request.headerStr? receiptHeader with
    | none =>
      rw [presented] at touched
      exact absurd touched List.not_mem_nil
    | some receiptId =>
      rw [presented] at touched
      cases List.mem_singleton.mp touched
  | _ => exact absurd touched List.not_mem_nil

/-- A request that arrives records nothing and is about to record nothing. -/
theorem recorded_arrive (touches : List Touch) (before : System) (arrival : Arrival)
    (recorded : Recorded touches before) :
    Recorded touches (before.step framework primitives (.arrive arrival)) := by
  rw [System.step]
  cases arrival.request? with
  | none => exact recorded
  | some request =>
    obtain ⟨none, plain⟩ := recordingId_handoffRouter request
    have same : recordingIds touches (before.tasks ++ [handoffRouter request]) =
        recordingIds touches before.tasks := by
      rw [recordingIds, List.filterMap_append, List.filterMap_cons_none none,
        List.filterMap_nil, List.append_nil]
      rfl
    exact ⟨same ▸ recorded.distinct, same ▸ recorded.issued,
      forall_mem_added before.tasks _ recorded.clears plain, recorded.cleared⟩

/-- The ids recorded and about to be recorded stay as they are when a request takes a step, but for
the one that a settlement draws, which is new. -/
theorem recordingIds_advance (touches : List Touch) (before : System) (index : Nat) (env : Env)
    (phase : Phase) (found : before.tasks[index]? = some phase)
    (fresh : before.Fresh (.advance index env)) (recorded : Recorded touches before)
    (front back : List Phase) (split : before.tasks = front ++ phase :: back) :
    (recordingIds (touches ++ phase.touch.toList)
        (front ++ (advance framework primitives env before.state phase).2 :: back)).Nodup ∧
      ∀ id ∈ recordingIds (touches ++ phase.touch.toList)
        (front ++ (advance framework primitives env before.state phase).2 :: back),
      id ∈ (before.issued ++ phase.issues
        (advance framework primitives env before.state phase).2).map PaymentReceipt.receiptId := by
  have earlier := recordingIds_split touches [] front back phase
  rw [List.append_nil, ← split] at earlier
  have later := recordingIds_split touches phase.touch.toList front back
    (advance framework primitives env before.state phase).2
  obtain ⟨-, moved⟩ := recording_advance framework primitives env before.state phase
    (recorded.clears phase (List.mem_of_getElem? found))
  rcases moved with ⟨request, receipt, rfl, drawn, next⟩ | same
  · -- a settlement: the id it has drawn is new
    rw [next] at later ⊢
    have new : receipt.receiptId ∉ before.issued.map PaymentReceipt.receiptId := by
      refine fresh receipt.receiptId ?_
      rw [System.draws, found]
      exact List.mem_singleton.mpr drawn
    have grown := later.trans ((earlier.symm).cons receipt.receiptId)
    refine ⟨grown.nodup_iff.mpr (List.nodup_cons.mpr
      ⟨fun inside => new (recorded.issued _ inside), recorded.distinct⟩), fun id inside => ?_⟩
    rw [List.map_append, List.mem_append]
    rcases List.mem_cons.mp (grown.mem_iff.mp inside) with rfl | before'
    · exact .inr (List.mem_singleton_self _)
    · exact .inl (recorded.issued id before')
  · rw [same] at later
    have kept := later.trans earlier.symm
    refine ⟨kept.nodup_iff.mpr recorded.distinct, fun id inside => ?_⟩
    rw [List.map_append, List.mem_append]
    exact .inl (recorded.issued id (kept.mem_iff.mp inside))

theorem recorded_step (touches : List Touch) (before : System) (action : Action) (after : System)
    (step : before.Step framework primitives action after) (recorded : Recorded touches before) :
    Recorded (touches ++ before.touches action) after := by
  obtain ⟨fresh, rfl⟩ := step
  cases action with
  | arrive arrival =>
    rw [System.touches, List.append_nil]
    exact recorded_arrive framework primitives touches before arrival recorded
  | advance index env =>
    cases found : before.tasks[index]? with
    | none =>
      rw [System.touches, found, System.step, found]
      exact (List.append_nil touches).symm ▸ recorded
    | some phase =>
      obtain ⟨front, back, split, advanced⟩ :=
        step_split framework primitives before index env phase found
      have clears := recorded.clears phase (List.mem_of_getElem? found)
      have touched : before.touches (.advance index env) = phase.touch.toList := by
        rw [System.touches, found, Option.bind_some]
      obtain ⟨distinct, issued⟩ := recordingIds_advance framework primitives touches before index
        env phase found fresh recorded front back split
      have stillClears :=
        (recording_advance framework primitives env before.state phase clears).1
      rw [touched, advanced]
      refine ⟨distinct, issued, ?_, fun receipt now inside => ?_⟩
      · exact forall_mem_replaced front back phase _ (split ▸ recorded.clears) stillClears
      · rcases List.mem_append.mp inside with before' | new
        · exact recorded.cleared receipt now before'
        · exact cleared_touch phase clears receipt now new

theorem recorded_of_run (touches : List Touch) (start final : System) (actions : List Action)
    (run : Run (System.Step framework primitives) start actions final)
    (recorded : Recorded touches start) :
    Recorded (touches ++ touchesOf framework primitives start actions) final := by
  induction run generalizing touches with
  | stop system => exact (List.append_nil touches).symm ▸ recorded
  | step first rest inductionHypothesis =>
    have stepped := recorded_step framework primitives touches _ _ _ first recorded
    obtain ⟨-, rfl⟩ := first
    rw [touchesOf, ← List.append_assoc]
    exact inductionHypothesis _ stepped

end Runs

/-! ### The sequential history -/

/-- Touches that record receipts as settlements give them are those of some history. -/
theorem exists_ops (touches : List Touch)
    (cleared : ∀ receipt now, .recorded receipt now ∈ touches →
      ∃ ulid, receipt = .cleared ulid receipt.intentId now) :
    ∃ ops : List GateOp, ops.map GateOp.touch = touches := by
  induction touches with
  | nil => exact ⟨[], rfl⟩
  | cons touch touches inductionHypothesis =>
    obtain ⟨ops, rest⟩ := inductionHypothesis fun receipt now inside =>
      cleared receipt now (List.mem_cons_of_mem _ inside)
    cases touch with
    | recorded receipt now =>
      obtain ⟨ulid, same⟩ := cleared receipt now List.mem_cons_self
      refine ⟨.mockSettle receipt.intentId now ulid :: ops, ?_⟩
      rw [List.map_cons, rest, GateOp.touch, ← same]
    | presented receiptId intentId =>
      exact ⟨.redeem receiptId intentId :: ops, congrArg (List.cons _) rest⟩

/-- The ids a history issues are those its touches record. -/
theorem issues_eq_recordedId (op : GateOp) :
    op.issues.map PaymentReceipt.receiptId = op.touch.recordedId := by
  cases op with
  | settle intentId payment now ulid => rfl
  | mockSettle intentId now ulid => rfl
  | redeem receiptId intentId => rfl

/-- The guard lets a request pass with a receipt exactly if the treasury holds it under the id that
the request presents, for the intent it names. -/
theorem paymentGuard_passes_iff (state : HandoffState) (request : Request)
    (receipt : PaymentReceipt) :
    (paymentGuard state request).2 = .execute request receipt ↔
      ∃ receiptId, request.headerStr? receiptHeader = some receiptId ∧
        state.gate.receipts.lookup receiptId = some receipt ∧
        receipt.intentId = (request.headerStr? intentHeader).getD "" := by
  constructor
  · intro passes
    rcases paymentGuard_cases state request with
      ⟨gate, body, -, comes⟩ | ⟨receiptId, other, presented, found, same, comes⟩
    · rw [comes] at passes
      cases passes
    · rw [comes] at passes
      cases passes
      exact ⟨receiptId, presented, found, same⟩
  · rintro ⟨receiptId, presented, found, same⟩
    rw [paymentGuard_of_held state request receiptId receipt presented found same]

/-- However requests interleave, and whatever the backend, the treasury is that of a sequential
history of the gate with the same touches in the same order, in which no id is issued twice; so a
guard lets a request pass exactly if the receipt it presents is outstanding in that history, for
the intent it names. -/
theorem treasury_serializes (framework : Framework) (primitives : Primitives)
    (backend : SettlementBackend) (actions : List Action) (final : System)
    (run : Run (System.Step framework primitives) (.start backend) actions final) :
    ∃ ops : List GateOp,
      ops.map GateOp.touch = touchesOf framework primitives (.start backend) actions ∧
      FreshIds ops ∧ final.state.gate.receipts = (gateAfter ops).receipts ∧
      ∀ request receipt, (paymentGuard final.state request).2 = .execute request receipt ↔
        request.headerStr? receiptHeader = some receipt.receiptId ∧ Outstanding ops receipt ∧
          receipt.intentId = (request.headerStr? intentHeader).getD "" := by
  have recorded := recorded_of_run framework primitives [] _ final actions run
    (recorded_start backend)
  rw [List.nil_append] at recorded
  obtain ⟨ops, touches⟩ := exists_ops _ recorded.cleared
  have fresh : FreshIds ops := by
    have distinct := (List.nodup_append.mp recorded.distinct).1
    rw [← touches, List.filterMap_map] at distinct
    have same : (fun op : GateOp => op.issues.map PaymentReceipt.receiptId) =
        Touch.recordedId ∘ GateOp.touch := funext issues_eq_recordedId
    rw [FreshIds, same]
    exact distinct
  have receipts : final.state.gate.receipts = (gateAfter ops).receipts := by
    rw [receipts_of_run framework primitives _ final actions run, receipts_gateAfter, touches]
    rfl
  refine ⟨ops, touches, fresh, receipts, fun request receipt => ?_⟩
  rw [paymentGuard_passes_iff, receipts]
  constructor
  · rintro ⟨receiptId, presented, found, same⟩
    obtain ⟨outstanding, rfl⟩ := (lookup_gateAfter ops fresh receiptId receipt).mp found
    exact ⟨presented, outstanding, same⟩
  · rintro ⟨presented, outstanding, same⟩
    exact ⟨receipt.receiptId, presented,
      (lookup_gateAfter ops fresh _ receipt).mpr ⟨outstanding, rfl⟩, same⟩

/-- A settlement of the shell is recorded, and while its line is posted the receipt is redeemed: it
is no longer outstanding. -/
theorem treasury_serializes_redeemed :
    let intent := AgentIntent.mockEthLimitOrder plainEnv.ulid
    let receipt := PaymentReceipt.cleared plainEnv.ulid intent.intentId 7
    ∃ request : Request,
      let actions : List Action := [.arrive (.command (.x402Settle intent.intentId)),
        .advance 0 plainEnv, .advance 0 plainEnv, .arrive (.http request), .advance 0 plainEnv,
        .advance 1 plainEnv]
      ∃ (final : System) (ops : List GateOp), final.tasks[1]? = some (.execute request receipt) ∧
        ops.map GateOp.touch =
          touchesOf plainFramework (markingPrimitives []) (.start .mock) actions ∧
        FreshIds ops ∧ final.state.gate.receipts = (gateAfter ops).receipts ∧
        (∀ other settled, (paymentGuard final.state other).2 = .execute other settled ↔
          other.headerStr? receiptHeader = some settled.receiptId ∧ Outstanding ops settled ∧
            settled.intentId = (other.headerStr? intentHeader).getD "") ∧
        ¬ Outstanding ops receipt := by
  intro intent receipt
  have visible : Visible plainEnv.ulid.toString := visible_ulid plainEnv.ulid
  obtain ⟨request, built⟩ := exists_mintingRequest intent receipt.receiptId visible visible
  obtain ⟨-, uri, -⟩ := buildRequest_eq_some _ _ _ _ request built
  obtain ⟨header, -, presented⟩ := headerStr?_minting intent receipt.receiptId request built
  have named : receipt.intentId = (request.headerStr? intentHeader).getD "" := by
    rw [header visible]
    rfl
  have settled := run_settledSystem plainFramework (markingPrimitives []) plainFramework_readsBack
    intent.intentId plainEnv (by decide)
  have arrives := run_arrival plainFramework (markingPrimitives []) (settledSystem receipt)
    (.http request) request rfl
  rw [handoffRouter_execute request uri] at arrives
  have numbers := step_row plainFramework (markingPrimitives [])
    { settledSystem receipt with tasks := (settledSystem receipt).tasks ++ [.guard request] } 0
    plainEnv _ rfl (fun _ => Phase.noConfusion) _ rfl
  have guards := fun mesh => paymentGuard_of_held ⟨mesh, (settledSystem receipt).state.gate⟩ request
    receipt.receiptId receipt (presented visible) rfl named
  have run := (settled.append arrives).append (.step numbers (.step (step_row plainFramework
    (markingPrimitives []) _ 1 plainEnv (.guard request) rfl (fun _ => Phase.noConfusion) _
    (guards _)) (.stop _)))
  obtain ⟨ops, touches, fresh, receipts, passes⟩ :=
    treasury_serializes plainFramework (markingPrimitives []) .mock _ _ run
  refine ⟨request, _, ops, rfl, touches, fresh, receipts, passes, fun outstanding => ?_⟩
  -- The guard would let the request pass once more, but the receipt is gone.
  have again := (passes request receipt).mpr ⟨presented visible, outstanding, named⟩
  obtain ⟨receiptId, shown, found, -⟩ := (paymentGuard_passes_iff _ request receipt).mp again
  cases (presented visible).symm.trans shown
  exact absurd rfl ((X402Gate.lookup_redeem _ _ _ _ _).mp found).1

end Hammurabi
