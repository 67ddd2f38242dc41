/-
This file settles when what is signed is what was posted.

The body of an execution is read into an intent, and the intent is written back as the
payload that is signed and carried in the envelope. Reading keeps every field and
ignores everything else: other members, at the top and in the order; a body that lists
the fields by position; and a side that is written as an object. So the payload is the
posted document, up to the order of members, exactly when the document has none of
these.
-/

import Hammurabi.Library.Reordering
import Hammurabi.Execution
import Hammurabi.PaidIntent

namespace Hammurabi

open Json Runs Unicode

/-! ### Documents that are written back -/

/-- An object with no member but the fields of an order, and its side as a text. -/
def LimitOrder.Verbatim : Value → Prop
  | .object members =>
    (∀ member ∈ members, member.1 ∈ LimitOrder.fields.map Field.name) ∧
      ∀ side, ("side", side) ∈ members → ∃ name, side = .string name
  | _ => False

/-- An object with no member but the fields of an intent, and its order of that kind. -/
def AgentIntent.Verbatim : Value → Prop
  | .object members =>
    (∀ member ∈ members, member.1 ∈ AgentIntent.fields.map Field.name) ∧
      ∀ order, ("order", order) ∈ members → LimitOrder.Verbatim order
  | _ => False

/-- A side is written back when it was a text. -/
theorem OrderSide.sameUpToOrder_iff (value : Value) (side : OrderSide)
    (read : OrderSide.fromJson value = some side) :
    side.toJson.SameUpToOrder value ↔ ∃ name, value = .string name := by
  constructor
  · exact fun same => ⟨side.name, same⟩
  · rintro ⟨name, rfl⟩
    simp only [OrderSide.fromJson] at read
    unfold OrderSide.ofName at read
    split at read
    · cases read
      rfl
    · cases read
      rfl
    · cases read

/-- What is read of the fields of an order, one by one. -/
theorem LimitOrder.fromJson_eq_some (value : Value) (order : LimitOrder)
    (read : LimitOrder.fromJson value = some order) :
    ∃ pair side price quantity venue,
      readRecord LimitOrder.fields value = some [pair, side, price, quantity, venue] ∧
      pair.asStr = some order.pair ∧ OrderSide.fromJson side = some order.side ∧
      readUInt64 price = some order.limitPriceUsdCents ∧
      quantity.asStr = some order.quantityWei ∧ venue.asStr = some order.venue := by
  rw [LimitOrder.fromJson] at read
  obtain ⟨values, fieldsRead, read⟩ := Option.bind_eq_some_iff.mp read
  split at read
  · simp only [Option.bind_eq_bind, Option.bind_eq_some_iff, Option.pure_def,
      Option.some.injEq] at read
    obtain ⟨pair, pairRead, side, sideRead, price, priceRead, quantity, quantityRead, venue,
      venueRead, rfl⟩ := read
    exact ⟨_, _, _, _, _, fieldsRead, pairRead, sideRead, priceRead, quantityRead, venueRead⟩
  · cases read

theorem AgentIntent.fromJson_eq_some (value : Value) (intent : AgentIntent)
    (read : AgentIntent.fromJson value = some intent) :
    ∃ intentId agentHandle action order,
      readRecord AgentIntent.fields value = some [intentId, agentHandle, action, order] ∧
      intentId.asStr = some intent.intentId ∧ agentHandle.asStr = some intent.agentHandle ∧
      action.asStr = some intent.action ∧ LimitOrder.fromJson order = some intent.order := by
  rw [AgentIntent.fromJson] at read
  obtain ⟨values, fieldsRead, read⟩ := Option.bind_eq_some_iff.mp read
  split at read
  · simp only [Option.bind_eq_bind, Option.bind_eq_some_iff, Option.pure_def,
      Option.some.injEq] at read
    obtain ⟨intentId, idRead, agentHandle, handleRead, action, actionRead, order, orderRead, rfl⟩ :=
      read
    exact ⟨_, _, _, _, fieldsRead, idRead, handleRead, actionRead, orderRead⟩
  · cases read

/-- An order is written back as it was when its document is verbatim. -/
theorem LimitOrder.sameUpToOrder_iff (value : Value) (order : LimitOrder)
    (read : LimitOrder.fromJson value = some order) :
    order.toJson.SameUpToOrder value ↔ LimitOrder.Verbatim value := by
  cases value with
  | object members =>
    obtain ⟨pair, side, price, quantity, venue, fieldsRead, pairRead, sideRead, priceRead,
      quantityRead, venueRead⟩ := LimitOrder.fromJson_eq_some _ order read
    rw [LimitOrder.toJson, sameUpToOrder_record_iff LimitOrder.fields (by decide)
      LimitOrder.fields_unique _ members rfl _ fieldsRead, LimitOrder.Verbatim]
    have held := (readRecord_object_eq_some_iff _ members _).mp fieldsRead
    simp only [LimitOrder.fields, List.forall₂_cons, List.Forall₂.nil, and_true] at held
    obtain ⟨-, sideHeld, -⟩ := held
    have only := fun other =>
      mem_iff_of_readField members (.required "side") rfl side other sideHeld
    have written := OrderSide.sameUpToOrder_iff side order.side sideRead
    refine and_congr_right fun _ => ?_
    simp only [List.map_cons, List.map_nil, List.forall₂_cons, List.Forall₂.nil, written,
      Value.sameUpToOrder_of_asStr _ _ pairRead, Value.sameUpToOrder_of_readUInt64 _ _ priceRead,
      Value.sameUpToOrder_of_asStr _ _ quantityRead, Value.sameUpToOrder_of_asStr _ _ venueRead,
      true_and, and_true]
    exact ⟨fun text other inside => (only other).mp inside ▸ text,
      fun each => each side ((only side).mpr rfl)⟩
  | _ => exact iff_of_false (Value.not_sameUpToOrder_object _ _ (by simp)) id

/-- And so is an intent. -/
theorem AgentIntent.sameUpToOrder_iff (value : Value) (intent : AgentIntent)
    (read : AgentIntent.fromJson value = some intent) :
    intent.payload.SameUpToOrder value ↔ AgentIntent.Verbatim value := by
  cases value with
  | object members =>
    obtain ⟨intentId, agentHandle, action, order, fieldsRead, idRead, handleRead, actionRead,
      orderRead⟩ := AgentIntent.fromJson_eq_some _ intent read
    rw [AgentIntent.payload, sameUpToOrder_record_iff AgentIntent.fields (by decide)
      AgentIntent.fields_unique _ members rfl _ fieldsRead, AgentIntent.Verbatim]
    have held := (readRecord_object_eq_some_iff _ members _).mp fieldsRead
    simp only [AgentIntent.fields, List.forall₂_cons, List.Forall₂.nil, and_true] at held
    obtain ⟨-, -, -, orderHeld⟩ := held
    have only := fun other =>
      mem_iff_of_readField members (.required "order") rfl order other orderHeld
    have written := LimitOrder.sameUpToOrder_iff order intent.order orderRead
    refine and_congr_right fun _ => ?_
    simp only [List.map_cons, List.map_nil, List.forall₂_cons, List.Forall₂.nil, written,
      Value.sameUpToOrder_of_asStr _ _ idRead, Value.sameUpToOrder_of_asStr _ _ handleRead,
      Value.sameUpToOrder_of_asStr _ _ actionRead, true_and, and_true]
    exact ⟨fun verbatim other inside => (only other).mp inside ▸ verbatim,
      fun each => each order ((only order).mpr rfl)⟩
  | _ => exact iff_of_false (Value.not_sameUpToOrder_object _ _ (by simp)) id

/-! ### What is posted and what is signed -/

theorem Framework.extractJson_eq_some {Content : Type} (framework : Framework)
    (fromJson : Value → Option Content) (request : Request) (content : Content)
    (extracted : framework.extractJson fromJson request = some content) :
    ∃ body, framework.fromBody request.body = some body ∧ fromJson body = some content := by
  unfold Framework.extractJson at extracted
  split at extracted
  · cases extracted
  · split at extracted
    · exact Option.bind_eq_some_iff.mp extracted
    · cases extracted

/-- Whenever an execution is answered with an envelope, the intent of the envelope is the posted
document, up to the order of members, exactly when that document is verbatim. -/
theorem posted_intent_signed_iff (framework : Framework) (primitives : Primitives)
    (envs : Nat → Env) (state : HandoffState) (request : Request)
    (post : request.method = "POST") (execution : request.uri = "/execute")
    (envelope : OneShotEnvelope)
    (answered : (handle framework primitives envs state request).phase =
      .answer ⟨200, .envelope envelope⟩) :
    ∃ body, framework.fromBody request.body = some body ∧
      (envelope.params.intent.SameUpToOrder body ↔ AgentIntent.Verbatim body) := by
  obtain ⟨response, kinds, ends, reached, -⟩ :=
    handle_ends framework primitives envs state request post execution
  have same : response = ⟨200, .envelope envelope⟩ :=
    Phase.answer.inj (reached.symm.trans answered)
  have carried : response.envelope = some envelope := by
    rw [same]
    rfl
  obtain ⟨receipt, intent, credential, extracted, rfl⟩ :=
    ends_released framework primitives _ state request response kinds ends envelope carried
  obtain ⟨body, parsed, read⟩ := framework.extractJson_eq_some _ request intent extracted
  exact ⟨body, parsed, AgentIntent.sameUpToOrder_iff body intent read⟩

/-! ### Instances -/

/-- An order of intent `a`. -/
def plainIntent : AgentIntent :=
  { AgentIntent.mockEthLimitOrder plainEnv.ulid with intentId := "a" }

/-- Its payload with one more member. -/
def annotatedPayload : Value := .object [
  ("intent_id", .string plainIntent.intentId),
  ("agent_handle", .string plainIntent.agentHandle),
  ("action", .string plainIntent.action),
  ("order", plainIntent.order.toJson),
  ("note", .null)]

/-- A body that reads as the intent is executed, with its receipt. -/
theorem executionOf_released (body : Value) (unique : body.UniqueKeys)
    (integer : body.IntegerOnly) (shallow : body.depth < 128)
    (small : body.byteLength ≤ maxRequestBodyBytes)
    (read : AgentIntent.fromJson body = some plainIntent) :
    ∃ marked credential, (handle plainFramework (markingPrimitives marked) (fun _ => plainEnv)
      (settledSystem (.cleared plainEnv.ulid "a" 7)).state (executionOf body)).phase =
        .answer ⟨200, .envelope (.package plainIntent.payload credential
          (.cleared plainEnv.ulid "a" 7))⟩ := by
  obtain ⟨marked, ideal⟩ := exists_idealMint plainIntent 7
  have extracted := (executionOf_extracts body unique integer shallow small).trans read
  have header : bodilessExecution.headerStr? intentHeader = some "a" := by decide
  have presented : bodilessExecution.headerStr? receiptHeader = some plainEnv.ulid.toString := by
    decide
  obtain ⟨canonical, chaos, answered⟩ := handle_paid plainFramework (markingPrimitives marked)
    (fun _ => plainEnv) (settledSystem (.cleared plainEnv.ulid "a" 7)).state (executionOf body)
    plainIntent (.cleared plainEnv.ulid "a" 7) rfl rfl header presented extracted rfl rfl ideal
  exact ⟨marked, _, answered⟩

/-- The order of intent `a` is signed as posted. -/
theorem posted_intent_signed_iff_plain :
    ∃ primitives envelope, (handle plainFramework primitives (fun _ => plainEnv)
      (settledSystem (.cleared plainEnv.ulid "a" 7)).state
        (executionOf plainIntent.payload)).phase = .answer ⟨200, .envelope envelope⟩ ∧
      ∃ body, plainFramework.fromBody (executionOf plainIntent.payload).body = some body ∧
        (envelope.params.intent.SameUpToOrder body ↔ AgentIntent.Verbatim body) := by
  obtain ⟨marked, credential, answered⟩ := executionOf_released plainIntent.payload
    plainIntent.payload_uniqueKeys plainIntent.payload_integerOnly plainIntent.payload_depth
    (by decide +kernel) plainIntent.fromJson_payload
  exact ⟨markingPrimitives marked, _, answered, posted_intent_signed_iff plainFramework
    (markingPrimitives marked) (fun _ => plainEnv) _ (executionOf plainIntent.payload) rfl rfl _
    answered⟩

/-- With one more member it is executed as well, and that member is not signed. -/
theorem posted_member_dropped :
    ¬ ∀ (framework : Framework) (primitives : Primitives) (envs : Nat → Env)
      (actions : List Action) (final : System) (request : Request) (body : Value)
      (envelope : OneShotEnvelope), framework.ReadsBack →
      Run (System.Step framework primitives) (.start .mock) actions final →
      request.method = "POST" → request.uri = "/execute" →
      framework.fromBody request.body = some body →
      (handle framework primitives envs final.state request).phase =
        .answer ⟨200, .envelope envelope⟩ →
      envelope.params.intent.SameUpToOrder body := by
  intro verbatim
  have unique : annotatedPayload.UniqueKeys := by
    simp [annotatedPayload, LimitOrder.toJson, OrderSide.toJson, Value.ofUInt64]
  have integer : annotatedPayload.IntegerOnly := by
    simp [annotatedPayload, LimitOrder.toJson, OrderSide.toJson, Value.ofUInt64]
  have shallow : annotatedPayload.depth < 128 := by
    simp [annotatedPayload, LimitOrder.toJson, OrderSide.toJson, Value.ofUInt64, Value.depth,
      Value.depthMembers]
  have read : AgentIntent.fromJson annotatedPayload = some plainIntent := rfl
  obtain ⟨marked, credential, answered⟩ := executionOf_released annotatedPayload unique integer
    shallow (by decide +kernel) read
  have reached := run_settledSystem plainFramework (markingPrimitives marked)
    plainFramework_readsBack "a" plainEnv (by decide)
  have same := verbatim plainFramework (markingPrimitives marked) (fun _ => plainEnv) _ _
    (executionOf annotatedPayload) annotatedPayload _ plainFramework_readsBack reached rfl rfl
    (plainFramework_readsBack.body annotatedPayload unique integer shallow) answered
  have listed := ((AgentIntent.sameUpToOrder_iff annotatedPayload plainIntent read).mp same).1
  exact absurd (listed ("note", .null) (by simp)) (by decide)

end Hammurabi
