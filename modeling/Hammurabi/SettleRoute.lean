/-
This file compares the bridge's settlement with the route it leads to.

The bridge does not forward the parameters of a settlement: it takes the text under
the intent id, or the empty one, and puts a body of its own around it. The route reads
a record from the parameters themselves. So the payment of a client never reaches the
backend through the bridge, and parameters the route refuses settle the intent with
the empty id. The two agree exactly on parameters that are an intent id and nothing the
route reads besides, and where the id alone is over the limit of a body.
-/

import Hammurabi.System

namespace Hammurabi

open Json Unicode

/-! ### The two requests -/

/-- `POST /x402/settle` with a document for its body. -/
def settleCall (body : Value) : RouterCall := ⟨"POST", "/x402/settle", [], some body⟩

/-- An invocation of the bridge's settlement. -/
def settleInvocation (requestId : String) (params : Value) : OkxInvocation where
  capability := "payment_settlement"
  requestId := requestId
  params := params

/-- The body the bridge puts around the intent id. -/
def rebuiltBody (params : Value) : Value :=
  .object [("intent_id", .string (textUnder params "intent_id"))]

theorem settleInvocation_call (requestId : String) (params : Value) :
    (settleInvocation requestId params).call = some (settleCall (rebuiltBody params)) := rfl

/-- The settlement request that reaches the gate's backend; none if the body is refused. -/
def RouterCall.settles (framework : Framework) (call : RouterCall) : Option SettleRequest :=
  call.request?.bind (framework.extractJson SettleRequest.fromJson)

/-! ### What is relied on of the parser -/

/-- A document as the parser's own type has them: keys are unique, and each number is written so
that it reads back. -/
def IsDocument (value : Value) : Prop :=
  value.UniqueKeys ∧ ∀ number ∈ value.numbers, NumberReadsBack number

/-- What is relied on of the typed parser, whatever else a document holds: a settlement request
without a payment is read from the text of its document, members it does not know are ignored, and
what is read has the document's id and a payment when the document has one. -/
structure Framework.ReadsSettlements (framework : Framework) : Prop where
  contentType : framework.jsonContentType (utf8 "application/json".toList) = true
  unpaid : ∀ params id, IsDocument params → SettleRequest.fromJson params = some ⟨id, none⟩ →
    (framework.fromBody (utf8 params.text)).bind SettleRequest.fromJson = some ⟨id, none⟩
  faithful : ∀ params req, IsDocument params →
    (framework.fromBody (utf8 params.text)).bind SettleRequest.fromJson = some req →
      ∃ payment, SettleRequest.fromJson params = some ⟨req.intentId, payment⟩ ∧
        (req.payment = none ↔ payment = none)

/-- The reader of compact texts does so. -/
theorem plainFramework_readsSettlements : plainFramework.ReadsSettlements := by
  have read : ∀ params, IsDocument params →
      plainFramework.fromBody (utf8 params.text) = some params := by
    intro params document
    change (decodeUtf8 (utf8 params.text)).bind Json.read = some params
    rw [decodeUtf8_utf8, Option.bind_some]
    exact read_text_of_numbers params document.2
  refine ⟨plainFramework_readsBack.contentType, fun params id document reads => ?_,
    fun params req document reads => ?_⟩
  · rw [read params document, Option.bind_some, reads]
  · rw [read params document, Option.bind_some] at reads
    exact ⟨req.payment, reads, Iff.rfl⟩

/-! ### Reading a settlement request -/

/-- The payment an object has; null is none. -/
def paymentUnder (members : List (String × Value)) : Option Value :=
  match (members.lookup "payment").getD .null with
  | .null => none
  | payment => some payment

theorem paymentUnder_eq_none_iff (members : List (String × Value)) :
    paymentUnder members = none ↔
      members.lookup "payment" = none ∨ members.lookup "payment" = some .null := by
  unfold paymentUnder
  cases members.lookup "payment" with
  | none => simp
  | some payment => cases payment <;> simp

theorem SettleRequest.fromJson_object (members : List (String × Value))
    (unique : (members.map Prod.fst).Nodup) :
    SettleRequest.fromJson (.object members) =
      ((members.lookup "intent_id").bind Value.asStr).map fun id => ⟨id, paymentUnder members⟩ := by
  have intentId : readField members (Field.required "intent_id") = members.lookup "intent_id" := by
    rw [readField_eq_lookup members unique]
    exact Option.or_none
  have payment : readField members (Field.optional "payment") =
      some ((members.lookup "payment").getD .null) := by
    rw [readField_eq_lookup members unique]
    change (members.lookup "payment").or (some .null) = _
    cases members.lookup "payment" with
    | none => rfl
    | some payment => rfl
  simp only [SettleRequest.fromJson, SettleRequest.fields, readRecord, List.mapM_cons,
    List.mapM_nil, intentId, payment]
  cases members.lookup "intent_id" with
  | none => rfl
  | some id =>
    cases text : id.asStr with
    | none => simp only [Option.bind_some, Option.bind_eq_bind, text, Option.bind_none,
        Option.map_none, Option.pure_def]
    | some text' =>
      simp only [Option.bind_some, Option.bind_eq_bind, text, Option.map_some, Option.pure_def]
      rfl

/-- Parameters that are an intent id and nothing the route reads besides. -/
def Unpaid (params : Value) : Prop :=
  (∃ members id, params = .object members ∧ members.lookup "intent_id" = some (.string id) ∧
    (members.lookup "payment" = none ∨ members.lookup "payment" = some .null)) ∨
  params = .array [.string ""] ∨ params = .array [.string "", .null]

/-- These are the parameters the route reads as the text under the intent id, without a payment. -/
theorem fromJson_unpaid_iff (params : Value) (unique : params.UniqueKeys) :
    SettleRequest.fromJson params = some ⟨textUnder params "intent_id", none⟩ ↔ Unpaid params := by
  cases params with
  | object members =>
    rw [Value.uniqueKeys_object] at unique
    rw [SettleRequest.fromJson_object members unique.1]
    have shape : Unpaid (.object members) ↔
        (∃ id, members.lookup "intent_id" = some (.string id)) ∧ paymentUnder members = none := by
      rw [paymentUnder_eq_none_iff]
      simp [Unpaid]
    rw [shape]
    change _ = some (SettleRequest.mk (((members.lookup "intent_id").bind Value.asStr).getD "")
      none) ↔ _
    cases members.lookup "intent_id" with
    | none => simp
    | some value =>
      cases value <;> simp [Value.asStr]
  | array items =>
    change SettleRequest.fromJson (.array items) = some ⟨"", none⟩ ↔ _
    rcases items with _ | ⟨id, _ | ⟨payment, _ | ⟨more, rest⟩⟩⟩
    · simp [SettleRequest.fromJson, SettleRequest.fields, readRecord, readPositions,
        Field.required, Unpaid]
    · simp [SettleRequest.fromJson, SettleRequest.fields, readRecord, readPositions,
        Field.required, Field.optional, Unpaid, Option.bind_eq_some_iff,
        asStr_eq_some_iff]
    · cases payment <;> simp [SettleRequest.fromJson, SettleRequest.fields, readRecord,
        readPositions, Field.required, Field.optional, Unpaid, Option.bind_eq_some_iff,
        asStr_eq_some_iff]
    · simp [SettleRequest.fromJson, SettleRequest.fields, readRecord, readPositions,
        Field.required, Unpaid]
  | null => simp [SettleRequest.fromJson, readRecord, Unpaid]
  | bool value => simp [SettleRequest.fromJson, readRecord, Unpaid]
  | number value => simp [SettleRequest.fromJson, readRecord, Unpaid]
  | string value => simp [SettleRequest.fromJson, readRecord, Unpaid]

/-! ### Bodies and their limit -/

/-- The body the bridge puts together is a document that reads as its id. -/
theorem rebuiltBody_spec (params : Value) :
    IsDocument (rebuiltBody params) ∧
      SettleRequest.fromJson (rebuiltBody params) =
        some ⟨textUnder params "intent_id", none⟩ := by
  refine ⟨⟨by simp [rebuiltBody], fun number member => ?_⟩, rfl⟩
  rw [rebuiltBody, Value.mem_numbers_object] at member
  obtain ⟨other, single, inside⟩ := member
  rw [List.mem_singleton.mp single] at inside
  cases inside

/-- It is within the limit when the parameters are. -/
theorem byteLength_rebuiltBody (params : Value)
    (small : params.byteLength ≤ maxRequestBodyBytes) :
    (rebuiltBody params).byteLength ≤ maxRequestBodyBytes := by
  have empty : (Value.object [("intent_id", .string "")]).byteLength ≤ maxRequestBodyBytes := by
    decide +kernel
  unfold rebuiltBody textUnder
  cases params with
  | object members =>
    change (Value.object [("intent_id",
      .string (((members.lookup "intent_id").bind Value.asStr).getD ""))]).byteLength ≤ _
    cases found : members.lookup "intent_id" with
    | none => exact empty
    | some value =>
      cases value with
      | string text =>
        have held : ("intent_id", Value.string text) ∈ members := by
          obtain ⟨front, back, rfl, -⟩ := List.lookup_eq_some_iff.mp found
          exact List.mem_append_right _ List.mem_cons_self
        exact (byteLength_member_le members _ held).trans small
      | _ => exact empty
  | _ => exact empty

/-- A body reaches the backend when it is within the limit and its text reads as a settlement
request. -/
theorem settles_settleCall (framework : Framework) (readsSettlements : framework.ReadsSettlements)
    (body : Value) :
    (settleCall body).settles framework =
      if body.byteLength ≤ maxRequestBodyBytes then
        (framework.fromBody (utf8 body.text)).bind SettleRequest.fromJson
      else none := by
  obtain ⟨request, built⟩ := exists_buildRequest "POST" "/x402/settle" [] body
    (fun header member => nomatch member)
  have known : (settleCall body).request? = some request := built
  rw [RouterCall.settles, known, Option.bind_some]
  exact extractJson_buildRequest_eq framework _ _ _ _ _ _ built rfl readsSettlements.contentType

/-- The bridge's settlement reaches the backend with the text under the intent id and no payment,
unless that text is over the limit. -/
theorem settles_rebuiltBody (framework : Framework)
    (readsSettlements : framework.ReadsSettlements) (params : Value) :
    (settleCall (rebuiltBody params)).settles framework =
      if (rebuiltBody params).byteLength ≤ maxRequestBodyBytes then
        some ⟨textUnder params "intent_id", none⟩
      else none := by
  obtain ⟨document, reads⟩ := rebuiltBody_spec params
  rw [settles_settleCall framework readsSettlements, readsSettlements.unpaid _ _ document reads]

/-! ### The state they leave -/

section State

variable (framework : Framework) (primitives : Primitives) (envs : Nat → Env)
  (state : HandoffState)

/-- Driving a request leaves the state handling it leaves. -/
theorem oneshotJson_state (call : RouterCall) (request : Request)
    (built : call.request? = some request) :
    (oneshotJson framework primitives envs state call).1 =
      (handle framework primitives envs state request).state := by
  obtain ⟨response, answered⟩ := handle_answers framework primitives envs state request
  rw [oneshotJson, built]
  dsimp only
  rw [answered]

/-- What handling a settlement leaves depends on the request only through what it extracts as. -/
theorem handle_settle_congr (request other : Request)
    (routed : handoffRouter request = .settle request)
    (routed' : handoffRouter other = .settle other)
    (same : framework.extractJson SettleRequest.fromJson request =
      framework.extractJson SettleRequest.fromJson other) :
    (handle framework primitives envs state request).state =
      (handle framework primitives envs state other).state := by
  rw [handle, handle, routed, routed', maxSteps,
    drive_succ framework primitives envs 15 0 state (.settle request) (Nat.zero_lt_succ 4),
    drive_succ framework primitives envs 15 0 state (.settle other) (Nat.zero_lt_succ 4),
    advance, advance, x402Settle, x402Settle, same]
  cases framework.extractJson SettleRequest.fromJson other with
  | none =>
    dsimp only
    rw [drive_answer, drive_answer]
  | some req => rfl

/-- So does what a settlement driven in-process leaves. -/
theorem oneshotJson_settle_congr (body other : Value)
    (same : (settleCall body).settles framework = (settleCall other).settles framework) :
    (oneshotJson framework primitives envs state (settleCall body)).1 =
      (oneshotJson framework primitives envs state (settleCall other)).1 := by
  have request : ∀ json : Value, ∃ request, (settleCall json).request? = some request ∧
      handoffRouter request = .settle request := by
    intro json
    obtain ⟨request, built⟩ := exists_buildRequest "POST" "/x402/settle" [] json
      (fun header member => nomatch member)
    obtain ⟨method, uri, -⟩ := buildRequest_eq_some _ _ _ _ _ built
    exact ⟨request, built, handoffRouter_settle request method uri⟩
  obtain ⟨first, built, routed⟩ := request body
  obtain ⟨second, built', routed'⟩ := request other
  rw [RouterCall.settles, RouterCall.settles, built, built', Option.bind_some,
    Option.bind_some] at same
  rw [oneshotJson_state framework primitives envs state _ first built,
    oneshotJson_state framework primitives envs state _ second built',
    handle_settle_congr framework primitives envs state first second routed routed' same]

end State

/-! ### The law of the route -/

/-- A settlement through the bridge has the effect of the route on the same parameters. -/
structure SameSettlement (framework : Framework) (primitives : Primitives) (params : Value) :
    Prop where
  /-- The same id and the same payment reach the backend, and what the one refuses as malformed the
  other does. -/
  reaches : ∀ requestId, ∃ call, (settleInvocation requestId params).call = some call ∧
    call.settles framework = (settleCall params).settles framework
  /-- Whatever the backend and the environment, the two leave the same treasury and feed. -/
  leaves : ∀ requestId envs state,
    (dispatchOkx framework primitives envs state (settleInvocation requestId params)).1 =
      (oneshotJson framework primitives envs state (settleCall params)).1

/-- A settlement through the bridge has the effect of the route exactly when the id alone is over
the limit of a body, or the parameters are within it and are an intent id and nothing the route
reads besides. -/
theorem sameSettlement_iff (framework : Framework) (primitives : Primitives)
    (readsSettlements : framework.ReadsSettlements) (params : Value)
    (document : IsDocument params) :
    SameSettlement framework primitives params ↔
      maxRequestBodyBytes < (rebuiltBody params).byteLength ∨
        (params.byteLength ≤ maxRequestBodyBytes ∧ Unpaid params) := by
  have unpaid := fromJson_unpaid_iff params document.1
  have equal : (settleCall (rebuiltBody params)).settles framework =
      (settleCall params).settles framework ↔
        maxRequestBodyBytes < (rebuiltBody params).byteLength ∨
          (params.byteLength ≤ maxRequestBodyBytes ∧ Unpaid params) := by
    rw [settles_rebuiltBody framework readsSettlements,
      settles_settleCall framework readsSettlements]
    by_cases small : params.byteLength ≤ maxRequestBodyBytes
    · have rebuilt := byteLength_rebuiltBody params small
      rw [if_pos small, if_pos rebuilt, ← unpaid]
      constructor
      · intro same
        obtain ⟨payment, reads, payments⟩ := readsSettlements.faithful params _ document same.symm
        rw [payments.mp rfl] at reads
        exact .inr ⟨small, reads⟩
      · rintro (exceeds | ⟨-, reads⟩)
        · exact absurd rebuilt (Nat.not_le_of_lt exceeds)
        · exact (readsSettlements.unpaid params _ document reads).symm
    · rw [if_neg small]
      by_cases rebuilt : (rebuiltBody params).byteLength ≤ maxRequestBodyBytes
      · rw [if_pos rebuilt]
        refine iff_of_false nofun ?_
        rintro (exceeds | ⟨within, -⟩)
        · exact absurd rebuilt (Nat.not_le_of_lt exceeds)
        · exact small within
      · rw [if_neg rebuilt]
        exact iff_of_true rfl (.inl (Nat.lt_of_not_le rebuilt))
  rw [← equal]
  constructor
  · intro law
    obtain ⟨call, known, same⟩ := law.reaches ""
    cases (settleInvocation_call "" params).symm.trans known
    exact same
  · intro same
    refine ⟨fun requestId => ⟨_, settleInvocation_call requestId params, same⟩,
      fun requestId envs state => ?_⟩
    rw [← oneshotJson_settle_congr framework primitives envs state _ _ same, dispatchOkx,
      settleInvocation_call]

/-- An intent id alone settles alike. -/
theorem sameSettlement_iff_id :
    SameSettlement plainFramework (markingPrimitives []) (.object [("intent_id", .string "a")]) :=
  (sameSettlement_iff plainFramework (markingPrimitives []) plainFramework_readsSettlements _
    (rebuiltBody_spec (.object [("intent_id", .string "a")])).1).mpr
    (.inr ⟨by decide +kernel, .inl ⟨_, "a", rfl, rfl, .inl rfl⟩⟩)

/-- Parameters without an intent id are refused by the route, and settle the empty id through the
bridge; a payment reaches the backend through the route, and not through the bridge. -/
theorem settle_route_differs :
    let missing : Value := .object []
    let paid : Value := .object [("intent_id", .string "a"), ("payment", .object [])]
    plainFramework.ReadsSettlements ∧ IsDocument missing ∧ IsDocument paid ∧
      (settleCall missing).settles plainFramework = none ∧
      (settleCall (rebuiltBody missing)).settles plainFramework = some ⟨"", none⟩ ∧
      (settleCall paid).settles plainFramework = some ⟨"a", some (.object [])⟩ ∧
      (settleCall (rebuiltBody paid)).settles plainFramework = some ⟨"a", none⟩ ∧
      ¬ SameSettlement plainFramework (markingPrimitives []) missing ∧
      ¬ SameSettlement plainFramework (markingPrimitives []) paid := by
  intro missing paid
  have reads := plainFramework_readsSettlements
  have read : ∀ params : Value, params.IntegerOnly →
      plainFramework.fromBody (utf8 params.text) = some params := read_utf8_text
  have document : ∀ params : Value, params.UniqueKeys → params.IntegerOnly → IsDocument params :=
    fun params unique integer => ⟨unique, fun number member => numberReadsBack_of_integerOnly number
      ((Value.integerOnly_iff_numbers params).mp integer number member)⟩
  have routeMissing : (settleCall missing).settles plainFramework = none := by
    rw [settles_settleCall plainFramework reads, read missing (by simp [missing]), Option.bind_some]
    exact ite_self _
  have bridgeMissing : (settleCall (rebuiltBody missing)).settles plainFramework =
      some ⟨"", none⟩ := by
    rw [settles_rebuiltBody plainFramework reads]
    exact if_pos (by decide +kernel)
  have routePaid : (settleCall paid).settles plainFramework =
      some ⟨"a", some (.object [])⟩ := by
    rw [settles_settleCall plainFramework reads, read paid (by simp [paid]), Option.bind_some]
    exact if_pos (by decide +kernel)
  have bridgePaid : (settleCall (rebuiltBody paid)).settles plainFramework = some ⟨"a", none⟩ := by
    rw [settles_rebuiltBody plainFramework reads]
    exact if_pos (by decide +kernel)
  refine ⟨reads, document missing (by simp [missing]) (by simp [missing]),
    document paid (by simp [paid]) (by simp [paid]), routeMissing, bridgeMissing, routePaid,
    bridgePaid, fun law => ?_, fun law => ?_⟩
  · obtain ⟨call, known, same⟩ := law.reaches ""
    cases (settleInvocation_call "" missing).symm.trans known
    rw [bridgeMissing, routeMissing] at same
    cases same
  · obtain ⟨call, known, same⟩ := law.reaches ""
    cases (settleInvocation_call "" paid).symm.trans known
    rw [bridgePaid, routePaid] at same
    cases same

end Hammurabi
