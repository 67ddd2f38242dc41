/-
This file is the client of a live facilitator.

A settlement has the facilitator verify the client's payment, then settle it, and gives a
receipt when the second is confirmed. Any number of settlements run side by side, each waiting
for its own replies. What the facilitator answers is left open: it may depend on all it was
asked before, and a reply may be lost on its way back.

Whatever it answers, nothing is put to settlement that it has not found valid, and each
settlement it confirms is one receipt, one reply still under way, or one reply lost. Where its
answers depend on the request alone, each call gives what the gate's backend gives in one go.
-/

import Mathlib.Data.List.Perm.Subperm
import Hammurabi.Library.Derive
import Hammurabi.Library.Outcome
import Hammurabi.Library.Runs
import Hammurabi.X402

namespace Hammurabi

open Json Outcome Runs

/-! ### The configuration -/

/-- Live facilitator configuration. -/
structure FacilitatorConfig where
  baseUrl : String
  network : String
  asset : String
  payTo : String
  scheme : String
  resource : String
  apiKey : Option String

/-- The payment requirements a payment is checked against. -/
structure PaymentRequirements where
  scheme : String
  network : String
  maxAmountRequired : String
  resource : String
  description : String
  mimeType : String
  payTo : String
  maxTimeoutSeconds : UInt64
  asset : String
  extra : Option Value

/-- The members of a map are written in the order of their names. -/
def PaymentRequirements.toJson (requirements : PaymentRequirements) : Value := .object (
  [("asset", .string requirements.asset),
    ("description", .string requirements.description)] ++
  (requirements.extra.map fun extra => ("extra", extra)).toList ++
  [("maxAmountRequired", .string requirements.maxAmountRequired),
    ("maxTimeoutSeconds", .ofUInt64 requirements.maxTimeoutSeconds),
    ("mimeType", .string requirements.mimeType),
    ("network", .string requirements.network),
    ("payTo", .string requirements.payTo),
    ("resource", .string requirements.resource),
    ("scheme", .string requirements.scheme)])

def FacilitatorConfig.requirements (config : FacilitatorConfig) : PaymentRequirements where
  scheme := config.scheme
  network := config.network
  maxAmountRequired := toString executionFeeMicroUsdc.toNat
  resource := config.resource
  description := "Hammurabi Handoff — credential mint fee"
  mimeType := "application/json"
  payTo := config.payTo
  maxTimeoutSeconds := 60
  asset := config.asset
  extra := none

/-- The two endpoints of a facilitator. -/
inductive Endpoint where
  | verify
  | settle
  deriving DecidableEq, Repr

def Endpoint.path : Endpoint → String
  | .verify => "/verify"
  | .settle => "/settle"

/-- A text without the slashes it ends in. -/
def trimEndSlashes (text : String) : String :=
  String.ofList (text.toList.reverse.dropWhile (· = '/')).reverse

/-- What is posted to a facilitator. -/
structure FacilitatorRequest where
  url : String
  bearer : Option String
  body : Value

/-- The request that puts a payment to an endpoint. -/
def FacilitatorConfig.request (config : FacilitatorConfig) (endpoint : Endpoint)
    (payment : Value) : FacilitatorRequest where
  url := trimEndSlashes config.baseUrl ++ endpoint.path
  bearer := config.apiKey
  body := .object [("paymentPayload", payment),
    ("paymentRequirements", config.requirements.toJson), ("x402Version", .ofUInt64 1)]

/-! ### What it answers -/

/-- What comes back of a request: nothing, or a status and a body that may not read as a
document. -/
inductive FacilitatorReply where
  | failed (why : String)
  | answered (status : Nat) (body : Except String Value)

def readBool : Value → Option Bool
  | .bool value => some value
  | _ => none

/-- A text that may be missing. -/
def readText? : Value → Option (Option String)
  | .null => some none
  | .string text => some (some text)
  | _ => none

def VerifyResponse.fields : List Field := [.required "isValid", .optional "invalidReason"]

def VerifyResponse.fromJson (value : Value) : Option VerifyResponse := do
  let [isValid, invalidReason] ← readRecord VerifyResponse.fields value | none
  return { isValid := ← readBool isValid, invalidReason := ← readText? invalidReason }

def SettleResponse.fields : List Field :=
  [.required "success", .optional "transaction", .optional "errorReason"]

def SettleResponse.fromJson (value : Value) : Option SettleResponse := do
  let [success, transaction, errorReason] ← readRecord SettleResponse.fields value | none
  return {
    success := ← readBool success
    transaction := ← readText? transaction
    errorReason := ← readText? errorReason }

/-- The texts of the client library: the reason of a status, and why a document is not read as the
type asked for. -/
structure Wire where
  status : Nat → String
  typeError : Value → String

/-- Read a reply as the answer of an endpoint. -/
def FacilitatorReply.read {Answer : Type} (wire : Wire) (endpoint : Endpoint)
    (fromJson : Value → Option Answer) : FacilitatorReply → Except SettlementError Answer
  | .failed why => .error (.transport why)
  | .answered status body =>
    if status < 200 ∨ 300 ≤ status then
      .error (.transport s!"facilitator {endpoint.path} → HTTP {wire.status status}")
    else
      match body with
      | .error why => .error (.transport why)
      | .ok document =>
        match fromJson document with
        | none => .error (.transport (wire.typeError document))
        | some answer => .ok answer

/-! ### One settlement -/

/-- Where a settlement stands: about to send a request, with a reply on its way, or done. -/
inductive SettleStage where
  | verify
  | verifyReply (reply : FacilitatorReply)
  | settle
  | settleReply (reply : FacilitatorReply)
  | done (result : Except SettlementError PaymentReceipt)

/-- A call of `settle_intent`. -/
structure SettleCall where
  intentId : String
  payment : Value
  now : Int64
  stage : SettleStage

namespace SettleCall

/-- The endpoint a call is about to send to. -/
def endpoint? (call : SettleCall) : Option Endpoint :=
  match call.stage with
  | .verify => some .verify
  | .settle => some .settle
  | _ => none

/-- The facilitator has answered what the call sent. -/
def answered (call : SettleCall) (reply : FacilitatorReply) : SettleCall :=
  match call.stage with
  | .verify => { call with stage := .verifyReply reply }
  | .settle => { call with stage := .settleReply reply }
  | _ => call

/-- The reply on its way to a call. -/
def reply? (call : SettleCall) : Option FacilitatorReply :=
  match call.stage with
  | .verifyReply reply => some reply
  | .settleReply reply => some reply
  | _ => none

/-- The reply is lost, and the call is told why. -/
def lose (call : SettleCall) (why : String) : SettleCall :=
  match call.stage with
  | .verifyReply _ => { call with stage := .verifyReply (.failed why) }
  | .settleReply _ => { call with stage := .settleReply (.failed why) }
  | _ => call

/-- What the answer to the second request makes of a call. -/
def concluded (call : SettleCall) (ulid : Ulid) :
    Except SettlementError SettleResponse → Except SettlementError PaymentReceipt
  | .error refusal => .error refusal
  | .ok settle =>
    if !settle.success then
      .error (.rejected (settle.errorReason.getD "facilitator declined settlement"))
    else .ok (.cleared ulid call.intentId call.now)

/-- A call gets its reply and goes on. -/
def resume (wire : Wire) (ulid : Ulid) (call : SettleCall) : SettleCall :=
  match call.stage with
  | .verifyReply reply =>
    match reply.read wire .verify VerifyResponse.fromJson with
    | .error refusal => { call with stage := .done (.error refusal) }
    | .ok verify =>
      if !verify.isValid then
        { call with stage := .done (.error (.rejected
          (verify.invalidReason.getD "payment failed verification"))) }
      else { call with stage := .settle }
  | .settleReply reply => { call with
      stage := .done (call.concluded ulid (reply.read wire .settle SettleResponse.fromJson)) }
  | _ => call

end SettleCall

/-! ### Settlements side by side -/

/-- What the facilitator was asked and how it answered. -/
structure Exchange where
  endpoint : Endpoint
  payment : Value
  reply : FacilitatorReply

/-- The calls under way or done, all exchanges with the facilitator in its order, and the payments
whose confirmation was lost. The last two are kept for the statements. -/
structure Settlements where
  calls : List SettleCall
  exchanges : List Exchange
  lost : List Value

/-- What happens next: a settlement is asked for, the facilitator answers a request, a reply is
lost, or a call gets its reply. -/
inductive SettlementAction where
  | call (intentId : String) (payment : Value) (now : Int64)
  | serve (index : Nat) (reply : FacilitatorReply)
  | lose (index : Nat) (why : String)
  | resume (index : Nat) (ulid : Ulid)

/-- The facilitator found the payment valid. -/
def FacilitatorReply.validates (wire : Wire) (reply : FacilitatorReply) : Bool :=
  match reply.read wire .verify VerifyResponse.fromJson with
  | .ok verify => verify.isValid
  | .error _ => false

/-- The facilitator confirmed the settlement. -/
def FacilitatorReply.confirms (wire : Wire) (reply : FacilitatorReply) : Bool :=
  match reply.read wire .settle SettleResponse.fromJson with
  | .ok settle => settle.success
  | .error _ => false

namespace Exchange

variable (wire : Wire)

/-- The payment found valid. -/
def validated (exchange : Exchange) : List Value :=
  if exchange.endpoint = .verify ∧ exchange.reply.validates wire = true then [exchange.payment]
  else []

/-- The payment put to settlement. -/
def charged (exchange : Exchange) : List Value :=
  if exchange.endpoint = .settle then [exchange.payment] else []

/-- The payment whose settlement was confirmed. -/
def confirmed (exchange : Exchange) : List Value :=
  if exchange.endpoint = .settle ∧ exchange.reply.confirms wire = true then [exchange.payment]
  else []

end Exchange

namespace SettleCall

variable (wire : Wire)

/-- The payment a call may still put to settlement. -/
def cleared (call : SettleCall) : List Value :=
  match call.stage with
  | .verifyReply reply => if reply.validates wire = true then [call.payment] else []
  | .settle => [call.payment]
  | _ => []

/-- The payment whose confirmation is on its way to a call. -/
def unread (call : SettleCall) : List Value :=
  match call.stage with
  | .settleReply reply => if reply.confirms wire = true then [call.payment] else []
  | _ => []

/-- The payment a call gave a receipt for. -/
def paid (call : SettleCall) : List Value :=
  match call.stage with
  | .done (.ok _) => [call.payment]
  | _ => []

end SettleCall

namespace Settlements

variable (wire : Wire)

def start : Settlements := ⟨[], [], []⟩

/-- One step; nothing where there is nothing to do. -/
def step (settlements : Settlements) : SettlementAction → Option Settlements
  | .call intentId payment now => some { settlements with
      calls := settlements.calls ++ [⟨intentId, payment, now, .verify⟩] }
  | .serve index reply => do
    let call ← settlements.calls[index]?
    let endpoint ← call.endpoint?
    return { settlements with
      calls := settlements.calls.set index (call.answered reply)
      exchanges := settlements.exchanges ++ [⟨endpoint, call.payment, reply⟩] }
  | .lose index why => do
    let call ← settlements.calls[index]?
    let _ ← call.reply?
    return { settlements with
      calls := settlements.calls.set index (call.lose why)
      lost := settlements.lost ++ call.unread wire }
  | .resume index ulid => do
    let call ← settlements.calls[index]?
    let _ ← call.reply?
    return { settlements with calls := settlements.calls.set index (call.resume wire ulid) }

/-- A step of the settlements. -/
def Step (before : Settlements) (action : SettlementAction) (after : Settlements) : Prop :=
  before.step wire action = some after

end Settlements

/-! ### What a step does to a call -/

section Steps

variable (wire : Wire)

/-- A step adds a call that is about to have its payment verified, or changes one call among the
others. -/
theorem settlements_cases (before after : Settlements) (action : SettlementAction)
    (step : before.Step wire action after) :
    (∃ intentId payment now, after = { before with
      calls := before.calls ++ [⟨intentId, payment, now, .verify⟩] }) ∨
    ∃ index front call back next exchanges lost, before.calls[index]? = some call ∧
      before.calls = front ++ call :: back ∧
      after = ⟨front ++ next :: back, before.exchanges ++ exchanges, before.lost ++ lost⟩ ∧
      ((∃ endpoint reply, action = .serve index reply ∧ call.endpoint? = some endpoint ∧
          next = call.answered reply ∧ exchanges = [⟨endpoint, call.payment, reply⟩] ∧
          lost = []) ∨
        (∃ why, action = .lose index why ∧ call.reply?.isSome = true ∧ next = call.lose why ∧
          exchanges = [] ∧ lost = call.unread wire) ∨
        ∃ ulid, action = .resume index ulid ∧ call.reply?.isSome = true ∧
          next = call.resume wire ulid ∧ exchanges = [] ∧ lost = []) := by
  have split : ∀ index (call : SettleCall), before.calls[index]? = some call →
      ∃ front back, before.calls = front ++ call :: back ∧
        ∀ next, before.calls.set index next = front ++ next :: back := by
    intro index call found
    obtain ⟨inside, here⟩ := List.getElem?_eq_some_iff.mp found
    refine ⟨before.calls.take index, before.calls.drop (index + 1), ?_, fun next => ?_⟩
    · rw [← here, List.getElem_cons_drop, List.take_append_drop]
    · rw [List.set_eq_take_append_cons_drop, if_pos inside]
  rw [Settlements.Step] at step
  cases action with
  | call intentId payment now => exact .inl ⟨intentId, payment, now, (Option.some.inj step).symm⟩
  | serve index reply =>
    simp only [Settlements.step, Option.bind_eq_bind, Option.bind_eq_some_iff, Option.pure_def,
      Option.some.injEq] at step
    obtain ⟨call, found, endpoint, sends, rfl⟩ := step
    obtain ⟨front, back, calls, set⟩ := split index call found
    refine .inr ⟨index, front, call, back, _, _, [], found, calls, ?_,
      .inl ⟨endpoint, reply, rfl, sends, rfl, rfl, rfl⟩⟩
    rw [set, List.append_nil]
  | lose index why =>
    simp only [Settlements.step, Option.bind_eq_bind, Option.bind_eq_some_iff, Option.pure_def,
      Option.some.injEq] at step
    obtain ⟨call, found, reply, waits, rfl⟩ := step
    obtain ⟨front, back, calls, set⟩ := split index call found
    refine .inr ⟨index, front, call, back, _, [], _, found, calls, ?_,
      .inr (.inl ⟨why, rfl, Option.isSome_iff_exists.mpr ⟨reply, waits⟩, rfl, rfl, rfl⟩)⟩
    rw [set, List.append_nil]
  | resume index ulid =>
    simp only [Settlements.step, Option.bind_eq_bind, Option.bind_eq_some_iff, Option.pure_def,
      Option.some.injEq] at step
    obtain ⟨call, found, reply, waits, rfl⟩ := step
    obtain ⟨front, back, calls, set⟩ := split index call found
    refine .inr ⟨index, front, call, back, _, [], [], found, calls, ?_,
      .inr (.inr ⟨ulid, rfl, Option.isSome_iff_exists.mpr ⟨reply, waits⟩, rfl, rfl, rfl⟩)⟩
    rw [set, List.append_nil, List.append_nil]

/-- An exchange clears a payment or charges a cleared one, and a confirmation is on its way. -/
theorem answered_spec (call : SettleCall) (endpoint : Endpoint) (reply : FacilitatorReply)
    (sends : call.endpoint? = some endpoint) :
    let exchange : Exchange := ⟨endpoint, call.payment, reply⟩
    (call.answered reply).cleared wire ++ exchange.charged =
        call.cleared wire ++ exchange.validated wire ∧
      (call.answered reply).unread wire = exchange.confirmed wire ∧ call.unread wire = [] ∧
      (call.answered reply).paid = [] ∧ call.paid = [] := by
  obtain ⟨intentId, payment, now, stage⟩ := call
  cases stage with
  | verify =>
    cases sends
    simp [SettleCall.answered, SettleCall.cleared, SettleCall.unread, SettleCall.paid,
      Exchange.charged, Exchange.validated, Exchange.confirmed]
  | settle =>
    cases sends
    simp [SettleCall.answered, SettleCall.cleared, SettleCall.unread, SettleCall.paid,
      Exchange.charged, Exchange.validated, Exchange.confirmed]
  | _ => cases sends

/-- A reply that is lost clears and confirms nothing. -/
theorem lose_spec (call : SettleCall) (why : String) (waits : call.reply?.isSome = true) :
    (call.lose why).cleared wire = [] ∧ (call.lose why).unread wire = [] ∧
      (call.lose why).paid = [] ∧ call.paid = [] := by
  obtain ⟨intentId, payment, now, stage⟩ := call
  cases stage with
  | verifyReply reply => exact ⟨rfl, rfl, rfl, rfl⟩
  | settleReply reply => exact ⟨rfl, rfl, rfl, rfl⟩
  | _ => cases waits

/-- A call that reads its reply is refused, has its payment cleared, or gives its receipt. -/
theorem resume_cases (call : SettleCall) (ulid : Ulid) (waits : call.reply?.isSome = true) :
    (call.cleared wire = [] ∧ call.unread wire = [] ∧ ∃ refusal,
      call.resume wire ulid = { call with stage := .done (.error refusal) }) ∨
    (call.cleared wire = [call.payment] ∧ call.unread wire = [] ∧
      call.resume wire ulid = { call with stage := .settle }) ∨
    (call.cleared wire = [] ∧ call.unread wire = [call.payment] ∧ call.resume wire ulid =
      { call with stage := .done (.ok (.cleared ulid call.intentId call.now)) }) := by
  obtain ⟨intentId, payment, now, stage⟩ := call
  cases stage with
  | verifyReply reply =>
    cases read : reply.read wire .verify VerifyResponse.fromJson with
    | error refusal =>
      refine .inl ⟨?_, rfl, refusal, ?_⟩
      · simp [SettleCall.cleared, FacilitatorReply.validates, read]
      · simp [SettleCall.resume, read]
    | ok verify =>
      cases valid : verify.isValid with
      | false =>
        refine .inl ⟨?_, rfl,
          .rejected (verify.invalidReason.getD "payment failed verification"), ?_⟩
        · simp [SettleCall.cleared, FacilitatorReply.validates, read, valid]
        · simp [SettleCall.resume, read, valid]
      | true =>
        refine .inr (.inl ⟨?_, rfl, ?_⟩)
        · simp [SettleCall.cleared, FacilitatorReply.validates, read, valid]
        · simp [SettleCall.resume, read, valid]
  | settleReply reply =>
    cases read : reply.read wire .settle SettleResponse.fromJson with
    | error refusal =>
      refine .inl ⟨rfl, ?_, refusal, ?_⟩
      · simp [SettleCall.unread, FacilitatorReply.confirms, read]
      · simp [SettleCall.resume, SettleCall.concluded, read]
    | ok settle =>
      cases confirmed : settle.success with
      | false =>
        refine .inl ⟨rfl, ?_,
          .rejected (settle.errorReason.getD "facilitator declined settlement"), ?_⟩
        · simp [SettleCall.unread, FacilitatorReply.confirms, read, confirmed]
        · simp [SettleCall.resume, SettleCall.concluded, read, confirmed]
      | true =>
        refine .inr (.inr ⟨rfl, ?_, ?_⟩)
        · simp [SettleCall.unread, FacilitatorReply.confirms, read, confirmed]
        · simp [SettleCall.resume, SettleCall.concluded, read, confirmed]
  | _ => cases waits

/-- A reply read is what it was on its way: the payment is cleared, or paid for. -/
theorem resume_spec (call : SettleCall) (ulid : Ulid) (waits : call.reply?.isSome = true) :
    (call.resume wire ulid).cleared wire = call.cleared wire ∧
      (call.resume wire ulid).unread wire = [] ∧
      (call.resume wire ulid).paid = call.unread wire ∧ call.paid = [] := by
  have unpaid : call.paid = [] := by
    obtain ⟨intentId, payment, now, stage⟩ := call
    cases stage with
    | done result => cases waits
    | _ => rfl
  rcases resume_cases wire call ulid waits with
    ⟨cleared, unread, refusal, read⟩ | ⟨cleared, unread, read⟩ | ⟨cleared, unread, read⟩
  all_goals
    rw [read, cleared, unread]
    exact ⟨rfl, rfl, rfl, unpaid⟩

end Steps

/-! ### What is settled is accounted for -/

/-- At every point of the exchanges, what was put to settlement so far was found valid before, as
often as it was put. -/
def OnlyValidated (wire : Wire) (exchanges : List Exchange) : Prop :=
  ∀ front, front <+: exchanges →
    (front.flatMap Exchange.charged).Subperm (front.flatMap (Exchange.validated wire))

/-- A receipt is for the intent and the instant of its call. -/
def SettleCall.Sound (call : SettleCall) : Prop :=
  ∀ receipt, call.stage = .done (.ok receipt) →
    ∃ ulid, receipt = .cleared ulid call.intentId call.now

namespace Settlements

/-- What was put to settlement or still may be was found valid, each confirmation is accounted for,
and receipts are those of their calls. -/
structure Accounted (wire : Wire) (settlements : Settlements) : Prop where
  validated : OnlyValidated wire settlements.exchanges
  cleared : (settlements.exchanges.flatMap Exchange.charged ++
    settlements.calls.flatMap (SettleCall.cleared wire)).Subperm
      (settlements.exchanges.flatMap (Exchange.validated wire))
  confirmed : (settlements.exchanges.flatMap (Exchange.confirmed wire)).Perm
    (settlements.calls.flatMap SettleCall.paid ++
      (settlements.calls.flatMap (SettleCall.unread wire) ++ settlements.lost))
  sound : ∀ call ∈ settlements.calls, call.Sound

end Settlements

/-- One more exchange, whose payment was found valid before if it is put to settlement. -/
theorem onlyValidated_append (wire : Wire) (exchanges more : List Exchange)
    (single : more.length ≤ 1) (validated : OnlyValidated wire exchanges)
    (whole : ((exchanges ++ more).flatMap Exchange.charged).Subperm
      ((exchanges ++ more).flatMap (Exchange.validated wire))) :
    OnlyValidated wire (exchanges ++ more) := by
  intro front inside
  cases more with
  | nil => exact validated front (by rwa [List.append_nil] at inside)
  | cons exchange rest =>
    obtain rfl : rest = [] := List.eq_nil_of_length_eq_zero (by simpa using single)
    rcases List.prefix_concat_iff.mp inside with rfl | earlier
    · exact whole
    · exact validated front earlier

section Runs

variable (wire : Wire)

/-- One call among the others, as it adds to what they have. -/
theorem count_calls [DecidableEq Value] (part : SettleCall → List Value)
    (front back : List SettleCall) (call : SettleCall) (payment : Value) :
    ((front ++ call :: back).flatMap part).count payment =
      (part call).count payment + ((front ++ back).flatMap part).count payment := by
  simp only [List.flatMap_append, List.flatMap_cons, List.count_append]
  omega

/-- More exchanges, as they add to the earlier ones. -/
theorem count_exchanges [DecidableEq Value] (part : Exchange → List Value)
    (exchanges more : List Exchange) (payment : Value) :
    ((exchanges ++ more).flatMap part).count payment =
      (exchanges.flatMap part).count payment + (more.flatMap part).count payment := by
  rw [List.flatMap_append, List.count_append]

/-- The books stay balanced when one call's own entries and those of the exchanges do. -/
theorem accounted_of_balance [DecidableEq Value] (before : Settlements)
    (front back : List SettleCall) (call next : SettleCall) (exchanges : List Exchange)
    (lost : List Value)
    (accounted : before.Accounted wire) (calls : before.calls = front ++ call :: back)
    (single : exchanges.length ≤ 1)
    (balance : ∀ payment, (next.cleared wire).count payment +
        (exchanges.flatMap Exchange.charged).count payment ≤
      (call.cleared wire).count payment +
        (exchanges.flatMap (Exchange.validated wire)).count payment)
    (books : ∀ payment, call.paid.count payment + (call.unread wire).count payment +
        (exchanges.flatMap (Exchange.confirmed wire)).count payment =
      next.paid.count payment + (next.unread wire).count payment + lost.count payment)
    (own : next.Sound) :
    Settlements.Accounted wire
      ⟨front ++ next :: back, before.exchanges ++ exchanges, before.lost ++ lost⟩ := by
  obtain ⟨validated, cleared, confirmed, sound⟩ := accounted
  rw [calls, List.subperm_iff_count] at cleared
  rw [calls, List.perm_iff_count] at confirmed
  simp only [List.count_append, count_calls] at cleared confirmed
  have clearedAfter : ((before.exchanges ++ exchanges).flatMap Exchange.charged ++
      (front ++ next :: back).flatMap (SettleCall.cleared wire)).Subperm
        ((before.exchanges ++ exchanges).flatMap (Exchange.validated wire)) := by
    rw [List.subperm_iff_count]
    intro payment
    simp only [count_exchanges, List.count_append, count_calls]
    have := cleared payment
    have := balance payment
    omega
  refine ⟨onlyValidated_append wire _ _ single validated ?_, clearedAfter, ?_, ?_⟩
  · rw [List.subperm_iff_count] at clearedAfter ⊢
    intro payment
    have := clearedAfter payment
    rw [List.count_append] at this
    omega
  · rw [List.perm_iff_count]
    intro payment
    simp only [count_exchanges, List.count_append, count_calls]
    have := confirmed payment
    have := books payment
    omega
  · exact forall_mem_replaced front back call next (calls ▸ sound) own

theorem accounted_settlements_step (before : Settlements) (action : SettlementAction)
    (after : Settlements) (step : before.Step wire action after)
    (accounted : before.Accounted wire) : after.Accounted wire := by
  classical
  rcases settlements_cases wire before after action step with
    ⟨intentId, payment, now, rfl⟩ |
    ⟨index, front, call, back, next, exchanges, lost, found, calls, rfl, kinds⟩
  · -- a new call has nothing cleared, under way or paid
    obtain ⟨validated, cleared, confirmed, sound⟩ := accounted
    refine ⟨validated, ?_, ?_, forall_mem_added before.calls _ sound ?_⟩
    · simpa [SettleCall.cleared] using cleared
    · simpa [SettleCall.paid, SettleCall.unread] using confirmed
    · rintro receipt ⟨⟩
  · have own := accounted.sound call (calls ▸ List.mem_append_right _ List.mem_cons_self)
    rcases kinds with
      ⟨endpoint, reply, rfl, sends, rfl, rfl, rfl⟩ | ⟨why, rfl, waits, rfl, rfl, rfl⟩ |
      ⟨ulid, rfl, waits, rfl, rfl, rfl⟩
    · obtain ⟨cleared, unread, noneUnread, unpaid, unpaidBefore⟩ :=
        answered_spec wire call endpoint reply sends
      refine accounted_of_balance wire before front back call _ _ _ accounted calls
        (Nat.le_refl 1) (fun payment => ?_) (fun payment => ?_) ?_
      · have same := congrArg (List.count payment) cleared
        rw [List.count_append, List.count_append] at same
        rw [List.flatMap_singleton, List.flatMap_singleton]
        exact Nat.le_of_eq same
      · rw [unread, noneUnread, unpaid, unpaidBefore, List.flatMap_singleton]
        simp
      · rintro receipt given
        have paid := unpaid
        rw [SettleCall.paid, given] at paid
        cases paid
    · obtain ⟨cleared, unread, unpaid, unpaidBefore⟩ := lose_spec wire call why waits
      refine accounted_of_balance wire before front back call _ _ _ accounted calls
        (Nat.zero_le 1) (fun payment => ?_) (fun payment => ?_) ?_
      · rw [cleared]
        simp
      · rw [unread, unpaid, unpaidBefore]
        simp
      · rintro receipt given
        have paid := unpaid
        rw [SettleCall.paid, given] at paid
        cases paid
    · obtain ⟨cleared, unread, paid, unpaidBefore⟩ := resume_spec wire call ulid waits
      refine accounted_of_balance wire before front back call _ _ _ accounted calls
        (Nat.zero_le 1) (fun payment => ?_) (fun payment => ?_) ?_
      · rw [cleared]
        simp
      · rw [unread, paid, unpaidBefore]
        simp
      · intro receipt given
        rcases resume_cases wire call ulid waits with
          ⟨-, -, refusal, read⟩ | ⟨-, -, read⟩ | ⟨-, -, read⟩
        · rw [read] at given
          cases given
        · rw [read] at given
          cases given
        · rw [read] at given ⊢
          cases given
          exact ⟨ulid, rfl⟩

end Runs

/-- A client library with short texts. -/
def plainWire : Wire := ⟨toString, fun _ => "type"⟩

/-- A facilitator that finds every payment valid and confirms it. -/
def generousReply (_ : FacilitatorRequest) : FacilitatorReply :=
  .answered 200 (.ok (.object [("isValid", .bool true), ("success", .bool true)]))

/-- Two settlements of one payment, up to the second confirmation. -/
def twoSettlements (reply : FacilitatorReply) : List SettlementAction :=
  [.call "a" .null 7, .call "b" .null 8, .serve 0 reply, .serve 1 reply, .resume 1 .nil,
    .serve 1 reply, .resume 0 .nil, .serve 0 reply, .resume 1 .nil]

/-- The settlements after them. -/
def twoSettled (reply : FacilitatorReply) : Settlements where
  calls := [⟨"a", .null, 7, .settleReply reply⟩, ⟨"b", .null, 8, .done (.ok (.cleared .nil "b" 8))⟩]
  exchanges := [⟨.verify, .null, reply⟩, ⟨.verify, .null, reply⟩, ⟨.settle, .null, reply⟩,
    ⟨.settle, .null, reply⟩]
  lost := []

theorem run_twoSettled (request : FacilitatorRequest) :
    Run (Settlements.Step plainWire) .start (twoSettlements (generousReply request))
      (twoSettled (generousReply request)) :=
  run_of_foldlM (Settlements.step plainWire) _ _ _ rfl

/-- However settlements run side by side, whatever the facilitator answers and whichever replies are
lost: nothing is put to settlement more often than it was found valid before; each confirmed
settlement is that of one receipt given, one reply on its way, or one reply lost; and a receipt is
for the intent its call was made for. -/
theorem facilitator_accounts (wire : Wire) (actions : List SettlementAction) (final : Settlements)
    (run : Run (Settlements.Step wire) .start actions final) :
    (∀ front, front <+: final.exchanges →
      (front.flatMap Exchange.charged).Subperm (front.flatMap (Exchange.validated wire))) ∧
    (final.exchanges.flatMap (Exchange.confirmed wire)).Perm
      (final.calls.flatMap SettleCall.paid ++
        (final.calls.flatMap (SettleCall.unread wire) ++ final.lost)) ∧
    ∀ call ∈ final.calls, ∀ receipt, call.stage = .done (.ok receipt) →
      ∃ ulid, receipt = .cleared ulid call.intentId call.now := by
  have start : Settlements.start.Accounted wire := by
    refine ⟨fun front inside => ?_, .refl _, .nil, fun call none => absurd none List.not_mem_nil⟩
    rw [List.prefix_nil.mp inside]
    exact .refl _
  have accounted := run.kept (accounted_settlements_step wire) start
  exact ⟨accounted.validated, accounted.confirmed, accounted.sound⟩

/-- So for two settlements of one payment, both confirmed, one of the confirmations lost. -/
theorem facilitator_accounts_two :
    let reply := generousReply ⟨"", none, .null⟩
    ∃ final, Run (Settlements.Step plainWire) .start
        (twoSettlements reply ++ [.lose 0 "closed"]) final ∧
      (final.exchanges.flatMap (Exchange.confirmed plainWire)).Perm
        (final.calls.flatMap SettleCall.paid ++
          (final.calls.flatMap (SettleCall.unread plainWire) ++ final.lost)) := by
  intro reply
  have run := (run_twoSettled ⟨"", none, .null⟩).append
    (run_of_foldlM (Settlements.step plainWire) [.lose 0 "closed"] _ _ rfl)
  exact ⟨_, run, (facilitator_accounts plainWire _ _ run).2.1⟩

end Hammurabi
