/-
This file is the loop of the page: its four buttons, and what it makes of the replies.

A click has the shell drive a request of its own; the reply comes when the request is answered, and
until then the operator may click again, in any order. A request that cannot be put together, or
whose response does not read back, leaves the page as it is. What the page keeps of a reply it hands
back in later clicks, every number as its double is written.

Whatever the order of the clicks, the page tells the truth. It never finds a status it does not
expect. It reports an envelope only when one was answered, and with a facilitator for its backend it
never reports one: its settlements carry no payment.
-/

import Hammurabi.BridgeErrors
import Hammurabi.InFlight
import Hammurabi.Library.Rfc8785
import Hammurabi.Transcript

namespace Hammurabi

open Json Runs Unicode

/-! ### The page -/

inductive Button where
  | announce
  | execute
  | settle
  | retry
  deriving DecidableEq, Repr

/-- The status line, with the value it shows: a value that is missing is undefined. -/
inductive StatusLine where
  | idle
  | intent (intentId : Option Value)
  | paymentRequired
  | unexpected (status : Nat)
  | receipt (receiptId : Option Value)
  | settled (envelope : Option Value)
  | refused (status : Nat)

/-- What the page keeps of the loop: the intent, the receipt's id, the buttons that are enabled, and
the status line. -/
structure Loop where
  intent : Value
  receiptId : Option Value
  canExecute : Bool
  canSettle : Bool
  canRetry : Bool
  status : StatusLine

/-- A member of a value, undefined when it is missing; null has none to ask for. -/
def property (value : Value) (name : String) : Option (Option Value) :=
  match value with
  | .null => none
  | value => some (value.get name)

/-- An optional text among the arguments of a command: null and undefined stand for none, and
anything else but a text is refused. -/
def optionalText : Option Value → Option (Option String)
  | none => some none
  | some .null => some none
  | some (.string text) => some (some text)
  | some _ => none

namespace Loop

def start : Loop := ⟨.null, some .null, false, false, false, .idle⟩

/-- The command a click invokes, if the button is enabled and the arguments are accepted. -/
def command? (loop : Loop) : Button → Option Command
  | .announce => some .agentAnnounce
  | .execute => if loop.canExecute then some (.requestExecution loop.intent none) else none
  | .settle =>
    if loop.canSettle then do
      let intentId ← (← property loop.intent "intent_id")
      return .x402Settle (← intentId.asStr)
    else none
  | .retry =>
    if loop.canRetry then do
      return .requestExecution loop.intent (← optionalText loop.receiptId)
    else none

/-- What the page makes of a reply. A property that is asked of null stops it there. -/
def reply (loop : Loop) (button : Button) (status : Nat) (body : Value) : Loop :=
  match button with
  | .announce =>
    match property body "intent_id" with
    | none => { loop with intent := body }
    | some intentId => { loop with
        intent := body
        status := .intent intentId
        canExecute := true }
  | .execute =>
    if status = 402 then { loop with status := .paymentRequired, canSettle := true }
    else { loop with status := .unexpected status }
  | .settle =>
    match property body "receipt_id" with
    | none => loop
    | some receiptId => { loop with
        receiptId := receiptId
        status := .receipt receiptId
        canRetry := true }
  | .retry =>
    if status = 200 then
      match property body "idempotency_key" with
      | none => loop
      | some envelope => { loop with status := .settled envelope }
    else { loop with status := .refused status }

end Loop

/-- A document as the page hands it back: every number is the one its double is written as. -/
def handBack (document : Value) : Value := document.mapNumbers Rfc8785.canonicalNumber

/-! ### The page and the process -/

/-- The process, the page, and the invocations it waits for, each with the place of its request. -/
structure Desk where
  system : System
  loop : Loop
  waiting : List (Button × Nat)

def Desk.start (backend : SettlementBackend) : Desk := ⟨.start backend, .start, []⟩

/-- What happens next: the process takes an action, a button is clicked, or a reply arrives. -/
inductive DeskAction where
  | process (action : Action)
  | click (button : Button)
  | reply (place : Nat)

section Desk

variable (framework : Framework) (primitives : Primitives)

/-- A click puts a request in, if there is one to put in. -/
def Desk.click (desk : Desk) (button : Button) : Desk :=
  match desk.loop.command? button with
  | none => desk
  | some command =>
    match command.call.request? with
    | none => desk
    | some _ => { desk with
        system := desk.system.step framework primitives (.arrive (.command command))
        waiting := desk.waiting ++ [(button, desk.system.tasks.length)] }

/-- What the page makes of a response, if it reads back. -/
def Loop.receive (loop : Loop) (button : Button) (response : Response) : Loop :=
  match readResponse framework response with
  | .error _ => loop
  | .ok (status, body) => loop.reply button status (handBack body)

/-- A reply arrives when its request is answered. -/
def Desk.reply (desk : Desk) (place : Nat) : Option Desk :=
  match desk.waiting[place]? with
  | none => none
  | some (button, index) =>
    match desk.system.tasks[index]? with
    | some (.answer response) => some { desk with
        loop := desk.loop.receive framework button response
        waiting := desk.waiting.eraseIdx place }
    | _ => none

/-- One step of the process and the page. -/
def Desk.Step (before : Desk) (action : DeskAction) (after : Desk) : Prop :=
  match action with
  | .process action => before.system.Step framework primitives action after.system ∧
      after.loop = before.loop ∧ after.waiting = before.waiting
  | .click button => after = before.click framework primitives button
  | .reply place => before.reply framework place = some after

end Desk

/-! ### What is expected of the requests -/

/-- What is expected of the request of a click, until it is answered and by its answer. -/
def Expected (framework : Framework) (backend : SettlementBackend) (issued : List PaymentReceipt)
    (button : Button) (phase : Phase) : Prop :=
  match button with
  | .announce =>
    (∃ request, phase = .announce request ∧ request.headers.lookup "content-type" = none) ∨
      ∃ ulid, phase.reply = some ⟨200, .intent (.mockEthLimitOrder ulid)⟩
  | .execute => ∃ intentId, keyLength intentId ≤ 28 ∧
    ((∃ request, phase = .guard request ∧ request.headerStr? receiptHeader = none ∧
      request.headerStr? intentHeader = some intentId) ∨
    phase.reply = some ⟨402, .paymentRequired (.quote intentId)⟩)
  | .settle =>
    (∃ request intentId, phase = .settle request ∧
      framework.extractJson SettleRequest.fromJson request = some ⟨intentId, none⟩) ∨
    (backend = .mock ∧ ∃ receipt ∈ issued,
      (∃ now, phase = .record receipt now) ∨ phase.reply = some ⟨200, .receipt receipt⟩) ∨
    (backend ≠ .mock ∧
      ∃ detail, phase.reply = some ⟨502, .error "settlement_failed" detail⟩)
  | .retry =>
    (∃ request intent, phase = .guard request ∧ request.method = "POST" ∧
      framework.extractJson AgentIntent.fromJson request = some intent ∧
      (backend = .mock ∨ request.headerStr? receiptHeader = none)) ∨
    (backend = .mock ∧
      ((∃ request intent receipt, phase = .execute request receipt ∧ request.method = "POST" ∧
        framework.extractJson AgentIntent.fromJson request = some intent) ∨
      (∃ receipt intent, phase = .mint receipt intent) ∨
      ∃ intent credential receipt, phase.reply =
        some ⟨200, .envelope (.package (AgentIntent.payload intent) credential receipt)⟩)) ∨
    ∃ response, phase.reply = some response ∧ (response.status = 402 ∨ response.status = 422)

theorem Expected.mono {framework : Framework} {backend : SettlementBackend}
    {issued more : List PaymentReceipt} {button : Button} {phase : Phase}
    (expected : Expected framework backend issued button phase) (sub : issued ⊆ more) :
    Expected framework backend more button phase := by
  cases button with
  | settle =>
    refine expected.imp_right (Or.imp_left ?_)
    rintro ⟨mock, receipt, member, comes⟩
    exact ⟨mock, receipt, sub member, comes⟩
  | _ => exact expected

section Expecting

variable (framework : Framework) (primitives : Primitives) (env : Env) (state : HandoffState)
  (issued : List PaymentReceipt) (phase : Phase)

theorem expected_announce
    (expected : Expected framework state.gate.backend issued .announce phase) :
    Expected framework state.gate.backend issued .announce
      (advance framework primitives env state phase).2 := by
  rcases expected with ⟨request, rfl, undeclared⟩ | ⟨ulid, replies⟩
  · have missing : framework.extractJson AgentIntent.fromJson request = none := by
      rw [Framework.extractJson, undeclared]
    refine .inr ⟨env.ulid, ?_⟩
    rw [advance, agentAnnounce, missing]
    rfl
  · exact .inr ⟨ulid, reply_advance framework primitives env state phase _ replies⟩

theorem expected_execute
    (expected : Expected framework state.gate.backend issued .execute phase) :
    Expected framework state.gate.backend issued .execute
      (advance framework primitives env state phase).2 := by
  obtain ⟨intentId, short, ⟨request, rfl, absent, named⟩ | replies⟩ := expected
  · refine ⟨intentId, short, .inr ?_⟩
    rw [advance, paymentGuard, absent, named]
    rfl
  · exact ⟨intentId, short, .inr (reply_advance framework primitives env state phase _ replies)⟩

/-- Without a payment a settlement clears exactly when the backend is the mock. -/
theorem expected_settle
    (expected : Expected framework state.gate.backend issued .settle phase) :
    Expected framework state.gate.backend
      (issued ++ phase.issues (advance framework primitives env state phase).2) .settle
      (advance framework primitives env state phase).2 := by
  rcases expected with ⟨request, intentId, rfl, extracted⟩ |
    ⟨mock, receipt, member, ⟨now, rfl⟩ | replies⟩ | ⟨live, detail, replies⟩
  · rw [advance, x402Settle, extracted]
    dsimp only
    cases backend : state.gate.backend with
    | mock =>
      exact .inr (.inl ⟨rfl, _, List.mem_append_right _ List.mem_cons_self, .inl ⟨_, rfl⟩⟩)
    | facilitator client =>
      refine .inr (.inr ⟨?_, _, rfl⟩)
      rintro ⟨⟩
  · exact .inr (.inl ⟨mock, receipt, List.mem_append_left _ member, .inr rfl⟩)
  · exact .inr (.inl ⟨mock, receipt, List.mem_append_left _ member,
      .inr (reply_advance framework primitives env state phase _ replies)⟩)
  · exact .inr (.inr ⟨live, detail, reply_advance framework primitives env state phase _ replies⟩)

theorem expected_retry
    (expected : Expected framework state.gate.backend issued .retry phase) :
    Expected framework state.gate.backend issued .retry
      (advance framework primitives env state phase).2 := by
  rcases expected with ⟨request, intent, rfl, post, extracted, arms⟩ |
    ⟨mock, ⟨request, intent, receipt, rfl, post, extracted⟩ | ⟨receipt, intent, rfl⟩ |
      ⟨intent, credential, receipt, replies⟩⟩ | ⟨response, replies, refused⟩
  · rcases paymentGuard_cases state request with
      ⟨gate, body, -, comes⟩ | ⟨receiptId, receipt, presented, -, -, comes⟩
    · rw [advance, comes]
      exact .inr (.inr ⟨_, rfl, .inl rfl⟩)
    · rw [advance, comes]
      rcases arms with mock | absent
      · exact .inr (.inl ⟨mock, .inl ⟨request, intent, receipt, rfl, post, extracted⟩⟩)
      · cases presented.symm.trans absent
  · rw [advance, execute, if_neg (not_not.mpr post), extracted]
    dsimp only
    split_ifs with different
    · exact .inr (.inr ⟨_, rfl, .inl rfl⟩)
    · exact .inr (.inl ⟨mock, .inr (.inl ⟨receipt, intent, rfl⟩)⟩)
  · rw [advance, mintAndPackage]
    cases mint primitives intent.payload receipt env.now env.entropy with
    | error refusal => exact .inr (.inr ⟨_, rfl, .inr rfl⟩)
    | ok credential => exact .inr (.inl ⟨mock, .inr (.inr ⟨intent, credential, receipt, rfl⟩)⟩)
  · exact .inr (.inl ⟨mock, .inr (.inr ⟨intent, credential, receipt,
      reply_advance framework primitives env state phase _ replies⟩)⟩)
  · exact .inr (.inr ⟨response, reply_advance framework primitives env state phase _ replies,
      refused⟩)

/-- Every step of the request of a click leads to what is expected of it. -/
theorem expected_advance (button : Button)
    (expected : Expected framework state.gate.backend issued button phase) :
    Expected framework state.gate.backend
      (issued ++ phase.issues (advance framework primitives env state phase).2) button
      (advance framework primitives env state phase).2 := by
  cases button with
  | announce =>
    exact (expected_announce framework primitives env state issued phase expected).mono
      (List.subset_append_left _ _)
  | execute =>
    exact (expected_execute framework primitives env state issued phase expected).mono
      (List.subset_append_left _ _)
  | settle => exact expected_settle framework primitives env state issued phase expected
  | retry =>
    exact (expected_retry framework primitives env state issued phase expected).mono
      (List.subset_append_left _ _)

end Expecting

/-! ### The requests of the clicks -/

section Clicking

variable (framework : Framework) (request : Request)

theorem expected_announceClick (backend : SettlementBackend) (issued : List PaymentReceipt)
    (built : Command.agentAnnounce.call.request? = some request) :
    Expected framework backend issued .announce (handoffRouter request) := by
  obtain rfl := Option.some.inj built
  exact .inl ⟨_, rfl, rfl⟩

theorem expected_executeClick (backend : SettlementBackend) (issued : List PaymentReceipt)
    (intent : Value) (visible : Visible (textUnder intent "intent_id"))
    (short : keyLength (textUnder intent "intent_id") ≤ 28)
    (built : (Command.requestExecution intent none).call.request? = some request) :
    Expected framework backend issued .execute (handoffRouter request) := by
  obtain ⟨-, execution, -⟩ := buildRequest_eq_some _ _ _ _ _ built
  have absent : request.headerStr? receiptHeader = none :=
    headerStr?_buildRequest _ _ _ _ _ built receiptHeader (by decide)
  have named : request.headerStr? intentHeader =
      (HeaderValue.ofString? (textUnder intent "intent_id")).bind HeaderValue.toStr? :=
    headerStr?_buildRequest _ _ _ _ _ built intentHeader (by decide)
  rw [Visible] at visible
  rw [HeaderValue.toStr?_ofString?, if_pos visible] at named
  exact ⟨_, short, .inl ⟨request, handoffRouter_execute request execution, absent, named⟩⟩

theorem settleClick_reads (readsBack : framework.ReadsBack) (ulid : Ulid)
    (built : (Command.x402Settle ulid.toString).call.request? = some request) :
    handoffRouter request = .settle request ∧
      framework.extractJson SettleRequest.fromJson request = some ⟨ulid.toString, none⟩ := by
  have small : (Value.object [("intent_id", .string ulid.toString)]).byteLength ≤
      maxRequestBodyBytes := by
    have id := keyLength_ulid ulid
    have key : keyLength "intent_id" = 11 := by decide +kernel
    rw [byteLength_object _ (List.cons_ne_nil _ _)]
    simp only [List.map_cons, List.map_nil, List.sum_cons, List.sum_nil, List.length_cons,
      List.length_nil, byteLength_string, id, key]
    decide
  exact settle_reads framework readsBack _ small request built

theorem expected_settleClick (readsBack : framework.ReadsBack) (backend : SettlementBackend)
    (issued : List PaymentReceipt) (ulid : Ulid)
    (built : (Command.x402Settle ulid.toString).call.request? = some request) :
    Expected framework backend issued .settle (handoffRouter request) := by
  obtain ⟨routed, extracted⟩ := settleClick_reads framework request readsBack ulid built
  exact .inl ⟨request, ulid.toString, routed, extracted⟩

theorem expected_retryClick (readsBack : framework.ReadsBack) (backend : SettlementBackend)
    (issued : List PaymentReceipt) (ulid : Ulid) (receiptId : Option String)
    (arms : backend = .mock ∨ receiptId = none)
    (built : (Command.requestExecution (AgentIntent.mockEthLimitOrder ulid).payload
      receiptId).call.request? = some request) :
    Expected framework backend issued .retry (handoffRouter request) := by
  obtain ⟨post, execution, -⟩ := buildRequest_eq_some _ _ _ _ _ built
  have read := readsBack.body _ (AgentIntent.mockEthLimitOrder ulid).payload_uniqueKeys
    (AgentIntent.mockEthLimitOrder ulid).payload_integerOnly
    (AgentIntent.mockEthLimitOrder ulid).payload_depth
  have undeclared : (executionHeaders (textUnder (AgentIntent.mockEthLimitOrder ulid).payload
      "intent_id") receiptId).lookup "content-type" = none := by
    cases receiptId with
    | none => rfl
    | some id => rfl
  have extracted := (extractJson_buildRequest framework AgentIntent.fromJson _ _ _ _ request built
    undeclared readsBack.contentType read ((byteLength_mock ulid).le.trans (by decide))).trans
    (AgentIntent.fromJson_payload _)
  refine .inl ⟨request, _, handoffRouter_execute request execution, post, extracted,
    arms.imp_right ?_⟩
  rintro rfl
  exact headerStr?_buildRequest _ _ _ _ _ built receiptHeader (by decide)

end Clicking

/-! ### What the page makes of the replies -/

theorem lookup_map_mapMember (f : Number → Number) (members : List (String × Value))
    (name : String) :
    (members.map (Value.mapMember f)).lookup name =
      (members.lookup name).map (Value.mapNumbers f) := by
  induction members with
  | nil => rfl
  | cons member members inductionHypothesis =>
    obtain ⟨key, value⟩ := member
    rw [List.map_cons, Value.mapMember, List.lookup_cons, List.lookup_cons]
    cases name == key with
    | true => rfl
    | false => exact inductionHypothesis

/-- What a document is handed back with under a name. -/
theorem property_handBack (members : List (String × Value)) (name : String) :
    property (handBack (.object members)) name = some ((members.lookup name).map handBack) := by
  rw [handBack, Value.mapNumbers_object]
  exact congrArg some (lookup_map_mapMember Rfc8785.canonicalNumber members name)

/-- The page hands an announced intent back as it got it. -/
theorem handBack_mock (ulid : Ulid) :
    handBack (AgentIntent.mockEthLimitOrder ulid).payload =
      (AgentIntent.mockEthLimitOrder ulid).payload := by
  have price : Rfc8785.canonicalNumber (.posInt 310000) = .posInt 310000 := by
    refine (Rfc8785.canonicalNumber_eq_self_iff _ (by simp)).mpr ?_
    rw [← Binary64.shortest_nearest_iff]
    have small : Number.magnitude (.posInt 310000) ≤ 2 ^ 53 := by decide
    rw [Binary64.nearest_of_le _ small, Binary64.shortest_of_le _ small]
  refine (Value.mapNumbers_eq_self_iff _ _).mpr fun number member => ?_
  have only : number = .posInt 310000 := by
    simpa [AgentIntent.payload, LimitOrder.toJson, OrderSide.toJson, Value.ofUInt64,
      AgentIntent.mockEthLimitOrder, Value.numbers, Value.numbersOfMembers] using member
  rw [only, price]

section Receiving

variable (framework : Framework) (readsBack : framework.ReadsBack) (loop : Loop)

include readsBack

/-- What a document that is read back is read as. -/
theorem readResponse_eq_ok (response : Response) (document : Value)
    (carries : response.body.document = some document) (unique : document.UniqueKeys)
    (integer : document.IntegerOnly) (shallow : document.depth < 128) (status : Nat)
    (body : Value) (read : readResponse framework response = .ok (status, body)) :
    status = response.status ∧ body = document := by
  rw [readResponse_document framework readsBack response document carries unique integer
    shallow] at read
  split_ifs at read
  cases read
  exact ⟨rfl, rfl⟩

theorem receive_announce (ulid : Ulid) :
    loop.receive framework .announce ⟨200, .intent (.mockEthLimitOrder ulid)⟩ =
      { loop with
        intent := (AgentIntent.mockEthLimitOrder ulid).payload
        status := .intent (some (.string ulid.toString))
        canExecute := true } := by
  have read := readResponse_document framework readsBack
    ⟨200, .intent (.mockEthLimitOrder ulid)⟩ _ rfl
    (AgentIntent.mockEthLimitOrder ulid).payload_uniqueKeys
    (AgentIntent.mockEthLimitOrder ulid).payload_integerOnly
    (AgentIntent.mockEthLimitOrder ulid).payload_depth
  rw [if_pos ((byteLength_mock ulid).le.trans (by decide))] at read
  rw [Loop.receive, read]
  dsimp only
  rw [handBack_mock]
  rfl

theorem receive_execute (intentId : String) (short : keyLength intentId ≤ 28) :
    loop.receive framework .execute ⟨402, .paymentRequired (.quote intentId)⟩ =
      { loop with status := .paymentRequired, canSettle := true } := by
  have read := readResponse_document framework readsBack
    ⟨402, .paymentRequired (.quote intentId)⟩ _ rfl
    (by simp [PaymentTerms.toJson, Value.ofUInt64])
    (by simp [PaymentTerms.toJson, Value.ofUInt64])
    (by simp [PaymentTerms.toJson, Value.ofUInt64, Value.depth, Value.depthMembers,
      Value.depthItems])
  have within : keyLength intentId + 285 ≤ maxResponseBytes :=
    (Nat.add_le_add_right short 285).trans (by decide)
  rw [if_pos ((byteLength_quote intentId).trans_le within)] at read
  rw [Loop.receive, read]
  rfl

theorem receive_settle_receipt (receipt : PaymentReceipt) :
    loop.receive framework .settle ⟨200, .receipt receipt⟩ =
      if receipt.toJson.byteLength ≤ maxResponseBytes then
        { loop with
          receiptId := some (.string receipt.receiptId)
          status := .receipt (some (.string receipt.receiptId))
          canRetry := true }
      else loop := by
  rw [Loop.receive, readResponse_document framework readsBack _ receipt.toJson rfl
    (by simp [PaymentReceipt.toJson, Value.ofUInt64, uniqueKeys_ofInt64])
    (by simp [PaymentReceipt.toJson, Value.ofUInt64, integerOnly_ofInt64])
    (by simp [PaymentReceipt.toJson, Value.ofUInt64, depth_ofInt64, Value.depth,
      Value.depthMembers])]
  by_cases within : receipt.toJson.byteLength ≤ maxResponseBytes
  · rw [if_pos within, if_pos within]
    dsimp only
    rw [Loop.reply, PaymentReceipt.toJson, property_handBack]
    rfl
  · rw [if_neg within, if_neg within]

theorem receive_settle_error (detail : String) :
    loop.receive framework .settle ⟨502, .error "settlement_failed" detail⟩ = loop ∨
      loop.receive framework .settle ⟨502, .error "settlement_failed" detail⟩ =
        { loop with receiptId := none, status := .receipt none, canRetry := true } := by
  rw [Loop.receive]
  cases read : readResponse framework ⟨502, .error "settlement_failed" detail⟩ with
  | error refusal => exact .inl rfl
  | ok answer =>
    obtain ⟨-, same⟩ := readResponse_eq_ok framework readsBack _ _ rfl (by simp) (by simp)
      (by simp [Value.depth, Value.depthMembers]) answer.1 answer.2 read
    refine .inr ?_
    dsimp only
    rw [same, Loop.reply, property_handBack]
    rfl

theorem receive_retry_envelope (intent : AgentIntent) (credential : EphemeralCredential)
    (receipt : PaymentReceipt) :
    let envelope := OneShotEnvelope.package intent.payload credential receipt
    loop.receive framework .retry ⟨200, .envelope envelope⟩ =
      if envelope.toBroadcastJson.byteLength ≤ maxResponseBytes then
        { loop with status := .settled (some (.string envelope.idempotencyKey)) }
      else loop := by
  intro envelope
  rw [Loop.receive, readResponse_envelope framework readsBack]
  dsimp only
  by_cases within : envelope.toBroadcastJson.byteLength ≤ maxResponseBytes
  · rw [if_pos within, if_pos within]
    dsimp only
    rw [Loop.reply, if_pos rfl, OneShotEnvelope.toBroadcastJson, property_handBack]
    rfl
  · rw [if_neg within, if_neg within]

omit readsBack in
theorem receive_retry_refused (response : Response)
    (refused : response.status = 402 ∨ response.status = 422) :
    loop.receive framework .retry response = loop ∨
      loop.receive framework .retry response =
        { loop with status := .refused response.status } := by
  rw [Loop.receive]
  cases read : readResponse framework response with
  | error refusal => exact .inl rfl
  | ok answer =>
    have status := readResponse_status framework response answer.1 answer.2 read
    refine .inr ?_
    dsimp only
    rw [Loop.reply, if_neg (by omega), status]

end Receiving

/-! ### Every run -/

/-- What the page has for the id of a receipt: that of an issued one, or with a facilitator
nothing. -/
def Receipted (backend : SettlementBackend) (issued : List PaymentReceipt)
    (receiptId : Option Value) : Prop :=
  (backend = .mock ∧ ∃ receipt ∈ issued, receiptId = some (.string receipt.receiptId)) ∨
    (backend ≠ .mock ∧ receiptId = none)

/-- What a status line reports is so. -/
def StatusLine.Truthful (backend : SettlementBackend) (system : System) : StatusLine → Prop
  | .idle => True
  | .intent intentId => ∃ ulid : Ulid, intentId = some (.string ulid.toString)
  | .paymentRequired => True
  | .unexpected _ => False
  | .receipt receiptId => Receipted backend system.issued receiptId
  | .settled key => backend = .mock ∧ ∃ envelope ∈ system.envelopes,
      key = some (.string envelope.idempotencyKey) ∧
      ∃ receipt ∈ system.issued, envelope.PaidBy receipt
  | .refused status => status = 402 ∨ status = 422

/-- What holds of the process and the page in every state that a run reaches. -/
structure Desk.Sound (framework : Framework) (backend : SettlementBackend) (desk : Desk) :
    Prop where
  accounted : desk.system.Accounted
  cleared : desk.system.Cleared
  served : desk.system.state.gate.backend = backend
  expected : ∀ button index, (button, index) ∈ desk.waiting →
    ∃ phase, desk.system.tasks[index]? = some phase ∧
      Expected framework backend desk.system.issued button phase
  intent : desk.loop.intent = .null ∨
    ∃ ulid, desk.loop.intent = (AgentIntent.mockEthLimitOrder ulid).payload
  named : desk.loop.canRetry = true ∨ (∃ index, (Button.settle, index) ∈ desk.waiting) →
    ∃ ulid, desk.loop.intent = (AgentIntent.mockEthLimitOrder ulid).payload
  receiptId : desk.loop.receiptId = some .null ∨
    Receipted backend desk.system.issued desk.loop.receiptId
  truthful : desk.loop.status.Truthful backend desk.system

theorem Receipted.mono {backend : SettlementBackend} {issued more : List PaymentReceipt}
    {receiptId : Option Value} (receipted : Receipted backend issued receiptId)
    (sub : issued ⊆ more) : Receipted backend more receiptId := by
  refine receipted.imp_left ?_
  rintro ⟨mock, receipt, member, same⟩
  exact ⟨mock, receipt, sub member, same⟩

theorem StatusLine.Truthful.mono {backend : SettlementBackend} {before after : System}
    {status : StatusLine} (truthful : status.Truthful backend before)
    (issued : before.issued ⊆ after.issued) (envelopes : before.envelopes ⊆ after.envelopes) :
    status.Truthful backend after := by
  cases status with
  | receipt receiptId => exact Receipted.mono truthful issued
  | settled key =>
    obtain ⟨mock, envelope, answered, same, receipt, member, paid⟩ := truthful
    exact ⟨mock, envelope, envelopes answered, same, receipt, issued member, paid⟩
  | _ => exact truthful

section Stepping

variable (framework : Framework) (primitives : Primitives)

/-- The receipts issued and the envelopes answered stay, and the backend is the same. -/
theorem step_keeps (before : System) (action : Action) :
    before.issued ⊆ (before.step framework primitives action).issued ∧
      before.envelopes ⊆ (before.step framework primitives action).envelopes ∧
      (before.step framework primitives action).state.gate.backend =
        before.state.gate.backend := by
  rcases step_cases framework primitives before action with
    same | ⟨request, arrived⟩ | ⟨index, env, front, phase, back, rfl, -, split, advanced⟩
  · rw [same]
    exact ⟨List.Subset.refl _, List.Subset.refl _, rfl⟩
  · rw [arrived]
    refine ⟨List.Subset.refl _, ?_, rfl⟩
    rw [System.envelopes, System.envelopes, List.filterMap_append]
    exact List.subset_append_left _ _
  · rw [advanced]
    refine ⟨List.subset_append_left _ _, ?_,
      advance_backend framework primitives env before.state phase⟩
    intro envelope answered
    rw [System.envelopes, split, List.filterMap_append, List.filterMap_cons] at answered
    rw [System.envelopes, List.filterMap_append, List.filterMap_cons]
    cases phase with
    | answer response => exact answered
    | _ =>
      refine List.mem_append.mpr ((List.mem_append.mp answered).imp_right fun inBack => ?_)
      cases (Phase.envelope _) with
      | none => exact inBack
      | some other => exact List.mem_cons_of_mem _ inBack

/-- What is expected of a request stays so in every step of the process. -/
theorem expected_step (before : System) (action : Action) (button : Button) (index : Nat)
    (expected : ∃ phase, before.tasks[index]? = some phase ∧
      Expected framework before.state.gate.backend before.issued button phase) :
    ∃ phase, (before.step framework primitives action).tasks[index]? = some phase ∧
      Expected framework before.state.gate.backend
        (before.step framework primitives action).issued button phase := by
  obtain ⟨phase, here, expected⟩ := expected
  rcases task_step framework primitives before action index phase here with
    ⟨-, still⟩ | ⟨env, -, moved⟩
  · exact ⟨phase, still, expected.mono (step_keeps framework primitives before action).1⟩
  · rw [moved]
    exact ⟨_, task_moved _ here,
      expected_advance framework primitives env before.state before.issued phase button expected⟩

/-- A step of the process keeps the desk sound. -/
theorem sound_process (backend : SettlementBackend) (before : Desk) (action : Action)
    (after : System) (step : before.system.Step framework primitives action after)
    (sound : before.Sound framework backend) :
    Desk.Sound framework backend { before with system := after } := by
  have accounted := accounted_step framework primitives _ action _ step sound.accounted
  have cleared := cleared_step framework primitives _ action _ step sound.cleared
  obtain ⟨-, rfl⟩ := step
  obtain ⟨issued, envelopes, served⟩ := step_keeps framework primitives before.system action
  refine ⟨accounted, cleared, served.trans sound.served, fun button index waits => ?_, sound.intent,
    sound.named, sound.receiptId.imp_right fun receipted => receipted.mono issued,
    sound.truthful.mono issued envelopes⟩
  have expected := sound.expected button index waits
  rw [← sound.served] at expected ⊢
  exact expected_step framework primitives before.system action button index expected

end Stepping

/-! ### Clicks -/

/-- What the settle button asks for once an intent is announced. -/
theorem command_settle (loop : Loop) (ulid : Ulid)
    (intent : loop.intent = (AgentIntent.mockEthLimitOrder ulid).payload) (command : Command)
    (invoked : loop.command? .settle = some command) : command = .x402Settle ulid.toString := by
  rw [Loop.command?, intent] at invoked
  split_ifs at invoked
  exact (Option.some.inj invoked).symm

/-- Before that it asks for nothing. -/
theorem command_settle_null (loop : Loop) (intent : loop.intent = .null) :
    loop.command? .settle = none := by
  rw [Loop.command?, intent]
  split_ifs
  · rfl
  · rfl

/-- What the retry button asks for once an intent is announced. -/
theorem command_retry (loop : Loop) (command : Command)
    (invoked : loop.command? .retry = some command) :
    loop.canRetry = true ∧ ∃ receiptId, optionalText loop.receiptId = some receiptId ∧
      command = .requestExecution loop.intent receiptId := by
  rw [Loop.command?] at invoked
  split_ifs at invoked with enabled
  rw [Option.bind_eq_bind, Option.bind_eq_some_iff] at invoked
  obtain ⟨receiptId, accepted, same⟩ := invoked
  exact ⟨enabled, receiptId, accepted, (Option.some.inj same).symm⟩

/-- With a facilitator the page never presents a receipt. -/
theorem optionalText_receipted (backend : SettlementBackend) (issued : List PaymentReceipt)
    (id : Option Value) (known : id = some .null ∨ Receipted backend issued id)
    (receiptId : Option String) (accepted : optionalText id = some receiptId) :
    backend = .mock ∨ receiptId = none := by
  rcases known with rfl | ⟨mock, -⟩ | ⟨-, rfl⟩
  · exact .inr (Option.some.inj accepted).symm
  · exact .inl mock
  · exact .inr (Option.some.inj accepted).symm

section Clicked

variable (framework : Framework) (primitives : Primitives) (readsBack : framework.ReadsBack)
  (backend : SettlementBackend) (before : Desk) (sound : before.Sound framework backend)

include readsBack sound in
/-- What is expected of the request that a click puts in. -/
theorem expected_click (button : Button) (command : Command)
    (invoked : before.loop.command? button = some command) (request : Request)
    (built : command.call.request? = some request) :
    Expected framework backend before.system.issued button (handoffRouter request) := by
  cases button with
  | announce =>
    obtain rfl := Option.some.inj invoked
    exact expected_announceClick framework request backend _ built
  | execute =>
    rw [Loop.command?] at invoked
    split_ifs at invoked
    obtain rfl := Option.some.inj invoked
    have named : Visible (textUnder before.loop.intent "intent_id") ∧
        keyLength (textUnder before.loop.intent "intent_id") ≤ 28 := by
      rcases sound.intent with null | ⟨ulid, announced⟩
      · rw [null]
        exact ⟨rfl, by decide +kernel⟩
      · rw [announced]
        exact ⟨visible_ulid ulid, (keyLength_ulid ulid).le⟩
    exact expected_executeClick framework request backend _ _ named.1 named.2 built
  | settle =>
    rcases sound.intent with null | ⟨ulid, announced⟩
    · cases (command_settle_null before.loop null).symm.trans invoked
    · obtain rfl := command_settle before.loop ulid announced command invoked
      exact expected_settleClick framework request readsBack backend _ ulid built
  | retry =>
    obtain ⟨enabled, receiptId, accepted, rfl⟩ := command_retry before.loop command invoked
    obtain ⟨ulid, announced⟩ := sound.named (.inl enabled)
    rw [announced] at built
    exact expected_retryClick framework request readsBack backend _ ulid receiptId
      (optionalText_receipted backend _ _ sound.receiptId receiptId accepted) built

include readsBack sound in
/-- A click keeps the desk sound. -/
theorem sound_click (button : Button) :
    (before.click framework primitives button).Sound framework backend := by
  unfold Desk.click
  cases invoked : before.loop.command? button with
  | none => exact sound
  | some command =>
    dsimp only
    cases built : command.call.request? with
    | none => exact sound
    | some request =>
      have arrives : (Arrival.command command).request? = some request := built
      have expected := expected_click framework readsBack backend before sound button command
        invoked request built
      have stepped := sound_process framework primitives backend before
        (.arrive (.command command)) _ ⟨fun _ drawn => absurd drawn List.not_mem_nil, rfl⟩ sound
      have issued := (step_keeps framework primitives before.system
        (.arrive (.command command))).1
      refine { stepped with expected := fun other index waits => ?_, named := fun some => ?_ }
      · rcases List.mem_append.mp waits with earlier | last
        · exact stepped.expected other index earlier
        · obtain ⟨rfl, rfl⟩ := Prod.mk.inj (List.mem_singleton.mp last)
          exact ⟨_, task_arrive framework primitives before.system _ request arrives,
            expected.mono issued⟩
      · rcases some with enabled | ⟨index, waits⟩
        · exact sound.named (.inl enabled)
        · rcases List.mem_append.mp waits with earlier | last
          · exact sound.named (.inr ⟨index, earlier⟩)
          · obtain ⟨rfl, -⟩ := Prod.mk.inj (List.mem_singleton.mp last)
            refine sound.intent.resolve_left fun null => ?_
            cases (command_settle_null before.loop null).symm.trans invoked

end Clicked

/-! ### Replies -/

/-- A reply is what the page makes of the answer to a request it waited for. -/
theorem reply_cases (framework : Framework) (before : Desk) (place : Nat) (after : Desk)
    (step : before.reply framework place = some after) :
    ∃ button index response, before.waiting[place]? = some (button, index) ∧
      before.system.tasks[index]? = some (.answer response) ∧
      after = { before with
        loop := before.loop.receive framework button response
        waiting := before.waiting.eraseIdx place } := by
  unfold Desk.reply at step
  split at step
  · cases step
  · rename_i button index waits
    split at step
    · rename_i response answered
      exact ⟨button, index, response, waits, answered, (Option.some.inj step).symm⟩
    · cases step

/-- What is sound about a page that waits for a settlement or not. -/
structure Loop.Sound (backend : SettlementBackend) (system : System) (settling : Prop)
    (loop : Loop) : Prop where
  intent : loop.intent = .null ∨
    ∃ ulid, loop.intent = (AgentIntent.mockEthLimitOrder ulid).payload
  named : loop.canRetry = true ∨ settling →
    ∃ ulid, loop.intent = (AgentIntent.mockEthLimitOrder ulid).payload
  receiptId : loop.receiptId = some .null ∨ Receipted backend system.issued loop.receiptId
  truthful : loop.status.Truthful backend system

section Replied

variable (framework : Framework) (readsBack : framework.ReadsBack) (backend : SettlementBackend)
  (system : System) (settling : Prop) (loop : Loop) (sound : loop.Sound backend system settling)
  (response : Response)

include readsBack sound

/-- The reply to each button keeps the page sound. -/
theorem sound_announce
    (expected : Expected framework backend system.issued .announce (.answer response)) :
    (loop.receive framework .announce response).Sound backend system settling := by
  rcases expected with ⟨request, wrong, -⟩ | ⟨ulid, replies⟩
  · cases wrong
  · obtain rfl := Option.some.inj replies
    rw [receive_announce framework readsBack]
    exact ⟨.inr ⟨ulid, rfl⟩, fun _ => ⟨ulid, rfl⟩, sound.receiptId, ulid, rfl⟩

theorem sound_execute
    (expected : Expected framework backend system.issued .execute (.answer response)) :
    (loop.receive framework .execute response).Sound backend system settling := by
  obtain ⟨intentId, short, ⟨request, wrong, -⟩ | replies⟩ := expected
  · cases wrong
  · obtain rfl := Option.some.inj replies
    rw [receive_execute framework readsBack loop intentId short]
    exact ⟨sound.intent, sound.named, sound.receiptId, trivial⟩

theorem sound_settle (waits : settling)
    (expected : Expected framework backend system.issued .settle (.answer response)) :
    (loop.receive framework .settle response).Sound backend system settling := by
  have named := sound.named (.inr waits)
  rcases expected with ⟨request, intentId, wrong, -⟩ |
    ⟨mock, receipt, member, ⟨now, wrong⟩ | replies⟩ | ⟨live, detail, replies⟩
  · cases wrong
  · cases wrong
  · obtain rfl := Option.some.inj replies
    rw [receive_settle_receipt framework readsBack]
    split_ifs
    · have receipted : Receipted backend system.issued (some (.string receipt.receiptId)) :=
        .inl ⟨mock, receipt, member, rfl⟩
      exact ⟨sound.intent, fun _ => named, .inr receipted, receipted⟩
    · exact sound
  · obtain rfl := Option.some.inj replies
    rcases receive_settle_error framework readsBack loop detail with same | same
    · rw [same]
      exact sound
    · rw [same]
      have receipted : Receipted backend system.issued none := .inr ⟨live, rfl⟩
      exact ⟨sound.intent, fun _ => named, .inr receipted, receipted⟩

theorem sound_retry (accounted : system.Accounted)
    (answered : Phase.answer response ∈ system.tasks)
    (expected : Expected framework backend system.issued .retry (.answer response)) :
    (loop.receive framework .retry response).Sound backend system settling := by
  rcases expected with ⟨request, intent, wrong, -⟩ |
    ⟨mock, ⟨request, intent, receipt, wrong, -⟩ | ⟨receipt, intent, wrong⟩ |
      ⟨intent, credential, receipt, replies⟩⟩ | ⟨other, replies, refused⟩
  · cases wrong
  · cases wrong
  · cases wrong
  · obtain rfl := Option.some.inj replies
    rw [receive_retry_envelope framework readsBack]
    split_ifs
    · have listed : OneShotEnvelope.package intent.payload credential receipt ∈
          system.envelopes := List.mem_filterMap.mpr ⟨_, answered, rfl⟩
      exact ⟨sound.intent, sound.named, sound.receiptId, mock, _, listed, rfl,
        accounted.paidBy _ listed⟩
    · exact sound
  · obtain rfl := Option.some.inj replies
    rcases receive_retry_refused framework loop response refused with same | same
    · rw [same]
      exact sound
    · rw [same]
      exact ⟨sound.intent, sound.named, sound.receiptId, refused⟩

end Replied

/-- A reply keeps the desk sound. -/
theorem sound_reply (framework : Framework) (readsBack : framework.ReadsBack)
    (backend : SettlementBackend) (before : Desk) (place : Nat) (after : Desk)
    (step : before.reply framework place = some after) (sound : before.Sound framework backend) :
    after.Sound framework backend := by
  obtain ⟨button, index, response, waits, answered, rfl⟩ :=
    reply_cases framework before place after step
  have waiting : (button, index) ∈ before.waiting := List.mem_of_getElem? waits
  obtain ⟨phase, here, expected⟩ := sound.expected button index waiting
  cases answered.symm.trans here
  have page : before.loop.Sound backend before.system
      (∃ index, (Button.settle, index) ∈ before.waiting) :=
    ⟨sound.intent, sound.named, sound.receiptId, sound.truthful⟩
  have next : (before.loop.receive framework button response).Sound backend before.system
      (∃ index, (Button.settle, index) ∈ before.waiting) := by
    cases button with
    | announce =>
      exact sound_announce framework readsBack backend _ _ _ page response expected
    | execute => exact sound_execute framework readsBack backend _ _ _ page response expected
    | settle =>
      exact sound_settle framework readsBack backend _ _ _ page response ⟨index, waiting⟩ expected
    | retry =>
      exact sound_retry framework readsBack backend _ _ _ page response sound.accounted
        (List.mem_of_getElem? here) expected
  exact {
    accounted := sound.accounted
    cleared := sound.cleared
    served := sound.served
    expected := fun other at_ waits => sound.expected other at_ (List.mem_of_mem_eraseIdx waits)
    intent := next.intent
    named := fun some => next.named (some.imp_right (Exists.imp fun _ waits =>
      List.mem_of_mem_eraseIdx waits))
    receiptId := next.receiptId
    truthful := next.truthful }

/-! ### Every step -/

theorem sound_desk_step (framework : Framework) (primitives : Primitives)
    (readsBack : framework.ReadsBack) (backend : SettlementBackend) (before : Desk)
    (action : DeskAction) (after : Desk) (step : before.Step framework primitives action after)
    (sound : before.Sound framework backend) : after.Sound framework backend := by
  cases action with
  | process action =>
    obtain ⟨stepped, loop, waiting⟩ := step
    have next := sound_process framework primitives backend before action after.system stepped sound
    have same : after = { before with system := after.system } := by
      rw [← loop, ← waiting]
    rw [same]
    exact next
  | click button =>
    obtain rfl : after = _ := step
    exact sound_click framework primitives readsBack backend before sound button
  | reply place => exact sound_reply framework readsBack backend before place after step sound

theorem sound_desk_start (framework : Framework) (backend : SettlementBackend) :
    (Desk.start backend).Sound framework backend where
  accounted := accounted_start backend
  cleared receipt none := absurd none List.not_mem_nil
  served := rfl
  expected button index waits := absurd waits List.not_mem_nil
  intent := .inl rfl
  named some := by
    rcases some with enabled | ⟨index, waits⟩
    · cases enabled
    · exact absurd waits List.not_mem_nil
  receiptId := .inl rfl
  truthful := trivial

end Hammurabi
