/-
This file is what reaches the router from inside the process: the commands of the
desktop shell and the OKX bridge.

Both put a request together, drive it through the same router and read the response
back as a document, within a limit. Driving one request alone takes the steps of its
phases one after the other; it always ends with an answer.

The request of a paid intent carries the intent's id twice: in the body, which carries
any string, and as a header, which reads back only when the id is visible.
-/

import Hammurabi.Server

namespace Hammurabi

open Json Unicode

/-! ### One request alone -/

/-- What handling a request leaves: the state, the lines it posted, and its last phase. -/
structure Handled where
  state : HandoffState
  lines : List MeshMessage
  phase : Phase

/-- The line a step adds to the feed. -/
def Phase.line : Phase → List MeshMessage
  | .push message _ => [message]
  | _ => []

section Handling

variable (framework : Framework) (primitives : Primitives)

/-- Take the steps of a request one after the other, each in its own environment. -/
def drive (envs : Nat → Env) : Nat → Nat → HandoffState → Phase → Handled
  | 0, _, state, phase => ⟨state, [], phase⟩
  | fuel + 1, k, state, phase =>
    match phase with
    | .answer response => ⟨state, [], .answer response⟩
    | phase =>
      let next := advance framework primitives (envs k) state phase
      let rest := drive envs fuel (k + 1) next.1 next.2
      { rest with lines := phase.line ++ rest.lines }

/-- More steps than any request takes. -/
def maxSteps : Nat := 16

/-- Handle a request alone. -/
def handle (envs : Nat → Env) (state : HandoffState) (request : Request) : Handled :=
  drive framework primitives envs maxSteps 0 state (handoffRouter request)

/-! ### In-process dispatch -/

/-- What is handed to the router in-process. -/
structure RouterCall where
  method : String
  uri : String
  headers : List (String × String)
  body : Option Value

def RouterCall.request? (call : RouterCall) : Option Request :=
  buildRequest call.method call.uri call.headers call.body

/-- The limit of a response read in-process. -/
def maxResponseBytes : Nat := 1 <<< 20

/-- Read a response back as a status and a document. -/
def readResponse (response : Response) : Except String (Nat × Value) :=
  let bytes := response.body.bytes
  if maxResponseBytes < bytes.length then
    .error s!"body read failed: {framework.lengthError}"
  else if bytes.isEmpty then .ok (response.status, .null)
  else
    match framework.fromSlice bytes with
    | none => .error s!"non-JSON response: {framework.syntaxError bytes}"
    | some value => .ok (response.status, value)

/-- Drive one request through the router in-process and decode the body. -/
def oneshotJson (envs : Nat → Env) (state : HandoffState) (call : RouterCall) :
    HandoffState × Except String (Nat × Value) :=
  match call.request? with
  | none => (state, .error s!"request build failed: {framework.headerError}")
  | some request =>
    let handled := handle framework primitives envs state request
    match handled.phase with
    | .answer response => (handled.state, readResponse framework response)
    | _ => (handled.state, .error "dispatch failed")

end Handling

/-! ### The desktop shell -/

/-- A command of the shell that goes through the router. -/
inductive Command where
  | agentAnnounce
  | x402Settle (intentId : String)
  | requestExecution (intent : Value) (receiptId : Option String)

/-- The text under a key, or the empty one. -/
def textUnder (value : Value) (key : String) : String :=
  ((value.get key).bind Value.asStr).getD ""

/-- The headers of an execution: the intent's id, and the receipt's if there is one. -/
def executionHeaders (intentId : String) (receiptId : Option String) : List (String × String) :=
  (intentHeader, intentId) :: (receiptId.map fun id => (receiptHeader, id)).toList

def Command.call : Command → RouterCall
  | .agentAnnounce => ⟨"POST", "/agent/announce", [], none⟩
  | .x402Settle intentId =>
    ⟨"POST", "/x402/settle", [], some (.object [("intent_id", .string intentId)])⟩
  | .requestExecution intent receiptId =>
    ⟨"POST", "/execute", executionHeaders (textUnder intent "intent_id") receiptId, some intent⟩

/-! ### The OKX bridge -/

/-- An invocation of one of the advertised capabilities. -/
structure OkxInvocation where
  capability : String
  requestId : String
  params : Value

/-- The result rendered by the storefront. -/
structure OkxResult where
  requestId : String
  status : Nat
  body : Value

def OkxResult.forInvocation (inv : OkxInvocation) (status : Nat) (body : Value) : OkxResult where
  requestId := inv.requestId
  status := status
  body := body

/-- Announce without parameters stands for the server's mock intent. -/
def announceBody : Value → Option Value
  | .null => none
  | .object [] => none
  | other => some other

/-- The intent and the receipt id of a minting, from either of the two shapes. -/
def splitMintingParams (params : Value) : Value × Option String :=
  match params.get "intent" with
  | some intent => (intent, (params.get "receipt_id").bind Value.asStr)
  | none => (params, none)

/-- What a capability hands to the router, if it is known. -/
def OkxInvocation.call (inv : OkxInvocation) : Option RouterCall :=
  if inv.capability = "audit_feed" then some ⟨"GET", "/mesh/feed", [], none⟩
  else if inv.capability = "intent_announce" then
    some ⟨"POST", "/agent/announce", [], announceBody inv.params⟩
  else if inv.capability = "payment_settlement" then
    some ⟨"POST", "/x402/settle", [],
      some (.object [("intent_id", .string (textUnder inv.params "intent_id"))])⟩
  else if inv.capability = "credential_minting" then
    let (intent, receipt) := splitMintingParams inv.params
    some ⟨"POST", "/execute", executionHeaders (textUnder intent "intent_id") receipt, some intent⟩
  else none

/-- Route one invocation through the router and wrap the response. -/
def dispatchOkx (framework : Framework) (primitives : Primitives) (envs : Nat → Env)
    (state : HandoffState) (inv : OkxInvocation) : HandoffState × Except String OkxResult :=
  match inv.call with
  | none => (state, .error s!"unknown OKX capability: {inv.capability}")
  | some call =>
    let answered := oneshotJson framework primitives envs state call
    (answered.1, answered.2.map fun response => .forInvocation inv response.1 response.2)

/-! ### Responses read back -/

/-- A response is read back under its own status. -/
theorem readResponse_status (framework : Framework) (response : Response) (status : Nat)
    (document : Value) (read : readResponse framework response = .ok (status, document)) :
    status = response.status := by
  rw [readResponse] at read
  split_ifs at read
  · exact (congrArg Prod.fst (Except.ok.inj read)).symm
  · split at read
    · cases read
    · exact (congrArg Prod.fst (Except.ok.inj read)).symm

/-- A document is read back when it is within the limit. -/
theorem readResponse_document (framework : Framework) (readsBack : framework.ReadsBack)
    (response : Response) (document : Value) (carries : response.body.document = some document)
    (unique : document.UniqueKeys) (integer : document.IntegerOnly)
    (shallow : document.depth < 128) :
    readResponse framework response =
      if document.byteLength ≤ maxResponseBytes then .ok (response.status, document)
      else .error s!"body read failed: {framework.lengthError}" := by
  have bytes : response.body.bytes = utf8 document.text := by
    unfold Body.bytes
    split
    · rename_i text
      rw [text] at carries
      cases carries
    · rw [carries]
  have nonempty : (utf8 document.text).isEmpty = false := by
    obtain ⟨c, rest, text, -⟩ := text_head document fun number member =>
      numberReadsBack_of_integerOnly number
        ((Value.integerOnly_iff_numbers document).mp integer number member)
    rw [text, utf8_cons, List.isEmpty_eq_false_iff]
    exact List.append_ne_nil_of_left_ne_nil (utf8EncodeChar_ne_nil c) _
  rw [readResponse, bytes, nonempty, readsBack.document document unique integer shallow,
    Value.byteLength]
  by_cases exceeds : maxResponseBytes < (utf8 document.text).length
  · rw [if_pos exceeds, if_neg (Nat.not_le_of_lt exceeds)]
  · rw [if_neg exceeds, if_pos (Nat.le_of_not_lt exceeds)]
    rfl

theorem uniqueKeys_broadcast (intent : AgentIntent) (credential : EphemeralCredential)
    (receipt : PaymentReceipt) :
    (OneShotEnvelope.package intent.payload credential receipt).toBroadcastJson.UniqueKeys := by
  simp [OneShotEnvelope.toBroadcastJson, OneShotEnvelope.package, SettlementParams.toJson,
    Value.ofUInt64, uniqueKeys_ofInt64, intent.payload_uniqueKeys]

theorem integerOnly_broadcast (intent : AgentIntent) (credential : EphemeralCredential)
    (receipt : PaymentReceipt) :
    (OneShotEnvelope.package intent.payload credential receipt).toBroadcastJson.IntegerOnly := by
  simp [OneShotEnvelope.toBroadcastJson, OneShotEnvelope.package, SettlementParams.toJson,
    Value.ofUInt64, integerOnly_ofInt64, intent.payload_integerOnly]

theorem depth_broadcast (intent : AgentIntent) (credential : EphemeralCredential)
    (receipt : PaymentReceipt) :
    (OneShotEnvelope.package intent.payload credential receipt).toBroadcastJson.depth = 4 := by
  simp [OneShotEnvelope.toBroadcastJson, OneShotEnvelope.package, SettlementParams.toJson,
    Value.ofUInt64, depth_ofInt64, AgentIntent.payload, LimitOrder.toJson, OrderSide.toJson,
    Value.depth, Value.depthMembers]

/-- An envelope is read back when it is within the limit. -/
theorem readResponse_envelope (framework : Framework) (readsBack : framework.ReadsBack)
    (intent : AgentIntent) (credential : EphemeralCredential) (receipt : PaymentReceipt) :
    readResponse framework
        ⟨200, .envelope (.package intent.payload credential receipt)⟩ =
      let document := (OneShotEnvelope.package intent.payload credential receipt).toBroadcastJson
      if document.byteLength ≤ maxResponseBytes then .ok (200, document)
      else .error s!"body read failed: {framework.lengthError}" := by
  exact readResponse_document framework readsBack _ _ rfl
    (uniqueKeys_broadcast intent credential receipt)
    (integerOnly_broadcast intent credential receipt) (by
      rw [depth_broadcast]
      decide)

/-! ### The invocation of a paid intent -/

/-- The invocation that has a paid intent minted. -/
def mintingInvocation (requestId : String) (intent : AgentIntent) (receiptId : String) :
    OkxInvocation where
  capability := "credential_minting"
  requestId := requestId
  params := .object [("intent", intent.payload), ("receipt_id", .string receiptId)]

/-- The headers it puts on the request. -/
def mintingHeaders (intent : AgentIntent) (receiptId : String) : List (String × String) :=
  [(intentHeader, intent.intentId), (receiptHeader, receiptId)]

theorem mintingInvocation_call (requestId : String) (intent : AgentIntent) (receiptId : String) :
    (mintingInvocation requestId intent receiptId).call =
      some ⟨"POST", "/execute", mintingHeaders intent receiptId, some intent.payload⟩ := rfl

/-- A text of visible ASCII and tabs. -/
def Visible (text : String) : Prop := (utf8 text.toList).all isVisibleByte = true

theorem visible_ulid (ulid : Ulid) : Visible ulid.toString := by
  rw [Visible, Ulid.toString, String.toList_ofList,
    utf8_ascii _ fun c member => Nat.lt_of_le_of_lt (ulid.toChars_bounds c member).2 (by decide),
    List.all_map, List.all_eq_true]
  intro c member
  obtain ⟨low, high⟩ := ulid.toChars_bounds c member
  rw [Function.comp_apply, isVisibleByte, Bool.or_eq_true, Bool.and_eq_true, decide_eq_true_iff,
    decide_eq_true_iff, UInt8.le_iff_toNat_le, UInt8.lt_iff_toNat_lt, UInt8.toNat_ofNat']
  refine .inl ⟨?_, ?_⟩
  · change 0x20 ≤ c.toNat % 2 ^ 8
    omega
  · change c.toNat % 2 ^ 8 < 0x7f
    omega

/-- The request carries a visible id as its header, and any other id as none. -/
theorem headerStr?_minting (intent : AgentIntent) (receiptId : String) (request : Request)
    (built : buildRequest "POST" "/execute" (mintingHeaders intent receiptId)
      (some intent.payload) = some request) :
    (Visible intent.intentId → request.headerStr? intentHeader = some intent.intentId) ∧
      (¬ Visible intent.intentId → request.headerStr? intentHeader = none) ∧
      (Visible receiptId → request.headerStr? receiptHeader = some receiptId) := by
  have header : request.headerStr? intentHeader =
      (HeaderValue.ofString? intent.intentId).bind HeaderValue.toStr? :=
    headerStr?_buildRequest _ _ _ _ _ built intentHeader (by decide)
  have presented : request.headerStr? receiptHeader =
      (HeaderValue.ofString? receiptId).bind HeaderValue.toStr? :=
    headerStr?_buildRequest _ _ _ _ _ built receiptHeader (by decide)
  rw [header, presented, HeaderValue.toStr?_ofString?, HeaderValue.toStr?_ofString?]
  exact ⟨fun visible => if_pos visible, fun hidden => if_neg hidden, fun visible => if_pos visible⟩

/-- A visible text may stand in a header. -/
theorem exists_ofString? (text : String) (visible : Visible text) :
    ∃ value, HeaderValue.ofString? text = some value := by
  have travels := HeaderValue.toStr?_ofString? text
  rw [Visible] at visible
  rw [if_pos visible, Option.bind_eq_some_iff] at travels
  obtain ⟨value, fits, -⟩ := travels
  exact ⟨value, fits⟩

theorem exists_mintingRequest (intent : AgentIntent) (receiptId : String)
    (visible : Visible intent.intentId) (visibleReceipt : Visible receiptId) :
    ∃ request, buildRequest "POST" "/execute" (mintingHeaders intent receiptId)
      (some intent.payload) = some request := by
  refine exists_buildRequest _ _ _ _ ?_
  intro header member
  rcases List.mem_cons.mp member with rfl | member
  · exact exists_ofString? _ visible
  · rw [List.mem_singleton.mp member]
    exact exists_ofString? _ visibleReceipt

/-- The body of the request is the intent. -/
theorem extractJson_minting (framework : Framework) (readsBack : framework.ReadsBack)
    (intent : AgentIntent) (receiptId : String) (request : Request)
    (built : buildRequest "POST" "/execute" (mintingHeaders intent receiptId)
      (some intent.payload) = some request)
    (small : intent.payload.byteLength ≤ maxRequestBodyBytes) :
    framework.extractJson AgentIntent.fromJson request = some intent := by
  have read := readsBack.body _ intent.payload_uniqueKeys intent.payload_integerOnly
    intent.payload_depth
  exact (extractJson_buildRequest framework _ _ _ _ _ _ built rfl readsBack.contentType read
    small).trans intent.fromJson_payload

/-! ### Handling always answers -/

/-- How many steps a phase is away from its answer, at most. -/
def Phase.distance : Phase → Nat
  | .feed => 1
  | .announce _ => 4
  | .settle _ => 5
  | .record _ _ => 4
  | .guard _ => 9
  | .execute _ _ => 8
  | .mint _ _ => 7
  | .narrate _ _ _ after => after.distance + 3
  | .push _ after => after.distance + 2
  | .send _ after => after.distance + 1
  | .answer _ => 0

section Answering

variable (framework : Framework) (primitives : Primitives)

/-- Every step comes closer to the answer. -/
theorem distance_advance (env : Env) (state : HandoffState) (phase : Phase)
    (waiting : 0 < phase.distance) :
    (advance framework primitives env state phase).2.distance < phase.distance := by
  cases phase with
  | feed => exact Nat.one_pos
  | announce request => exact Nat.lt_succ_self 3
  | settle request =>
    rcases x402Settle_cases framework env state request with
      ⟨phase, response, -, comes, rfl | ⟨body, rfl⟩⟩ | ⟨req, receipt, -, -, comes⟩
    · rw [advance, comes]
      exact waiting
    · rw [advance, comes]
      exact Nat.lt_of_sub_eq_succ rfl
    · rw [advance, comes]
      exact Nat.lt_succ_self 4
  | record receipt now => exact Nat.lt_succ_self 3
  | guard request =>
    rcases paymentGuard_cases state request with
      ⟨gate, body, -, comes⟩ | ⟨receiptId, receipt, -, -, -, comes⟩
    · rw [advance, comes]
      exact Nat.lt_of_sub_eq_succ rfl
    · rw [advance, comes]
      exact Nat.lt_succ_self 8
  | execute request receipt =>
    rcases execute_cases framework state request receipt with
      ⟨response, -, comes⟩ | ⟨intent, -, -, comes⟩
    · rw [advance, comes]
      exact waiting
    · rw [advance, comes]
      exact Nat.lt_succ_self 7
  | mint receipt intent =>
    rcases mintAndPackage_cases primitives env state receipt intent with
      ⟨refusal, body, response, -, -, comes⟩ | ⟨credential, body, -, comes⟩
    · rw [advance, comes]
      exact Nat.lt_of_sub_eq_succ rfl
    · rw [advance, comes]
      exact Nat.lt_succ_self 6
  | narrate sender kind body after => exact Nat.lt_succ_self _
  | push message after => exact Nat.lt_succ_self _
  | send message after => exact Nat.lt_succ_self _
  | answer response => exact absurd waiting (Nat.lt_irrefl 0)

theorem distance_eq_zero (phase : Phase) (arrived : phase.distance = 0) :
    ∃ response, phase = .answer response := by
  cases phase with
  | answer response => exact ⟨response, rfl⟩
  | narrate sender kind body after => cases arrived
  | push message after => cases arrived
  | send message after => cases arrived
  | _ => cases arrived

/-- A request that is answered takes no more steps. -/
@[simp] theorem drive_answer (envs : Nat → Env) (fuel k : Nat) (state : HandoffState)
    (response : Response) :
    drive framework primitives envs fuel k state (.answer response) =
      ⟨state, [], .answer response⟩ := by
  cases fuel with
  | zero => rfl
  | succ fuel => rfl

/-- A request that waits takes one step, and then the others. -/
theorem drive_succ (envs : Nat → Env) (fuel k : Nat) (state : HandoffState) (phase : Phase)
    (waiting : 0 < phase.distance) :
    drive framework primitives envs (fuel + 1) k state phase =
      let next := advance framework primitives (envs k) state phase
      let rest := drive framework primitives envs fuel (k + 1) next.1 next.2
      { rest with lines := phase.line ++ rest.lines } := by
  cases phase with
  | answer response => exact absurd waiting (Nat.lt_irrefl 0)
  | _ => rfl

/-- With enough steps a request reaches its answer. -/
theorem drive_answers (envs : Nat → Env) (fuel k : Nat) (state : HandoffState) (phase : Phase)
    (enough : phase.distance ≤ fuel) :
    ∃ response, (drive framework primitives envs fuel k state phase).phase = .answer response := by
  induction fuel generalizing k state phase with
  | zero =>
    obtain ⟨response, rfl⟩ := distance_eq_zero phase (Nat.le_zero.mp enough)
    exact ⟨response, rfl⟩
  | succ fuel inductionHypothesis =>
    rcases Nat.eq_zero_or_pos phase.distance with arrived | waiting
    · obtain ⟨response, rfl⟩ := distance_eq_zero phase arrived
      exact ⟨response, rfl⟩
    · have closer := distance_advance framework primitives (envs k) state phase waiting
      have rest := inductionHypothesis (k + 1) (advance framework primitives (envs k) state phase).1
        (advance framework primitives (envs k) state phase).2 (by omega)
      rw [drive_succ framework primitives envs fuel k state phase waiting]
      exact rest

theorem distance_handoffRouter (request : Request) :
    (handoffRouter request).distance ≤ maxSteps := by
  rw [handoffRouter]
  split_ifs
  all_goals exact Nat.le_of_ble_eq_true rfl

/-- Handling a request always ends with an answer. -/
theorem handle_answers (envs : Nat → Env) (state : HandoffState) (request : Request) :
    ∃ response, (handle framework primitives envs state request).phase = .answer response :=
  drive_answers framework primitives envs maxSteps 0 state _ (distance_handoffRouter request)

end Answering

/-- Every request to execute is guarded first. -/
theorem handle_execution (framework : Framework) (primitives : Primitives) (envs : Nat → Env)
    (state : HandoffState) (request : Request) (execution : request.uri = "/execute") :
    handle framework primitives envs state request =
      drive framework primitives envs 15 1 (paymentGuard state request).1
        (paymentGuard state request).2 := by
  rw [handle, handoffRouter_execute request execution, maxSteps,
    drive_succ framework primitives envs 15 0 state (.guard request) (Nat.zero_lt_succ 8)]
  rfl

/-- An invocation whose request is built is answered with what is read of the response. -/
theorem dispatchOkx_of_answer (framework : Framework) (primitives : Primitives) (envs : Nat → Env)
    (state : HandoffState) (inv : OkxInvocation) (call : RouterCall) (request : Request)
    (response : Response) (known : inv.call = some call) (built : call.request? = some request)
    (answered : (handle framework primitives envs state request).phase = .answer response) :
    (dispatchOkx framework primitives envs state inv).2 =
      (readResponse framework response).map fun read => .forInvocation inv read.1 read.2 := by
  rw [dispatchOkx, known]
  dsimp only
  rw [oneshotJson, built]
  dsimp only
  rw [answered]

theorem dispatchOkx_state_of_answer (framework : Framework) (primitives : Primitives)
    (envs : Nat → Env) (state : HandoffState) (inv : OkxInvocation) (call : RouterCall)
    (request : Request) (response : Response) (known : inv.call = some call)
    (built : call.request? = some request)
    (answered : (handle framework primitives envs state request).phase = .answer response) :
    (dispatchOkx framework primitives envs state inv).1 =
      (handle framework primitives envs state request).state := by
  rw [dispatchOkx, known]
  dsimp only
  rw [oneshotJson, built]
  dsimp only
  rw [answered]

theorem dispatchOkx_of_unbuilt (framework : Framework) (primitives : Primitives)
    (envs : Nat → Env) (state : HandoffState) (inv : OkxInvocation) (call : RouterCall)
    (known : inv.call = some call) (unbuilt : call.request? = none) :
    (dispatchOkx framework primitives envs state inv).2 =
      .error s!"request build failed: {framework.headerError}" := by
  rw [dispatchOkx, known]
  dsimp only
  rw [oneshotJson, unbuilt]
  rfl

/-! ### Requests that only narrate -/

/-- The answer a request is on its way to, when all that is left to do is to narrate. -/
def Phase.reply : Phase → Option Response
  | .narrate _ _ _ after => after.reply
  | .push _ after => after.reply
  | .send _ after => after.reply
  | .answer response => some response
  | _ => none

/-- Such a request is answered with it. -/
theorem drive_reply (framework : Framework) (primitives : Primitives) (envs : Nat → Env)
    (fuel k : Nat) (state : HandoffState) (phase : Phase) (response : Response)
    (enough : phase.distance ≤ fuel) (replies : phase.reply = some response) :
    (drive framework primitives envs fuel k state phase).phase = .answer response := by
  induction fuel generalizing k state phase with
  | zero =>
    obtain ⟨other, rfl⟩ := distance_eq_zero phase (Nat.le_zero.mp enough)
    exact congrArg Phase.answer (Option.some.inj replies)
  | succ fuel inductionHypothesis =>
    cases phase with
    | narrate sender kind body after =>
      exact inductionHypothesis _ _ (.push _ after) (Nat.le_of_succ_le_succ enough) replies
    | push message after =>
      exact inductionHypothesis _ _ (.send _ after) (Nat.le_of_succ_le_succ enough) replies
    | send message after =>
      exact inductionHypothesis _ _ after (Nat.le_of_succ_le_succ enough) replies
    | answer other => exact congrArg Phase.answer (Option.some.inj replies)
    | _ => cases replies

/-! ### Requests that leave the gate alone -/

/-- Whether a request may still change the gate: it is to settle, to record or to be guarded. -/
def Phase.touchesGate : Phase → Bool
  | .settle _ => true
  | .record _ _ => true
  | .guard _ => true
  | .narrate _ _ _ after => after.touchesGate
  | .push _ after => after.touchesGate
  | .send _ after => after.touchesGate
  | _ => false

section Quiet

variable (framework : Framework) (primitives : Primitives)

/-- Such a request leaves the gate alone in every step. -/
theorem advance_quiet (env : Env) (state : HandoffState) (phase : Phase)
    (quiet : phase.touchesGate = false) :
    (advance framework primitives env state phase).1.gate = state.gate ∧
      (advance framework primitives env state phase).2.touchesGate = false := by
  cases phase with
  | feed => exact ⟨rfl, rfl⟩
  | announce request => exact ⟨rfl, rfl⟩
  | settle request => cases quiet
  | record receipt now => cases quiet
  | guard request => cases quiet
  | execute request receipt =>
    rcases execute_cases framework state request receipt with
      ⟨response, -, comes⟩ | ⟨intent, -, -, comes⟩
    · rw [advance, comes]
      exact ⟨rfl, rfl⟩
    · rw [advance, comes]
      exact ⟨rfl, rfl⟩
  | mint receipt intent =>
    rcases mintAndPackage_cases primitives env state receipt intent with
      ⟨refusal, body, response, -, -, comes⟩ | ⟨credential, body, -, comes⟩
    · rw [advance, comes]
      exact ⟨rfl, rfl⟩
    · rw [advance, comes]
      exact ⟨rfl, rfl⟩
  | narrate sender kind body after => exact ⟨rfl, quiet⟩
  | push message after => exact ⟨rfl, quiet⟩
  | send message after => exact ⟨rfl, quiet⟩
  | answer response => exact ⟨rfl, rfl⟩

theorem drive_quiet (envs : Nat → Env) (fuel k : Nat) (state : HandoffState) (phase : Phase)
    (quiet : phase.touchesGate = false) :
    (drive framework primitives envs fuel k state phase).state.gate = state.gate := by
  induction fuel generalizing k state phase with
  | zero => rfl
  | succ fuel inductionHypothesis =>
    rcases Nat.eq_zero_or_pos phase.distance with arrived | waiting
    · obtain ⟨response, rfl⟩ := distance_eq_zero phase arrived
      rw [drive_answer]
    · obtain ⟨same, still⟩ := advance_quiet framework primitives (envs k) state phase quiet
      rw [drive_succ framework primitives envs fuel k state phase waiting]
      exact (inductionHypothesis _ _ _ still).trans same

end Quiet

end Hammurabi
