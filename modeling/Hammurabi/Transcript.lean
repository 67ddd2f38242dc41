/-
This file is about the transcript: the feed as one text, a line for each message.

The renderings are joined by newlines, so cutting the transcript at its newlines gives
them back exactly when none of them has a newline of its own. A rendering quotes the
sender and the body of its message as they are. Most senders and bodies are the code's
own texts around identifiers and numbers; but the handle of an agent and the id of an
intent come from request bodies, and a line quotes them unescaped. So the law holds of
every run in which these have no newline, and one announced handle is enough to break it
and to show a line that no component posted.
-/

import Hammurabi.AuditLog
import Hammurabi.Library.Lines

namespace Hammurabi

open Json Runs Unicode

/-! ### Unbroken texts -/

/-- A text without a newline. -/
def Unbroken (text : String) : Prop := '\n' ∉ text.toList

instance : DecidablePred Unbroken := fun text => inferInstanceAs (Decidable ('\n' ∉ text.toList))

theorem unbroken_append (first second : String) :
    Unbroken (first ++ second) ↔ Unbroken first ∧ Unbroken second := by
  rw [Unbroken, String.toList_append, List.mem_append, not_or]
  rfl

/-- A text of characters from a space up is unbroken. -/
theorem unbroken_of_printable (text : String) (printable : ∀ c ∈ text.toList, 0x20 ≤ c.toNat) :
    Unbroken text :=
  fun newline => absurd (printable '\n' newline) (by decide)

theorem unbroken_nat (number : Nat) : Unbroken (toString number) := by
  refine unbroken_of_printable _ fun c member => isDigit_printable ?_
  rw [Nat.toString_eq_repr, Nat.toList_repr] at member
  exact isDigit_toDigits number c member

theorem unbroken_int (number : Int) : Unbroken (toString number) := by
  cases number with
  | ofNat number => exact unbroken_nat number
  | negSucc number => exact (unbroken_append "-" _).mpr ⟨by decide, unbroken_nat (number + 1)⟩

theorem unbroken_bool (value : Bool) : Unbroken (toString value) := by
  cases value <;> decide

theorem unbroken_ulid (ulid : Ulid) : Unbroken ulid.toString := by
  refine unbroken_of_printable _ fun c member => ?_
  rw [Ulid.toString, String.toList_ofList] at member
  exact Nat.le_trans (by decide) (ulid.toChars_bounds c member).1

/-- What a header reads as is unbroken. -/
theorem unbroken_headerStr? (request : Request) (name text : String)
    (read : request.headerStr? name = some text) : Unbroken text := by
  obtain ⟨value, -, same⟩ := Option.bind_eq_some_iff.mp read
  rw [HeaderValue.toStr?] at same
  split_ifs at same with visible
  obtain rfl := Option.some.inj same
  intro newline
  rw [String.toList_ofList] at newline
  have bytes := utf8_decodeAscii value.1 fun byte member =>
    ascii_of_visible byte (List.all_eq_true.mp visible byte member)
  have byte : (0x0a : UInt8) ∈ value.1 := by
    rw [← bytes]
    exact List.mem_flatMap.mpr ⟨'\n', newline, by decide⟩
  exact absurd (List.all_eq_true.mp visible 0x0a byte) (by decide)

/-! ### Lines and the transcript -/

/-- A line whose sender and body have no newline. -/
def MeshMessage.Unbroken (message : MeshMessage) : Prop :=
  Hammurabi.Unbroken message.sender ∧ Hammurabi.Unbroken message.body

/-- Cut at its newlines, the transcript has exactly one piece for each message, its rendering. -/
def MeshBus.OneLinePerMessage (bus : MeshBus) : Prop :=
  bus.transcript.toList.splitOn '\n' = bus.feed.map fun message => message.render.toList

/-- A rendering is the number in its brackets, the sender in its own, and the body. -/
theorem toList_render (message : MeshMessage) :
    message.render.toList =
      "[".toList ++ (List.replicate (4 - (Nat.toDigits 10 message.seq.toNat).length) ' ' ++
        Nat.toDigits 10 message.seq.toNat) ++ "] <".toList ++ message.sender.toList ++
      "> ".toList ++ message.body.toList := by
  have parts : message.render = "[" ++ String.ofList (List.replicate
      (4 - (toString message.seq.toNat).length) ' ') ++ toString message.seq.toNat ++ "] <" ++
      message.sender ++ "> " ++ message.body := rfl
  have number : (toString message.seq.toNat).toList = Nat.toDigits 10 message.seq.toNat := by
    rw [Nat.toString_eq_repr, Nat.toList_repr]
  have digits : (toString message.seq.toNat).length =
      (Nat.toDigits 10 message.seq.toNat).length := by
    rw [← number, String.length_toList]
  rw [parts, digits]
  simp only [String.toList_append, String.toList_ofList, number, List.append_assoc]

/-- A rendering has the newlines of the sender and the body. -/
theorem unbroken_render (message : MeshMessage) :
    Unbroken message.render ↔ message.Unbroken := by
  have padding : ∀ count, '\n' ∉ List.replicate count ' ' :=
    fun count member => absurd (List.eq_of_mem_replicate member) (by decide)
  have number : '\n' ∉ Nat.toDigits 10 message.seq.toNat :=
    fun member => absurd (isDigit_toDigits _ _ member) (by decide)
  have marks : '\n' ∉ "[".toList ∧ '\n' ∉ "] <".toList ∧ '\n' ∉ "> ".toList := by decide
  simp only [Unbroken, MeshMessage.Unbroken, toList_render, List.mem_append, not_or, padding,
    number, marks, not_false_eq_true, true_and, and_true]

/-- The transcript has one line per message exactly when there are messages, and none of them has
a newline in its sender or its body. -/
theorem oneLinePerMessage_iff (bus : MeshBus) :
    bus.OneLinePerMessage ↔ bus.feed ≠ [] ∧ ∀ message ∈ bus.feed, message.Unbroken := by
  have joined : bus.transcript.toList =
      ['\n'].intercalate (bus.feed.map fun message => message.render.toList) := by
    rw [MeshBus.transcript, String.toList_intercalate, List.map_map]
    rfl
  rw [MeshBus.OneLinePerMessage, joined, Lines.splitOn_intercalate_eq_iff, ne_eq,
    List.map_eq_nil_iff, List.forall_mem_map]
  exact and_congr_right fun _ => forall₂_congr fun message _ => unbroken_render message

/-! ### What requests may quote -/

/-- A handle that a request announces, and the id of an intent that it settles, have no newline. -/
def Request.Unbroken (framework : Framework) (request : Request) : Prop :=
  (handoffRouter request = .announce request →
    ∀ intent, framework.extractJson AgentIntent.fromJson request = some intent →
      Hammurabi.Unbroken intent.agentHandle) ∧
  (handoffRouter request = .settle request →
    ∀ req, framework.extractJson SettleRequest.fromJson request = some req →
      Hammurabi.Unbroken req.intentId)

/-- What comes in from outside quotes no newline. -/
def Action.Unbroken (framework : Framework) : Action → Prop
  | .arrive arrival => ∀ request, arrival.request? = some request → request.Unbroken framework
  | .advance _ _ => True

/-- The texts of a backend's failures have no newline. -/
def SettlementBackend.Unbroken (backend : SettlementBackend) : Prop :=
  ∀ intentId payment now ulid refusal,
    backend.settle intentId payment now ulid = .error refusal →
      Hammurabi.Unbroken refusal.toString

/-- No line that a request may still log has a newline. -/
def Phase.Unbroken (framework : Framework) : Phase → Prop
  | .announce request =>
    ∀ intent, framework.extractJson AgentIntent.fromJson request = some intent →
      Hammurabi.Unbroken intent.agentHandle
  | .settle request =>
    ∀ req, framework.extractJson SettleRequest.fromJson request = some req →
      Hammurabi.Unbroken req.intentId
  | .record receipt _ =>
    Hammurabi.Unbroken receipt.intentId ∧ Hammurabi.Unbroken receipt.receiptId
  | .narrate sender _ body after =>
    (Hammurabi.Unbroken sender ∧ Hammurabi.Unbroken body) ∧ after.Unbroken framework
  | .push message after => message.Unbroken ∧ after.Unbroken framework
  | .send _ after => after.Unbroken framework
  | _ => True

theorem unbroken_handoffRouter (framework : Framework) (request : Request)
    (unbroken : request.Unbroken framework) : (handoffRouter request).Unbroken framework := by
  obtain ⟨announces, settles⟩ := unbroken
  revert announces settles
  rw [handoffRouter]
  split_ifs
  all_goals intro announces settles
  any_goals exact trivial
  · exact announces rfl
  · exact settles rfl

/-- A report is written without a newline. -/
theorem unbroken_chaosReport (report : ChaosReport) : Unbroken report.toString := by
  have marks : Unbroken "ChaosReport \x7b honest_verified: " ∧
      Unbroken ", tampered_payload_rejected: " ∧ Unbroken ", shifted_timestamp_rejected: " ∧
      Unbroken ", signature_bitflips_rejected: " ∧ Unbroken ", wrong_key_rejected: " ∧
      Unbroken " \x7d" := by decide +kernel
  have count : Unbroken (toString report.signatureBitflipsRejected) :=
    unbroken_nat report.signatureBitflipsRejected.toNat
  unfold ChaosReport.toString
  simp only [unbroken_append, unbroken_bool, marks, count, and_self]

/-- One line, and then an answer. -/
theorem unbroken_line (framework : Framework) (sender : String) (kind : MeshEventKind)
    (body : String) (response : Response) (handle : Unbroken sender) (text : Unbroken body) :
    (Phase.narrate sender kind body (.answer response)).Unbroken framework :=
  ⟨⟨handle, text⟩, trivial⟩

section Steps

variable (framework : Framework) (primitives : Primitives) (env : Env) (state : HandoffState)

theorem unbroken_agentAnnounce (request : Request)
    (unbroken : (Phase.announce request).Unbroken framework) :
    (agentAnnounce framework env state request).2.Unbroken framework := by
  refine unbroken_line framework _ _ _ _ ?_ (by decide +kernel)
  cases extracted : framework.extractJson AgentIntent.fromJson request with
  | none =>
    change Unbroken mockAgentHandle
    decide
  | some intent => exact unbroken intent extracted

theorem unbroken_x402Settle (backend : state.gate.backend.Unbroken) (request : Request)
    (unbroken : (Phase.settle request).Unbroken framework) :
    (x402Settle framework env state request).2.Unbroken framework := by
  unfold x402Settle
  cases extracted : framework.extractJson SettleRequest.fromJson request with
  | none => exact trivial
  | some req =>
    have quoted := unbroken req extracted
    dsimp only
    cases settled : state.gate.backend.settle req.intentId req.payment env.now env.ulid with
    | ok receipt =>
      rw [settle_eq_ok _ _ _ _ _ _ settled]
      exact ⟨quoted, unbroken_ulid env.ulid⟩
    | error refusal =>
      have reason := backend _ _ _ _ refusal settled
      have parts : s!"x402 settlement failed for intent {req.intentId}: {refusal.toString}" =
          "x402 settlement failed for intent " ++ req.intentId ++ ": " ++ refusal.toString := rfl
      have marks : Unbroken "x402 settlement failed for intent " ∧ Unbroken ": " := by decide
      refine unbroken_line framework _ _ _ _ (by decide) ?_
      simp only [parts, unbroken_append, quoted, reason, marks, and_self]

theorem unbroken_recordReceipt (receipt : PaymentReceipt) (now : Int64)
    (unbroken : (Phase.record receipt now).Unbroken framework) :
    (recordReceipt state receipt now).2.Unbroken framework := by
  refine unbroken_line framework _ _ _ _ (by decide) ?_
  change '\n' ∉ (paymentNotice receipt.intentId receipt.receiptId).toList
  have marks : '\n' ∉ "x402 payment of 0.50 USDC settled for intent ".toList ∧
      '\n' ∉ " — receipt ".toList ∧ '\n' ∉ ".".toList := by decide +kernel
  simp only [toList_paymentNotice, List.mem_append, not_or, marks, not_false_eq_true, true_and,
    and_true]
  exact unbroken

/-- A guard that refuses quotes what it read in a header. -/
theorem unbroken_paymentGuard (request : Request) :
    (paymentGuard state request).2.Unbroken framework := by
  have notice : Unbroken gateHandle ∧ Unbroken x402RestrictionNotice := by decide +kernel
  unfold paymentGuard
  cases presented : request.headerStr? receiptHeader with
  | none => exact unbroken_line framework _ _ _ _ notice.1 notice.2
  | some receiptId =>
    have quoted := unbroken_headerStr? request receiptHeader receiptId presented
    dsimp only
    cases (state.gate.redeem receiptId ((request.headerStr? intentHeader).getD "")).1 with
    | ok receipt => exact trivial
    | error refusal =>
      refine unbroken_line framework _ _ _ _ notice.1 ?_
      change '\n' ∉ (refusalNotice receiptId refusal).toList
      have reason : Unbroken refusal.toString := by cases refusal <;> decide +kernel
      have marks : '\n' ∉ "Receipt ".toList ∧ '\n' ∉ " refused: ".toList ∧
          '\n' ∉ ". ".toList := by decide
      simp only [toList_refusalNotice, List.mem_append, not_or, marks, not_false_eq_true,
        true_and]
      exact ⟨⟨quoted, reason⟩, notice.2⟩

theorem unbroken_execute (request : Request) (receipt : PaymentReceipt) :
    (execute framework state request receipt).2.Unbroken framework := by
  rcases execute_cases framework state request receipt with
    ⟨response, -, comes⟩ | ⟨intent, -, -, comes⟩
  all_goals
    rw [comes]
    exact trivial

/-- An intent has a canonical form, so its mint is refused for its probes only. -/
theorem chaos_of_refused (receipt : PaymentReceipt) (intent : AgentIntent) (refusal : VaultError)
    (refused : mint primitives intent.payload receipt env.now env.entropy = .error refusal) :
    ∃ report, refusal = .chaos report := by
  obtain ⟨canonical, canonicalized⟩ := intent.canonicalize_payload
  rw [mint_of_canonical primitives intent.payload receipt env.now env.entropy canonical
    canonicalized] at refused
  dsimp only at refused
  split_ifs at refused
  exact ⟨_, (Except.error.inj refused).symm⟩

/-- The id of a credential is drawn for it. -/
theorem credentialId_of_minted (receipt : PaymentReceipt) (intent : AgentIntent)
    (credential : EphemeralCredential)
    (minted : mint primitives intent.payload receipt env.now env.entropy = .ok credential) :
    credential.credentialId = env.entropy.credentialId.toString := by
  obtain ⟨canonical, -, -, rfl⟩ := (mint_eq_ok primitives _ _ _ _ credential).mp minted
  rfl

/-- A mint narrates its probes, an id that it drew, and an instant. -/
theorem unbroken_mintAndPackage (receipt : PaymentReceipt) (intent : AgentIntent) :
    (mintAndPackage primitives env state receipt intent).2.Unbroken framework := by
  have handles : Unbroken vaultHandle ∧ Unbroken relayHandle ∧
      Unbroken credentialMintedNotice := by decide +kernel
  unfold mintAndPackage
  cases outcome : mint primitives intent.payload receipt env.now env.entropy with
  | error refusal =>
    obtain ⟨report, rfl⟩ := chaos_of_refused primitives env receipt intent refusal outcome
    refine unbroken_line framework _ _ _ _ handles.1 ?_
    have parts : s!"Mint refused: {(VaultError.chaos report).toString}" =
        "Mint refused: " ++ ("chaos testing failed — credential destroyed: " ++
          report.toString) := rfl
    have marks : Unbroken "Mint refused: " ∧
        Unbroken "chaos testing failed — credential destroyed: " := by decide +kernel
    simp only [parts, unbroken_append, marks, unbroken_chaosReport, and_self]
  | ok credential =>
    have id := credentialId_of_minted primitives env receipt intent credential outcome
    refine ⟨⟨handles.1, handles.2.2⟩, unbroken_line framework _ _ _ _ handles.2.1 ?_⟩
    have parts : ∀ (key : String) (expiresAt : Int64),
        s!"Settlement envelope {key} staged for gasless Stylus broadcast " ++
          s!"(credential expires at {expiresAt})." =
        "Settlement envelope " ++ key ++ " staged for gasless Stylus broadcast " ++
          ("(credential expires at " ++ toString expiresAt.toInt ++ ").") := fun _ _ => rfl
    have marks : Unbroken "Settlement envelope " ∧
        Unbroken " staged for gasless Stylus broadcast " ∧
        Unbroken "(credential expires at " ∧ Unbroken ")." := by decide +kernel
    have drawn : Unbroken (OneShotEnvelope.package intent.payload credential
        receipt).idempotencyKey := by
      change Unbroken credential.credentialId
      rw [id]
      exact unbroken_ulid _
    simp only [parts, unbroken_append, marks, unbroken_int, drawn, and_self]

attribute [local irreducible] mint in
/-- With each of its steps a request stays unbroken. -/
theorem advance_unbroken (backend : state.gate.backend.Unbroken) (phase : Phase)
    (unbroken : phase.Unbroken framework) :
    (advance framework primitives env state phase).2.Unbroken framework := by
  cases phase with
  | feed => exact trivial
  | announce request => exact unbroken_agentAnnounce framework env state request unbroken
  | settle request => exact unbroken_x402Settle framework env state backend request unbroken
  | record receipt now => exact unbroken_recordReceipt framework state receipt now unbroken
  | guard request => exact unbroken_paymentGuard framework state request
  | execute request receipt => exact unbroken_execute framework state request receipt
  | mint receipt intent =>
    exact unbroken_mintAndPackage framework primitives env state receipt intent
  | narrate sender kind body after => exact unbroken
  | push message after => exact unbroken.2
  | send message after => exact unbroken
  | answer response => exact trivial

end Steps

/-! ### Runs -/

/-- A system in which no line has a newline, and none will. -/
structure System.Unbroken (framework : Framework) (backend : SettlementBackend)
    (system : System) : Prop where
  backend : system.state.gate.backend = backend
  tasks : ∀ phase ∈ system.tasks, phase.Unbroken framework
  log : ∀ message ∈ system.state.mesh.log, message.Unbroken

theorem unbroken_start (framework : Framework) (backend : SettlementBackend) :
    (System.start backend).Unbroken framework backend where
  backend := rfl
  tasks _ member := absurd member List.not_mem_nil
  log _ member := absurd member List.not_mem_nil

theorem unbroken_step (framework : Framework) (primitives : Primitives)
    (backend : SettlementBackend) (plain : backend.Unbroken) (before : System) (action : Action)
    (after : System) (step : before.Step framework primitives action after)
    (quotes : action.Unbroken framework) (unbroken : before.Unbroken framework backend) :
    after.Unbroken framework backend := by
  obtain ⟨-, rfl⟩ := step
  cases action with
  | arrive arrival =>
    rw [System.step]
    cases made : arrival.request? with
    | none => exact unbroken
    | some request =>
      refine ⟨unbroken.backend, fun phase member => ?_, unbroken.log⟩
      rcases List.mem_append.mp member with present | new
      · exact unbroken.tasks phase present
      · rw [List.mem_singleton.mp new]
        exact unbroken_handoffRouter framework request (quotes request made)
  | advance index env =>
    cases found : before.tasks[index]? with
    | none =>
      rw [System.step, found]
      exact unbroken
    | some phase =>
      have safe := unbroken.tasks phase (List.mem_of_getElem? found)
      rw [step_advance framework primitives before index env phase found]
      refine ⟨?_, fun other member => ?_, fun message member => ?_⟩
      · exact (advance_backend framework primitives env before.state phase).trans unbroken.backend
      · rcases List.mem_or_eq_of_mem_set member with present | rfl
        · exact unbroken.tasks other present
        · exact advance_unbroken framework primitives env before.state
            (unbroken.backend.symm ▸ plain) phase safe
      · dsimp only at member
        rw [advance_mesh] at member
        rcases mem_log_posts env before.state.mesh phase message member with earlier | pushed
        · exact unbroken.log message earlier
        · obtain ⟨rest, rfl⟩ := exists_push phase message pushed
          exact safe.1

/-- In every run the transcript has one line per message exactly while there are messages and none
that is retained has a newline in its sender or its body; and where no announced handle, no settled
id and no failure of the backend has one, none that is retained ever has. -/
theorem transcript_oneLine_iff (framework : Framework) (primitives : Primitives)
    (backend : SettlementBackend) (actions : List Action) (final : System)
    (run : Run (System.Step framework primitives) (.start backend) actions final) :
    (final.state.mesh.OneLinePerMessage ↔ final.state.mesh.feed ≠ [] ∧
      ∀ message ∈ final.state.mesh.feed, message.Unbroken) ∧
    (backend.Unbroken → (∀ action ∈ actions, action.Unbroken framework) →
      final.state.mesh.feed ≠ [] → final.state.mesh.OneLinePerMessage) := by
  refine ⟨oneLinePerMessage_iff _, fun plain quotes some => ?_⟩
  have unbroken : final.Unbroken framework backend :=
    run.kept_of_allowed (unbroken_step framework primitives backend plain) quotes
      (unbroken_start framework backend)
  exact (oneLinePerMessage_iff _).mpr ⟨some, unbroken.log⟩

/-- An intent whose id has no newline is settled through the shell, and another announced: the
transcript has two lines. -/
theorem transcript_oneLine_announced :
    Run (System.Step plainFramework (markingPrimitives [])) (.start .mock) (announcedActions "a")
      (announcedSystem "a") ∧
    (announcedSystem "a").state.mesh.feed = [tellingMessage "a", announcedMessage] ∧
    (announcedSystem "a").state.mesh.OneLinePerMessage := by
  have run := run_announcedSystem (markingPrimitives []) "a" (by decide)
  have feed := feed_announcedSystem "a"
  have quotes : ∀ action ∈ announcedActions "a", action.Unbroken plainFramework := by
    intro action member
    simp only [announcedActions, beforePushActions, tellingActions, List.mem_append, List.mem_cons,
      List.mem_replicate, List.not_mem_nil, or_false] at member
    rcases member with ((rfl | ⟨-, rfl⟩) | rfl | rfl | rfl) | rfl
    · intro request made
      obtain ⟨routed, reads⟩ :=
        settle_reads plainFramework plainFramework_readsBack "a" (by decide) request made
      refine ⟨fun announces => ?_, fun _ req extracted => ?_⟩
      · rw [routed] at announces
        cases announces
      · rw [reads] at extracted
        obtain rfl := Option.some.inj extracted
        decide
    · exact trivial
    · intro request made
      cases made
      refine ⟨fun _ intent extracted => ?_, fun settles => ?_⟩
      · cases extracted
      · cases settles
    · exact trivial
    · exact trivial
    · exact trivial
  have plain : SettlementBackend.mock.Unbroken := by
    intro intentId payment now ulid refusal refused
    cases refused
  have oneLine := (transcript_oneLine_iff plainFramework (markingPrimitives []) .mock _ _
    run).2 plain quotes
  refine ⟨run, feed, oneLine ?_⟩
  rw [feed]
  exact List.cons_ne_nil _ _

/-! ### A forged line -/

/-- An intent whose handle ends a line and begins one of the vault's. -/
def forgingIntent : AgentIntent :=
  { AgentIntent.mockEthLimitOrder .nil with
    agentHandle := "agent/scout-1> Ready.\n[   1] <vault/handshake" }

/-- A line of the vault's that the vault does not post. -/
def forgedMessage : MeshMessage :=
  ⟨1, opsChannel, vaultHandle, .intent, intentAnnouncement, plainEnv.at_⟩

/-- The one line that is posted. -/
def forgingMessage : MeshMessage :=
  ⟨0, opsChannel, forgingIntent.agentHandle, .intent, intentAnnouncement, plainEnv.at_⟩

/-- What its announcement goes on to do. -/
def forgingPhase : Phase :=
  .narrate forgingIntent.agentHandle .intent intentAnnouncement
    (.answer ⟨200, .intent forgingIntent⟩)

/-- The intent is announced through the bridge, and its line pushed. -/
theorem run_forging : ∃ actions system,
    Run (System.Step plainFramework (markingPrimitives [])) (.start .mock) actions system ∧
      system.state.mesh.feed = [forgingMessage] := by
  obtain ⟨request, built⟩ := exists_buildRequest "POST" "/agent/announce" []
    forgingIntent.payload fun header none => absurd none List.not_mem_nil
  obtain ⟨method, uri, -⟩ := buildRequest_eq_some _ _ _ _ _ built
  have routed := handoffRouter_announce request method uri
  have extracted : plainFramework.extractJson AgentIntent.fromJson request =
      some forgingIntent :=
    (extractJson_buildRequest plainFramework _ _ _ _ _ _ built rfl
      plainFramework_readsBack.contentType
      (plainFramework_readsBack.body _ forgingIntent.payload_uniqueKeys
        forgingIntent.payload_integerOnly forgingIntent.payload_depth)
      (by decide +kernel)).trans forgingIntent.fromJson_payload
  have announced : agentAnnounce plainFramework plainEnv .new request =
      (.new, forgingPhase) := by
    rw [agentAnnounce, extracted]
    rfl
  have arrives : (System.start .mock).Step plainFramework (markingPrimitives [])
      (.arrive (.okx ⟨"intent_announce", "r", forgingIntent.payload⟩))
      ⟨.new, [.announce request], []⟩ := by
    refine ⟨fun id drawn => absurd drawn List.not_mem_nil, ?_⟩
    have made : Arrival.request? (.okx ⟨"intent_announce", "r", forgingIntent.payload⟩) =
        some request := built
    rw [System.step, made, ← routed]
    rfl
  have announces : (System.mk .new [.announce request] []).Step plainFramework
      (markingPrimitives []) (.advance 0 plainEnv)
      ⟨.new, [forgingPhase], []⟩ := by
    refine ⟨fun id drawn => absurd drawn List.not_mem_nil, ?_⟩
    change _ = System.mk (agentAnnounce plainFramework plainEnv .new request).1
      [(agentAnnounce plainFramework plainEnv .new request).2] ([] ++ [])
    rw [announced]
    rfl
  have pushes : Run (System.Step plainFramework (markingPrimitives [])) ⟨.new, [forgingPhase], []⟩
      [.advance 0 plainEnv, .advance 0 plainEnv] _ :=
    .step ⟨fun _ drawn => absurd drawn List.not_mem_nil, rfl⟩
      (.step ⟨fun _ drawn => absurd drawn List.not_mem_nil, rfl⟩ (.stop _))
  exact ⟨_, _, .step arrives (.step announces pushes),
    MeshBus.push_log_of_room ⟨1, [], []⟩ forgingMessage (by simp [maxLogLen])⟩

/-- The newline of the handle stands between the two lines. -/
theorem render_forging : forgingMessage.render.toList =
    "[   0] <agent/scout-1> Ready.".toList ++ '\n' :: forgedMessage.render.toList := by
  rw [toList_render, toList_render]
  decide +kernel

/-- One message is in the feed of a reachable state, and the transcript shows two lines; the second
is a line of the vault's, which posted none. -/
theorem transcript_shows_forged : ∃ actions system,
    Run (System.Step plainFramework (markingPrimitives [])) (.start .mock) actions system ∧
      system.state.mesh.feed = [forgingMessage] ∧
      system.state.mesh.transcript.toList.splitOn '\n' =
        ["[   0] <agent/scout-1> Ready.".toList, forgedMessage.render.toList] ∧
      ¬ system.state.mesh.OneLinePerMessage := by
  obtain ⟨actions, system, run, feed⟩ := run_forging
  have cut : system.state.mesh.transcript.toList.splitOn '\n' =
      ["[   0] <agent/scout-1> Ready.".toList, forgedMessage.render.toList] := by
    have second : Unbroken forgedMessage.render :=
      (unbroken_render forgedMessage).mpr ⟨by decide, by decide⟩
    have only : system.state.mesh.transcript = forgingMessage.render := by
      rw [MeshBus.transcript, feed]
      rfl
    rw [only, render_forging, List.splitOn_append_cons_self_of_not_mem (by decide),
      List.splitOn_eq_singleton second]
  refine ⟨actions, system, run, feed, cut, fun one => ?_⟩
  rw [MeshBus.OneLinePerMessage, cut, feed] at one
  exact absurd (congrArg List.length one) (by decide)

end Hammurabi
