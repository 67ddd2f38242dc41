/-
This file is the loop from the first button to the fourth: announce, be refused, settle, execute.

The operator clicks each button once and waits for its reply; all the time other requests arrive
and take their steps. With the mock backend the four clicks end with an envelope of the announced
intent, under a credential that the contract accepts for sixty seconds, if nobody else presents the
receipts of that intent and no settlement finds them stale.
-/

import Hammurabi.Buttons

namespace Hammurabi

open Json Runs Unicode

/-! ### A click and its reply -/

/-- The same page over another state of the process. -/
def Desk.withSystem (desk : Desk) (system : System) : Desk := { desk with system }

theorem Desk.withSystem_self (desk : Desk) : desk.withSystem desk.system = desk := rfl

/-- A button is clicked and its reply awaited: the process takes steps, the button is clicked, and
the process takes steps until the reply arrives. -/
def Desk.Awaits (framework : Framework) (primitives : Primitives)
    (Step : Nat → System → Action → System → Prop) (button : Button) (before after : Desk) : Prop :=
  ∃ earlier idle actions answered,
    Run (Step idle.tasks.length) before.system earlier idle ∧
    Run (Step idle.tasks.length) ((before.withSystem idle).click framework primitives button).system
      actions answered ∧
    (((before.withSystem idle).click framework primitives button).withSystem answered).reply
      framework 0 = some after

section Awaiting

variable (framework : Framework) (primitives : Primitives)
  (Step : Nat → System → Action → System → Prop)
  (steps : ∀ index before action after, Step index before action after →
    before.Step framework primitives action after)

include steps

/-- The steps of the process are steps of the desk. -/
theorem run_processes (desk : Desk) (index : Nat) (actions : List Action) (before after : System)
    (run : Run (Step index) before actions after) :
    Run (Desk.Step framework primitives) (desk.withSystem before) (actions.map .process)
      (desk.withSystem after) := by
  induction run with
  | stop state => exact .stop _
  | @step start middle finish action actions first rest inductionHypothesis =>
    have stepped : Desk.Step framework primitives (desk.withSystem start) (.process action)
        (desk.withSystem middle) := ⟨steps _ _ _ _ first, rfl, rfl⟩
    exact .step stepped inductionHypothesis

/-- A click and its reply are a run of the desk. -/
theorem run_awaits (button : Button) (before after : Desk)
    (awaits : before.Awaits framework primitives Step button after) :
    ∃ actions, Run (Desk.Step framework primitives) before actions after := by
  obtain ⟨earlier, idle, actions, answered, reached, served, replied⟩ := awaits
  have first := run_processes framework primitives Step steps before _ earlier _ _ reached
  have second := run_processes framework primitives Step steps
    ((before.withSystem idle).click framework primitives button) _ actions _ _ served
  have clicks : Desk.Step framework primitives (before.withSystem idle) (.click button)
      ((before.withSystem idle).click framework primitives button) := rfl
  have replies : Desk.Step framework primitives
      (((before.withSystem idle).click framework primitives button).withSystem answered) (.reply 0)
      after := replied
  exact ⟨_, first.append (.step clicks (second.append (.step replies (.stop _))))⟩

/-- What a click that is awaited comes to, when nothing else is waited for. -/
theorem awaits_spec (readsBack : framework.ReadsBack) (backend : SettlementBackend)
    (button : Button) (before after : Desk) (sound : before.Sound framework backend)
    (alone : before.waiting = [])
    (awaits : before.Awaits framework primitives Step button after) :
    ∃ earlier idle command request actions answered response,
      before.loop.command? button = some command ∧ command.call.request? = some request ∧
      Run (Step idle.tasks.length) before.system earlier idle ∧
      Run (Step idle.tasks.length) (idle.step framework primitives (.arrive (.command command)))
        actions answered ∧
      (before.withSystem idle).Sound framework backend ∧
      answered.tasks[idle.tasks.length]? = some (.answer response) ∧
      Expected framework backend answered.issued button (.answer response) ∧
      after = ⟨answered, before.loop.receive framework button response, []⟩ ∧
      after.Sound framework backend := by
  have kept := sound_desk_step framework primitives readsBack backend
  obtain ⟨actions, whole⟩ := run_awaits framework primitives Step steps button before after awaits
  have final := whole.kept kept sound
  obtain ⟨earlier, idle, actions, answered, reached, served, replied⟩ := awaits
  have first := run_processes framework primitives Step steps before _ earlier _ _ reached
  have second := run_processes framework primitives Step steps
    ((before.withSystem idle).click framework primitives button) _ actions _ _ served
  have rested := first.kept kept sound
  have done := second.kept kept (sound_click framework primitives readsBack backend _ rested button)
  unfold Desk.click at served replied done
  dsimp only [Desk.withSystem] at served replied done
  cases invoked : before.loop.command? button with
  | none =>
    rw [invoked] at replied
    dsimp only at replied
    rw [Desk.reply, alone] at replied
    cases replied
  | some command =>
    rw [invoked] at served replied done
    dsimp only at served replied done
    cases built : command.call.request? with
    | none =>
      rw [built] at replied
      dsimp only at replied
      rw [Desk.reply, alone] at replied
      cases replied
    | some request =>
      rw [built] at served replied done
      dsimp only at served replied done
      rw [alone, List.nil_append] at replied done
      obtain ⟨other, index, response, waits, answers, rfl⟩ := reply_cases framework _ 0 _ replied
      obtain ⟨rfl, rfl⟩ := Prod.mk.inj (Option.some.inj waits)
      obtain ⟨phase, here, expected⟩ := done.expected _ _ List.mem_cons_self
      cases answers.symm.trans here
      exact ⟨earlier, idle, command, request, actions, answered, response, rfl, built, reached,
        served, rested, answers, expected, rfl, final⟩

end Awaiting

/-! ### The settlement among others -/

theorem quiet_of_reply (phase : Phase) (response : Response)
    (replies : phase.reply = some response) : phase.touchesGate = false := by
  induction phase with
  | narrate sender kind body after inductionHypothesis => exact inductionHypothesis replies
  | push message after inductionHypothesis => exact inductionHypothesis replies
  | send message after inductionHypothesis => exact inductionHypothesis replies
  | answer other => rfl
  | _ => cases replies

/-- Where a settlement with the mock is: before it clears, with its receipt in hand, or on its way
to the answer with the receipt held. -/
def System.Settling (framework : Framework) (index : Nat) (intentId : String) (system : System) :
    Prop :=
  system.Accounted ∧ ∃ phase, system.tasks[index]? = some phase ∧
    ((∃ request, phase = .settle request ∧ system.state.gate.backend = .mock ∧
      framework.extractJson SettleRequest.fromJson request = some ⟨intentId, none⟩) ∨
    ∃ receipt : PaymentReceipt, receipt.intentId = intentId ∧
      ((∃ now, phase = .record receipt now) ∨
        (phase.reply = some ⟨200, .receipt receipt⟩ ∧
          system.state.gate.receipts.lookup receipt.receiptId = some receipt)))

section Settling

variable (framework : Framework) (primitives : Primitives) (intent : AgentIntent) (index : Nat)

/-- In whatever order the others take their steps, a settlement goes on. -/
theorem settling_step (before : System) (action : Action) (after : System)
    (step : before.LeavingStep framework primitives intent index action after)
    (settling : before.Settling framework index intent.intentId) :
    after.Settling framework index intent.intentId := by
  obtain ⟨stepped, spared, -⟩ := step
  obtain ⟨accounted, phase, found, here⟩ := settling
  have served := (step_keeps framework primitives before action).2.2
  refine ⟨accounted_step framework primitives before action after stepped accounted, ?_⟩
  rcases task_step framework primitives before action index phase found with
    ⟨other, still⟩ | ⟨env, rfl, moved⟩
  · rw [← stepped.2] at still served
    refine ⟨phase, still, ?_⟩
    rcases here with ⟨request, rfl, mock, extracted⟩ | ⟨receipt, paid, recording | ⟨replies, held⟩⟩
    · exact .inl ⟨request, rfl, served.trans mock, extracted⟩
    · exact .inr ⟨receipt, paid, .inl recording⟩
    · have holds := holds_step framework primitives receipt before action after
        ⟨stepped, spared other receipt paid held⟩ ⟨accounted, held⟩
      exact .inr ⟨receipt, paid, .inr ⟨replies, holds.2⟩⟩
  · rw [← stepped.2] at moved
    rw [moved]
    refine ⟨_, task_moved _ found, .inr ?_⟩
    rcases here with ⟨request, rfl, mock, extracted⟩ |
      ⟨receipt, paid, ⟨now, rfl⟩ | ⟨replies, held⟩⟩
    · refine ⟨.cleared env.ulid intent.intentId env.now, rfl, .inl ⟨env.now, ?_⟩⟩
      rw [advance, x402Settle, extracted]
      dsimp only
      rw [mock]
      rfl
    · refine ⟨receipt, paid, .inr ⟨rfl, ?_⟩⟩
      exact (X402Gate.lookup_record _ _ _ _ _).mpr (.inl ⟨rfl, rfl⟩)
    · refine ⟨receipt, paid, .inr
        ⟨reply_advance framework primitives env before.state phase _ replies, ?_⟩⟩
      rw [(advance_quiet framework primitives env before.state phase
        (quiet_of_reply phase _ replies)).1]
      exact held

/-- When a settlement is answered, it is with a receipt that is held. -/
theorem settling_answered (system : System)
    (settling : system.Settling framework index intent.intentId) (response : Response)
    (answered : system.tasks[index]? = some (.answer response)) :
    ∃ receipt : PaymentReceipt, receipt.intentId = intent.intentId ∧
      response = ⟨200, .receipt receipt⟩ ∧
      system.state.gate.receipts.lookup receipt.receiptId = some receipt := by
  obtain ⟨-, phase, found, here⟩ := settling
  cases answered.symm.trans found
  rcases here with ⟨request, wrong, -⟩ | ⟨receipt, paid, ⟨now, wrong⟩ | ⟨replies, held⟩⟩
  · cases wrong
  · cases wrong
  · exact ⟨receipt, paid, Option.some.inj replies, held⟩

/-- No request is ever dropped. -/
theorem length_step (before : System) (action : Action) :
    before.tasks.length ≤ (before.step framework primitives action).tasks.length := by
  rcases step_cases framework primitives before action with
    same | ⟨request, arrived⟩ | ⟨other, env, front, phase, back, rfl, -, split, advanced⟩
  · rw [same]
  · rw [arrived, List.length_append]
    exact Nat.le_add_right _ _
  · rw [advanced, split, List.length_append, List.length_append]
    rfl

theorem length_run {Step : System → Action → System → Prop}
    (steps : ∀ before action after, Step before action after →
      before.Step framework primitives action after)
    {before after : System} {actions : List Action} (run : Run Step before actions after) :
    before.tasks.length ≤ after.tasks.length := by
  induction run with
  | stop state => exact le_rfl
  | @step start middle finish action actions first rest inductionHypothesis =>
    have grows := length_step framework primitives start action
    rw [← (steps _ _ _ first).2] at grows
    exact grows.trans inductionHypothesis

/-- A receipt that is held stays so while the page is idle: the next place is still empty. -/
theorem holds_idle (receipt : PaymentReceipt) (paid : receipt.intentId = intent.intentId)
    {before after : System} {actions : List Action}
    (run : Run (System.LeavingStep framework primitives intent index) before actions after)
    (vacant : after.tasks.length ≤ index) (holds : before.Holds receipt) :
    after.Holds receipt := by
  induction run with
  | stop state => exact holds
  | @step start middle finish action actions first rest inductionHypothesis =>
    refine inductionHypothesis vacant ?_
    have rises := length_run framework primitives (fun _ _ _ step => step.1) rest
    have grows := length_step framework primitives start action
    rw [← first.1.2] at grows
    cases own : action.own index with
    | false =>
      exact holds_step framework primitives receipt start action middle
        ⟨first.1, first.2.1 own receipt paid holds.2⟩ holds
    | true =>
      cases action with
      | arrive arrival => cases own
      | advance other env =>
        obtain rfl : other = index := eq_of_beq own
        have empty : start.tasks[other]? = none := List.getElem?_eq_none (by omega)
        have same : middle = start := by
          rw [first.1.2, System.step, empty]
        rw [same]
        exact holds

end Settling

/-! ### The four clicks -/

section Clicks

variable (framework : Framework) (primitives : Primitives) (readsBack : framework.ReadsBack)
  (before after : Desk) (backend : SettlementBackend) (sound : before.Sound framework backend)
  (alone : before.waiting = [])

include readsBack sound alone

theorem announce_click
    (awaits : before.Awaits framework primitives (fun _ => System.Step framework primitives)
      .announce after) :
    after.Sound framework backend ∧ after.waiting = [] ∧ ∃ ulid, after.loop = { before.loop with
      intent := (AgentIntent.mockEthLimitOrder ulid).payload
      status := .intent (some (.string ulid.toString))
      canExecute := true } := by
  obtain ⟨earlier, idle, command, request, actions, answered, response, -, -, -, -, -, -, expected,
    rfl, final⟩ := awaits_spec framework primitives _ (fun _ _ _ _ step => step) readsBack backend
      .announce before after sound alone awaits
  refine ⟨final, rfl, ?_⟩
  rcases expected with ⟨request, wrong, -⟩ | ⟨ulid, replies⟩
  · cases wrong
  · have same : response = ⟨200, .intent (.mockEthLimitOrder ulid)⟩ := Option.some.inj replies
    refine ⟨ulid, ?_⟩
    dsimp only
    rw [same]
    exact receive_announce framework readsBack before.loop ulid

theorem execute_click
    (awaits : before.Awaits framework primitives (fun _ => System.Step framework primitives)
      .execute after) :
    after.Sound framework backend ∧ after.waiting = [] ∧
      after.loop = { before.loop with status := .paymentRequired, canSettle := true } := by
  obtain ⟨earlier, idle, command, request, actions, answered, response, -, -, -, -, -, -, expected,
    rfl, final⟩ := awaits_spec framework primitives _ (fun _ _ _ _ step => step) readsBack backend
      .execute before after sound alone awaits
  refine ⟨final, rfl, ?_⟩
  obtain ⟨intentId, short, ⟨request, wrong, -⟩ | replies⟩ := expected
  · cases wrong
  · have same : response = ⟨402, .paymentRequired (.quote intentId)⟩ := Option.some.inj replies
    dsimp only
    rw [same]
    exact receive_execute framework readsBack before.loop intentId short

end Clicks

section MockClicks

variable (framework : Framework) (primitives : Primitives) (readsBack : framework.ReadsBack)
  (before after : Desk) (sound : before.Sound framework .mock) (alone : before.waiting = [])
  (ulid : Ulid) (announced : before.loop.intent = (AgentIntent.mockEthLimitOrder ulid).payload)

include readsBack sound alone announced

theorem settle_click
    (awaits : before.Awaits framework primitives
      (System.LeavingStep framework primitives (.mockEthLimitOrder ulid)) .settle after) :
    after.Sound framework .mock ∧ after.waiting = [] ∧ ∃ receipt : PaymentReceipt,
      receipt.intentId = ulid.toString ∧ after.system.Holds receipt ∧
      after.loop = { before.loop with
        receiptId := some (.string receipt.receiptId)
        status := .receipt (some (.string receipt.receiptId))
        canRetry := true } := by
  obtain ⟨earlier, idle, command, request, actions, answered, response, invoked, built, -, served,
    rested, answers, -, rfl, final⟩ := awaits_spec framework primitives _
      (fun _ _ _ _ step => step.1) readsBack .mock .settle before after sound alone awaits
  refine ⟨final, rfl, ?_⟩
  obtain rfl := command_settle before.loop ulid announced command invoked
  obtain ⟨routed, extracted⟩ := settleClick_reads framework request readsBack ulid built
  have arrives : (Arrival.command (.x402Settle ulid.toString)).request? = some request := built
  have arrived := sound_process framework primitives .mock (before.withSystem idle)
    (.arrive (.command (.x402Settle ulid.toString))) _
    ⟨fun _ drawn => absurd drawn List.not_mem_nil, rfl⟩ rested
  have placed := task_arrive framework primitives idle _ request arrives
  rw [routed] at placed
  have settling := served.kept
    (settling_step framework primitives (.mockEthLimitOrder ulid) idle.tasks.length)
    ⟨arrived.accounted, _, placed, .inl ⟨request, rfl, arrived.served, extracted⟩⟩
  obtain ⟨receipt, paid, same, held⟩ := settling_answered framework (.mockEthLimitOrder ulid) _
    answered settling response answers
  refine ⟨receipt, paid, ⟨final.accounted, held⟩, ?_⟩
  obtain ⟨other, intentId, now, rfl⟩ := final.cleared receipt (final.accounted.treasury _ _ held)
  have short : (PaymentReceipt.cleared other intentId now).toJson.byteLength ≤
      maxResponseBytes := by
    have id : keyLength intentId = 28 := (congrArg keyLength paid).trans (keyLength_ulid ulid)
    have instant := byteLength_ofInt64_le now
    rw [byteLength_receipt, receiptLength, id]
    unfold maxResponseBytes
    omega
  dsimp only
  rw [same, receive_settle_receipt framework readsBack, if_pos short]

theorem retry_click (hexText : HexText primitives) (receipt : PaymentReceipt)
    (paid : receipt.intentId = ulid.toString) (holds : before.system.Holds receipt)
    (known : before.loop.receiptId = some (.string receipt.receiptId))
    (awaits : before.Awaits framework primitives
      (System.LeavingStep framework primitives (.mockEthLimitOrder ulid)) .retry after) :
    ∃ now envelope, SettledAt primitives (.mockEthLimitOrder ulid) receipt now envelope ∧
      after.loop = { before.loop with
        status := .settled (some (.string envelope.idempotencyKey)) } := by
  obtain ⟨earlier, idle, command, request, actions, answered, response, invoked, built, reached,
    served, rested, answers, -, rfl, final⟩ := awaits_spec framework primitives _
      (fun _ _ _ _ step => step.1) readsBack .mock .retry before after sound alone awaits
  obtain ⟨-, receiptId, accepted, rfl⟩ := command_retry before.loop command invoked
  rw [known] at accepted
  obtain rfl := Option.some.inj accepted
  rw [announced] at served built
  have held := holds_idle framework primitives (.mockEthLimitOrder ulid) _ receipt paid reached
    le_rfl holds
  have cleared := sound.cleared receipt (sound.accounted.treasury _ _ holds.2)
  have visibleReceipt : Visible receipt.receiptId := by
    obtain ⟨other, intentId, now, rfl⟩ := cleared
    exact visible_ulid other
  have arrives := leaving_arrive framework primitives (.mockEthLimitOrder ulid) idle.tasks.length
    idle (.command (.requestExecution (AgentIntent.mockEthLimitOrder ulid).payload
      (some receipt.receiptId)))
  obtain ⟨request, -, paying⟩ := execution_paying framework primitives readsBack idle held.1
    (.mockEthLimitOrder ulid) (visible_ulid ulid) ((byteLength_mock ulid).le.trans (by decide))
    receipt visibleReceipt paid held.2 actions answered (.step arrives served)
  obtain ⟨now, envelope, settled, same⟩ := paying_answered primitives _ _ _ receipt answered paying
    response answers
  refine ⟨now, envelope, settled, ?_⟩
  have size := byteLength_settled primitives _ receipt now envelope settled hexText cleared
  rw [byteLength_mock] at size
  obtain ⟨canonical, entropy, chaos, -, -, rfl⟩ := settled
  dsimp only
  rw [same, receive_retry_envelope framework readsBack, if_pos (size.trans (by decide))]

end MockClicks

/-! ### A click can be served -/

section Serving

variable (framework : Framework) (primitives : Primitives) (env : Env)

/-- A reply arrives when its request is answered. -/
theorem reply_of_answered (desk : Desk) (place index : Nat) (button : Button)
    (response : Response) (waits : desk.waiting[place]? = some (button, index))
    (answered : desk.system.tasks[index]? = some (.answer response)) :
    desk.reply framework place = some { desk with
      loop := desk.loop.receive framework button response
      waiting := desk.waiting.eraseIdx place } := by
  rw [Desk.reply, waits]
  dsimp only
  rw [answered]

/-- When nothing else is waited for, a click that invokes a command is served by the steps of its
own request. -/
theorem exists_awaits (Step : Nat → System → Action → System → Prop)
    (lift : ∀ index before after, before.Step framework primitives (.advance index env) after →
      Step index before (.advance index env) after)
    (button : Button) (before : Desk) (alone : before.waiting = []) (command : Command)
    (invoked : before.loop.command? button = some command) (request : Request)
    (built : command.call.request? = some request)
    (fresh : (handoffRouter request).maySettle = true →
      env.ulid.toString ∉ before.system.issued.map PaymentReceipt.receiptId) :
    ∃ after, before.Awaits framework primitives Step button after ∧
      ((handoffRouter request).maySettle = false →
        after.system.issued = before.system.issued) := by
  have arrives : (Arrival.command command).request? = some request := built
  have clicked : before.click framework primitives button = { before with
      system := before.system.step framework primitives (.arrive (.command command))
      waiting := [(button, before.system.tasks.length)] } := by
    rw [Desk.click, invoked]
    dsimp only
    rw [built, alone]
    rfl
  have placed := task_arrive framework primitives before.system _ request arrives
  have issued : (before.system.step framework primitives (.arrive (.command command))).issued =
      before.system.issued := by
    rw [System.step, arrives]
  obtain ⟨answered, run, same⟩ := run_own framework primitives env before.system.tasks.length 9
    (before.system.step framework primitives (.arrive (.command command))) (handoffRouter request)
    placed (by
      rw [issued]
      exact fresh)
  have takes : Run (System.Takes framework primitives) before.system
      (.arrive (.command command) ::
        List.replicate 9 (.advance before.system.tasks.length env)) answered :=
    .step rfl (run.mono fun _ _ _ step => step.2)
  obtain ⟨response, there⟩ := answered_of_taken framework primitives before.system answered
    (.command command) request arrives _ takes (ownSteps_replicate env _ 9).ge
  have replied := reply_of_answered framework
    ⟨answered, before.loop, [(button, before.system.tasks.length)]⟩ 0 before.system.tasks.length
    button response rfl there
  have lifted := run_lift framework primitives env Step lift _ 9 run
  refine ⟨⟨answered, before.loop.receive framework button response, []⟩,
    ⟨[], before.system, List.replicate 9 (.advance before.system.tasks.length env), answered,
      .stop _, ?_, ?_⟩, fun settled => (same settled).trans issued⟩
  · rw [before.withSystem_self, clicked]
    exact lifted
  · rw [before.withSystem_self, clicked]
    exact replied

end Serving

/-! ### The first click -/

/-- The process with its first request in a phase. -/
def announcingSystem (mesh : MeshBus) (phase : Phase) : System where
  state := ⟨mesh, .withBackend .mock⟩
  tasks := [phase]
  issued := []

theorem step_announcing (primitives : Primitives) (mesh next : MeshBus) (phase after : Phase)
    (settled : phase.maySettle = false)
    (advanced : advance plainFramework primitives plainEnv ⟨mesh, .withBackend .mock⟩ phase =
      (⟨next, .withBackend .mock⟩, after)) :
    (announcingSystem mesh phase).Step plainFramework primitives (.advance 0 plainEnv)
      (announcingSystem next after) := by
  refine ⟨fun id drawn => ?_, ?_⟩
  · cases phase with
    | settle request => cases settled
    | _ => exact absurd drawn List.not_mem_nil
  · have none := issues_of_not_settle plainFramework primitives plainEnv
      ⟨mesh, .withBackend .mock⟩ phase settled
    rw [step_advance plainFramework primitives (announcingSystem mesh phase) 0 plainEnv phase rfl]
    dsimp only [announcingSystem]
    rw [none, advanced]
    rfl

/-- The first click alone: the page has the intent, and nothing is issued. -/
theorem exists_announced (primitives : Primitives) :
    ∃ announced : Desk, (Desk.start .mock).Awaits plainFramework primitives
        (fun _ => System.Step plainFramework primitives) .announce announced ∧
      announced.waiting = [] ∧ announced.system.issued = [] ∧
      announced.loop = { Loop.start with
        intent := (AgentIntent.mockEthLimitOrder plainEnv.ulid).payload
        status := .intent (some (.string plainEnv.ulid.toString))
        canExecute := true } := by
  let response : Response := ⟨200, .intent (.mockEthLimitOrder plainEnv.ulid)⟩
  let taken := MeshBus.new.next mockAgentHandle .intent intentAnnouncement plainEnv.at_
  let posted := (taken.2.push taken.1).send taken.1
  have served : Run (System.Step plainFramework primitives)
      (announcingSystem .new (.announce ⟨"POST", "/agent/announce", [], []⟩))
      (List.replicate 4 (.advance 0 plainEnv)) (announcingSystem posted (.answer response)) :=
    .step (step_announcing primitives .new .new _
        (.narrate mockAgentHandle .intent intentAnnouncement (.answer response)) rfl rfl)
      (.step (step_announcing primitives _ taken.2 _ (.push taken.1 (.answer response)) rfl rfl)
      (.step (step_announcing primitives _ _ _ (.send taken.1 (.answer response)) rfl rfl)
      (.step (step_announcing primitives _ _ _ (.answer response) rfl rfl) (.stop _))))
  have replied := reply_of_answered plainFramework
    ⟨announcingSystem posted (.answer response), .start, [(.announce, 0)]⟩ 0 0 .announce response
    rfl rfl
  have received := receive_announce plainFramework plainFramework_readsBack .start plainEnv.ulid
  refine ⟨⟨announcingSystem posted (.answer response),
    Loop.start.receive plainFramework .announce response, []⟩, ?_, rfl, rfl, by
      dsimp only
      exact received⟩
  have clicked : ((Desk.start .mock).withSystem (.start .mock)).click plainFramework primitives
      .announce = ⟨announcingSystem .new (.announce ⟨"POST", "/agent/announce", [], []⟩), .start,
        [(.announce, 0)]⟩ := rfl
  refine ⟨[], .start .mock, List.replicate 4 (.advance 0 plainEnv),
    announcingSystem posted (.answer response), .stop _, ?_, ?_⟩
  · rw [clicked]
    exact served
  · rw [clicked]
    exact replied

/-- The four clicks, each awaited, from any state in which the page waits for nothing: whatever
other requests do in between, the page shows the announced intent, the refusal, a receipt for the
intent and at last the envelope that it paid for, which the contract accepts for the sixty seconds
from its mint. All that is asked of the others is to leave the receipts of the intent alone. -/
theorem four_clicks_settle (framework : Framework) (primitives : Primitives)
    (readsBack : framework.ReadsBack) (hexText : HexText primitives)
    (hex : HexRoundTrip primitives) (actions : List DeskAction)
    (start announced refused paid settled : Desk)
    (run : Run (Desk.Step framework primitives) (.start .mock) actions start)
    (alone : start.waiting = [])
    (first : start.Awaits framework primitives (fun _ => System.Step framework primitives)
      .announce announced)
    (second : announced.Awaits framework primitives (fun _ => System.Step framework primitives)
      .execute refused)
    (intent : AgentIntent) (known : announced.loop.intent = intent.payload)
    (third : refused.Awaits framework primitives (System.LeavingStep framework primitives intent)
      .settle paid)
    (fourth : paid.Awaits framework primitives (System.LeavingStep framework primitives intent)
      .retry settled) :
    announced.loop.status = .intent (some (.string intent.intentId)) ∧
      refused.loop.status = .paymentRequired ∧
      ∃ receipt ∈ paid.system.issued, receipt.intentId = intent.intentId ∧
        paid.loop.status = .receipt (some (.string receipt.receiptId)) ∧
        ∃ now envelope, SettledAt primitives intent receipt now envelope ∧
          settled.loop.status = .settled (some (.string envelope.idempotencyKey)) ∧
          (now.toInt + 60 < 2 ^ 63 → ∀ later, envelope.verify primitives later = .ok () ↔
            now.toInt ≤ later.toInt ∧ later.toInt < now.toInt + 60) := by
  have sound := run.kept (sound_desk_step framework primitives readsBack .mock)
    (sound_desk_start framework .mock)
  obtain ⟨announcedSound, announcedAlone, ulid, announcedLoop⟩ := announce_click framework
    primitives readsBack start announced .mock sound alone first
  obtain rfl : intent = .mockEthLimitOrder ulid := by
    rw [announcedLoop] at known
    have same := congrArg AgentIntent.fromJson known
    rw [AgentIntent.fromJson_payload, AgentIntent.fromJson_payload] at same
    exact (Option.some.inj same).symm
  obtain ⟨refusedSound, refusedAlone, refusedLoop⟩ := execute_click framework primitives readsBack
    announced refused .mock announcedSound announcedAlone second
  have refusedIntent : refused.loop.intent = (AgentIntent.mockEthLimitOrder ulid).payload := by
    rw [refusedLoop]
    exact known
  obtain ⟨paidSound, paidAlone, receipt, bound, holds, paidLoop⟩ := settle_click framework
    primitives readsBack refused paid refusedSound refusedAlone ulid refusedIntent third
  have paidIntent : paid.loop.intent = (AgentIntent.mockEthLimitOrder ulid).payload := by
    rw [paidLoop]
    exact refusedIntent
  have paidId : paid.loop.receiptId = some (.string receipt.receiptId) := by rw [paidLoop]
  obtain ⟨now, envelope, minted, settledLoop⟩ := retry_click framework primitives readsBack paid
    settled paidSound paidAlone ulid paidIntent hexText receipt bound holds paidId fourth
  refine ⟨by rw [announcedLoop]; rfl, by rw [refusedLoop], receipt,
    paidSound.accounted.treasury _ _ holds.2, bound, by rw [paidLoop], now, envelope, minted,
    by rw [settledLoop], fun inRange later => ?_⟩
  exact verify_settled_iff primitives _ receipt now envelope minted hex inRange later

/-- At instant 7 the four clicks end with an envelope. -/
theorem four_clicks_settle_mock :
    ∃ (settled : Desk) (envelope : OneShotEnvelope),
      settled.loop.status = .settled (some (.string envelope.idempotencyKey)) ∧
      envelope.params.intent = (AgentIntent.mockEthLimitOrder plainEnv.ulid).payload := by
  obtain ⟨marked, ideal⟩ := exists_idealMint (.mockEthLimitOrder plainEnv.ulid) 7
  have visible : ∀ value, ∃ header, HeaderValue.ofString? (Ulid.toString value) = some header :=
    fun value => exists_ofString? _ (visible_ulid value)
  have start := sound_desk_start plainFramework .mock
  obtain ⟨announced, first, announcedAlone, unissued, announcedLoop⟩ :=
    exists_announced (markingPrimitives marked)
  have announcedSound := (announce_click plainFramework (markingPrimitives marked)
    plainFramework_readsBack _ announced .mock start rfl first).1
  -- The second click is refused.
  have asks : announced.loop.command? .execute = some (.requestExecution
      (AgentIntent.mockEthLimitOrder plainEnv.ulid).payload none) := by
    rw [announcedLoop]
    rfl
  obtain ⟨request, built⟩ := exists_buildRequest "POST" "/execute"
    (executionHeaders plainEnv.ulid.toString none)
    (AgentIntent.mockEthLimitOrder plainEnv.ulid).payload fun header member => by
      rw [List.mem_singleton.mp member]
      exact visible _
  have guarded := handoffRouter_execute request (buildRequest_eq_some _ _ _ _ _ built).2.1
  obtain ⟨refused, second, refusedIssued⟩ := exists_awaits plainFramework
    (markingPrimitives marked) plainEnv (fun _ => System.Step plainFramework _)
    (fun _ _ _ step => step) .execute announced announcedAlone _ asks request built (by
      rw [guarded]
      rintro ⟨⟩)
  obtain ⟨refusedSound, refusedAlone, refusedLoop⟩ := execute_click plainFramework
    (markingPrimitives marked) plainFramework_readsBack announced refused .mock announcedSound
    announcedAlone second
  have known : announced.loop.intent = (AgentIntent.mockEthLimitOrder plainEnv.ulid).payload := by
    rw [announcedLoop]
  have refusedIntent : refused.loop.intent =
      (AgentIntent.mockEthLimitOrder plainEnv.ulid).payload := by
    rw [refusedLoop]
    exact known
  -- The third click settles, under an id that no receipt has yet.
  have pays : refused.loop.command? .settle = some (.x402Settle plainEnv.ulid.toString) := by
    rw [refusedLoop, announcedLoop]
    rfl
  obtain ⟨settling, settlingBuilt⟩ := exists_buildRequest "POST" "/x402/settle" []
    (.object [("intent_id", .string plainEnv.ulid.toString)])
    fun header none => absurd none List.not_mem_nil
  have leaving := leaving_own plainFramework (markingPrimitives marked) plainEnv
    (.mockEthLimitOrder plainEnv.ulid) ideal
  obtain ⟨paid, third, -⟩ := exists_awaits plainFramework (markingPrimitives marked) plainEnv
    _ leaving .settle refused refusedAlone _ pays settling settlingBuilt (by
      rw [guarded] at refusedIssued
      rw [refusedIssued rfl, unissued]
      exact fun _ => List.not_mem_nil)
  obtain ⟨paidSound, paidAlone, receipt, bound, holds, paidLoop⟩ := settle_click plainFramework
    (markingPrimitives marked) plainFramework_readsBack refused paid refusedSound refusedAlone
    plainEnv.ulid refusedIntent third
  -- The fourth click executes.
  have executes : paid.loop.command? .retry = some (.requestExecution
      (AgentIntent.mockEthLimitOrder plainEnv.ulid).payload (some receipt.receiptId)) := by
    rw [paidLoop, refusedLoop, announcedLoop]
    rfl
  have visibleReceipt : Visible receipt.receiptId := by
    obtain ⟨other, intentId, now, rfl⟩ :=
      paidSound.cleared receipt (paidSound.accounted.treasury _ _ holds.2)
    exact visible_ulid other
  obtain ⟨executing, executingBuilt⟩ := exists_mintingRequest
    (.mockEthLimitOrder plainEnv.ulid) _ (visible_ulid plainEnv.ulid) visibleReceipt
  have guardedAgain := handoffRouter_execute executing
    (buildRequest_eq_some _ _ _ _ _ executingBuilt).2.1
  obtain ⟨settled, fourth, -⟩ := exists_awaits plainFramework (markingPrimitives marked) plainEnv
    _ leaving .retry paid paidAlone _ executes executing executingBuilt (by
      rw [guardedAgain]
      rintro ⟨⟩)
  obtain ⟨-, -, other, -, -, -, now, envelope, minted, shown, -⟩ := four_clicks_settle
    plainFramework (markingPrimitives marked) plainFramework_readsBack (fun _ => rfl)
    (markingPrimitives_hex marked) [] (.start .mock) announced refused paid settled (.stop _) rfl
    first second (.mockEthLimitOrder plainEnv.ulid) known third fourth
  obtain ⟨canonical, entropy, chaos, -, -, rfl⟩ := minted
  exact ⟨settled, _, shown, rfl⟩

/-- Whatever the order of clicks, replies and the steps of all requests, the page never finds an
unexpected status and reports only what is so: an envelope only when one was answered that an issued
receipt pays for, and never with a facilitator for the backend. -/
theorem page_reports (framework : Framework) (primitives : Primitives)
    (readsBack : framework.ReadsBack) (backend : SettlementBackend) (actions : List DeskAction)
    (desk : Desk) (run : Run (Desk.Step framework primitives) (.start backend) actions desk) :
    desk.loop.status.Truthful backend desk.system :=
  (run.kept (sound_desk_step framework primitives readsBack backend)
    (sound_desk_start framework backend)).truthful

/-- After the first click the page reports the announced intent. -/
theorem page_reports_announced :
    ∃ desk : Desk, desk.loop.status = .intent (some (.string plainEnv.ulid.toString)) ∧
      desk.loop.status.Truthful .mock desk.system := by
  obtain ⟨announced, awaits, -, -, loop⟩ := exists_announced (markingPrimitives [])
  obtain ⟨actions, run⟩ := run_awaits plainFramework (markingPrimitives []) _
    (fun _ _ _ _ step => step) .announce _ announced awaits
  refine ⟨announced, ?_, page_reports plainFramework (markingPrimitives [])
    plainFramework_readsBack .mock actions announced run⟩
  rw [loop]

end Hammurabi
