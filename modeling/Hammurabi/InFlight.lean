/-
This file is one request among others: what becomes of it, whatever the others do.

A request waits for nobody. Every step of its own brings it closer to its answer and no step of
another moves it, so it is answered once it has taken nine steps, and stays answered.

An execution that presents a held receipt is settled by these steps. Nothing that the others do
matters to it once its guard has burned the receipt; until then it is enough that nobody else
presents the receipt and that no settlement finds it stale.
-/

import Hammurabi.PaidIntent

namespace Hammurabi

open Json Runs Unicode

/-! ### Steps of one request and of the others -/

/-- An action is a step of the request at this place. -/
def Action.own (index : Nat) : Action → Bool
  | .arrive _ => false
  | .advance other _ => other == index

/-- How many steps the request at this place takes. -/
def ownSteps (index : Nat) (actions : List Action) : Nat := actions.countP (Action.own index)

theorem ownSteps_cons_of_own {index : Nat} {action : Action} (own : action.own index = true)
    (actions : List Action) : ownSteps index (action :: actions) = ownSteps index actions + 1 :=
  List.countP_cons_of_pos own

theorem ownSteps_cons_of_other {index : Nat} {action : Action} (other : action.own index = false)
    (actions : List Action) : ownSteps index (action :: actions) = ownSteps index actions :=
  List.countP_cons_of_neg (by
    rw [other]
    decide)

section Among

variable (framework : Framework) (primitives : Primitives)

/-- A request is moved by its own steps only. -/
theorem task_step (before : System) (action : Action) (index : Nat) (phase : Phase)
    (here : before.tasks[index]? = some phase) :
    (action.own index = false ∧
      (before.step framework primitives action).tasks[index]? = some phase) ∨
    ∃ env, action = .advance index env ∧
      before.step framework primitives action =
        { state := (advance framework primitives env before.state phase).1
          tasks := before.tasks.set index (advance framework primitives env before.state phase).2
          issued := before.issued ++
            phase.issues (advance framework primitives env before.state phase).2 } := by
  have inside := (List.getElem?_eq_some_iff.mp here).1
  cases action with
  | arrive arrival =>
    refine .inl ⟨rfl, ?_⟩
    rw [System.step]
    cases arrival.request? with
    | none => exact here
    | some request => exact (List.getElem?_append_left inside).trans here
  | advance other env =>
    by_cases same : other = index
    · subst same
      exact .inr ⟨env, rfl, step_advance framework primitives before other env phase here⟩
    · refine .inl ⟨beq_false_of_ne same, ?_⟩
      rw [System.step]
      cases before.tasks[other]? with
      | none => exact here
      | some moved => exact (List.getElem?_set_ne same).trans here

/-- Each own step brings a request closer to its answer, and no other step takes it away. -/
theorem distance_run {start finish : System} {actions : List Action}
    (run : Run (System.Takes framework primitives) start actions finish) (index : Nat)
    (phase : Phase) (here : start.tasks[index]? = some phase) :
    ∃ last, finish.tasks[index]? = some last ∧
      last.distance ≤ phase.distance - ownSteps index actions := by
  induction run generalizing phase with
  | stop state => exact ⟨phase, here, le_rfl⟩
  | @step start middle finish action actions first rest inductionHypothesis =>
    rw [System.Takes] at first
    subst first
    rcases task_step framework primitives start action index phase here with
      ⟨other, still⟩ | ⟨env, rfl, moved⟩
    · rw [ownSteps_cons_of_other other]
      exact inductionHypothesis phase still
    · obtain ⟨last, there, near⟩ := inductionHypothesis
        (advance framework primitives env start.state phase).2 (by
          rw [moved]
          exact task_moved _ here)
      have own : (Action.advance index env).own index = true := beq_self_eq_true index
      refine ⟨last, there, ?_⟩
      rw [ownSteps_cons_of_own own]
      rcases Nat.eq_zero_or_pos phase.distance with arrived | waiting
      · obtain ⟨response, rfl⟩ := distance_eq_zero phase arrived
        change last.distance ≤ 0 - _ at near
        rw [Nat.zero_sub] at near
        exact near.trans (Nat.zero_le _)
      · have closer := distance_advance framework primitives env start.state phase waiting
        omega

/-- A request that is answered stays so. -/
theorem answer_stays {start finish : System} {actions : List Action}
    (run : Run (System.Takes framework primitives) start actions finish) (index : Nat)
    (response : Response) (here : start.tasks[index]? = some (.answer response)) :
    finish.tasks[index]? = some (.answer response) := by
  have kept : ∀ (before : System) (action : Action) (after : System),
      before.Takes framework primitives action after →
      before.tasks[index]? = some (.answer response) →
      after.tasks[index]? = some (.answer response) := by
    intro before action after step here
    rw [System.Takes] at step
    subst step
    rcases task_step framework primitives before action index _ here with
      ⟨-, still⟩ | ⟨env, -, moved⟩
    · exact still
    · rw [moved]
      exact task_moved _ here
  exact run.kept kept here

theorem distance_handoffRouter_le (request : Request) : (handoffRouter request).distance ≤ 9 := by
  rw [handoffRouter]
  split_ifs
  all_goals exact Nat.le_of_ble_eq_true rfl

/-- A request is answered once it has taken nine steps. -/
theorem answered_of_taken (before final : System) (arrival : Arrival) (request : Request)
    (arrives : arrival.request? = some request) (actions : List Action)
    (run : Run (System.Takes framework primitives) before (.arrive arrival :: actions) final)
    (taken : 9 ≤ ownSteps before.tasks.length actions) :
    ∃ response, final.tasks[before.tasks.length]? = some (.answer response) := by
  cases run with
  | step first rest =>
    rw [System.Takes] at first
    subst first
    obtain ⟨last, there, near⟩ := distance_run framework primitives rest before.tasks.length _
      (task_arrive framework primitives before arrival request arrives)
    have short := distance_handoffRouter_le request
    obtain ⟨response, rfl⟩ := distance_eq_zero last (by omega)
    exact ⟨response, there⟩

end Among

/-! ### A request alone -/

/-- The request whose settlement may still draw the id of a receipt. -/
def Phase.asks : Phase → Option Request
  | .settle request => some request
  | .narrate _ _ _ after => after.asks
  | .push _ after => after.asks
  | .send _ after => after.asks
  | _ => none

/-- Whether a request may still draw the id of a receipt. -/
def Phase.maySettle (phase : Phase) : Bool := phase.asks.isSome

section Alone

variable (framework : Framework) (primitives : Primitives) (env : Env)

/-- A request that may still draw an id after a step might do so before, and has issued nothing. -/
theorem asks_advance (state : HandoffState) (phase : Phase) (asked : Request)
    (settles : (advance framework primitives env state phase).2.asks = some asked) :
    phase.asks = some asked ∧
      phase.issues (advance framework primitives env state phase).2 = [] := by
  cases phase with
  | settle request =>
    rcases x402Settle_cases framework env state request with
      ⟨phase, response, -, comes, rfl | ⟨body, rfl⟩⟩ | ⟨req, receipt, -, -, comes⟩
    all_goals
      rw [advance, comes] at settles
      cases settles
  | guard request =>
    rcases paymentGuard_cases state request with
      ⟨gate, body, -, comes⟩ | ⟨receiptId, receipt, -, -, -, comes⟩
    all_goals
      rw [advance, comes] at settles
      cases settles
  | execute request receipt =>
    rcases execute_cases framework state request receipt with
      ⟨response, -, comes⟩ | ⟨intent, -, -, comes⟩
    all_goals
      rw [advance, comes] at settles
      cases settles
  | mint receipt intent =>
    rcases mintAndPackage_cases primitives env state receipt intent with
      ⟨refusal, body, response, -, -, comes⟩ | ⟨credential, body, -, comes⟩
    all_goals
      rw [advance, comes] at settles
      cases settles
  | narrate sender kind body after => exact ⟨settles, rfl⟩
  | push message after => exact ⟨settles, rfl⟩
  | send message after => exact ⟨settles, rfl⟩
  | _ => cases settles

theorem maySettle_advance (state : HandoffState) (phase : Phase)
    (settles : (advance framework primitives env state phase).2.maySettle = true) :
    phase.maySettle = true ∧
      phase.issues (advance framework primitives env state phase).2 = [] := by
  obtain ⟨asked, asks⟩ := Option.isSome_iff_exists.mp settles
  obtain ⟨before, none⟩ := asks_advance framework primitives env state phase asked asks
  exact ⟨Option.isSome_iff_exists.mpr ⟨asked, before⟩, none⟩

/-- What a step of a request that draws no id issues. -/
theorem issues_of_not_settle (state : HandoffState) (phase : Phase)
    (settled : phase.maySettle = false) :
    phase.issues (advance framework primitives env state phase).2 = [] := by
  cases phase with
  | settle request => cases settled
  | _ => rfl

/-- An own step is fresh when the id it may draw is new. -/
theorem fresh_draws (system : System) (index : Nat) (env : Env) (phase : Phase)
    (here : system.tasks[index]? = some phase)
    (fresh : phase.maySettle = true →
      env.ulid.toString ∉ system.issued.map PaymentReceipt.receiptId) :
    system.Fresh (.advance index env) := by
  intro id drawn
  rw [System.draws, here] at drawn
  cases phase with
  | settle request =>
    rw [List.mem_singleton.mp drawn]
    exact fresh rfl
  | _ => exact absurd drawn List.not_mem_nil

/-- A request alone can take as many steps as it likes, when the id it may draw is new. -/
theorem run_own (index steps : Nat) (system : System) (phase : Phase)
    (here : system.tasks[index]? = some phase)
    (fresh : phase.maySettle = true →
      env.ulid.toString ∉ system.issued.map PaymentReceipt.receiptId) :
    ∃ final, Run (System.Step framework primitives) system
        (List.replicate steps (.advance index env)) final ∧
      (phase.maySettle = false → final.issued = system.issued) := by
  induction steps generalizing system phase with
  | zero => exact ⟨system, .stop system, fun _ => rfl⟩
  | succ steps inductionHypothesis =>
    have stepped := step_advance framework primitives system index env phase here
    have taken : system.Step framework primitives (.advance index env)
        (system.step framework primitives (.advance index env)) :=
      ⟨fresh_draws system index env phase here fresh, rfl⟩
    have next : (system.step framework primitives (.advance index env)).tasks[index]? =
        some (advance framework primitives env system.state phase).2 := by
      rw [stepped]
      exact task_moved _ here
    obtain ⟨final, rest, same⟩ := inductionHypothesis _ _ next fun settles => by
      obtain ⟨before, none⟩ := maySettle_advance framework primitives env system.state phase settles
      rw [stepped, none, List.append_nil]
      exact fresh before
    refine ⟨final, .step taken rest, fun settled => ?_⟩
    have still : (advance framework primitives env system.state phase).2.maySettle = false := by
      by_contra settles
      have before := (maySettle_advance framework primitives env system.state phase
        (eq_true_of_ne_false settles)).1
      rw [settled] at before
      cases before
    rw [same still, stepped]
    dsimp only
    rw [issues_of_not_settle framework primitives env system.state phase settled, List.append_nil]

theorem ownSteps_replicate (index steps : Nat) :
    ownSteps index (List.replicate steps (.advance index env)) = steps := by
  have own : (Action.advance index env).own index = true := beq_self_eq_true index
  rw [ownSteps, List.countP_replicate, if_pos own]

/-- What a request alone does by its own steps is also a run of any system that has these steps. -/
theorem run_lift (Step : Nat → System → Action → System → Prop)
    (lift : ∀ index before after, before.Step framework primitives (.advance index env) after →
      Step index before (.advance index env) after) (index steps : Nat) {before after : System}
    (run : Run (System.Step framework primitives) before
      (List.replicate steps (.advance index env)) after) :
    Run (Step index) before (List.replicate steps (.advance index env)) after := by
  induction steps generalizing before with
  | zero =>
    cases run with
    | stop state => exact .stop _
  | succ steps inductionHypothesis =>
    cases run with
    | step first rest => exact .step (lift _ _ _ first) (inductionHypothesis rest)

end Alone

/-- A request waits for nobody: in whatever order the others take their steps, it is answered once
it has taken nine of its own, and the answer stays. -/
theorem requests_answered (framework : Framework) (primitives : Primitives) (before final : System)
    (arrival : Arrival) (request : Request) (arrives : arrival.request? = some request)
    (actions : List Action)
    (run : Run (System.Takes framework primitives) before (.arrive arrival :: actions) final)
    (taken : 9 ≤ ownSteps before.tasks.length actions) :
    ∃ response, final.tasks[before.tasks.length]? = some (.answer response) ∧
      ∀ later after, Run (System.Takes framework primitives) final later after →
        after.tasks[before.tasks.length]? = some (.answer response) := by
  obtain ⟨response, there⟩ := answered_of_taken framework primitives before final arrival request
    arrives actions run taken
  exact ⟨response, there, fun later after run =>
    answer_stays framework primitives run _ response there⟩

/-- An announcement alone is answered. -/
theorem requests_answered_announce :
    ∃ (final : System) (response : Response), final.tasks[0]? = some (.answer response) := by
  let request : Request := ⟨"POST", "/agent/announce", [], []⟩
  have arrives : (Arrival.command .agentAnnounce).request? = some request := rfl
  have placed := task_arrive plainFramework (markingPrimitives []) (.start .mock)
    (.command .agentAnnounce) request arrives
  obtain ⟨final, run, -⟩ := run_own plainFramework (markingPrimitives []) plainEnv 0 9
    ((System.start .mock).step plainFramework (markingPrimitives [])
      (.arrive (.command .agentAnnounce))) _ placed (by rintro ⟨⟩)
  have takes : Run (System.Takes plainFramework (markingPrimitives [])) (.start .mock)
      (.arrive (.command .agentAnnounce) :: List.replicate 9 (.advance 0 plainEnv)) final :=
    .step rfl (run.mono fun _ _ _ step => step.2)
  obtain ⟨response, there, -⟩ := requests_answered plainFramework (markingPrimitives [])
    (.start .mock) final (.command .agentAnnounce) request arrives
    (List.replicate 9 (.advance 0 plainEnv)) takes (ownSteps_replicate plainEnv 0 9).ge
  exact ⟨final, response, there⟩

/-! ### A call of the bridge -/

section Calls

variable (framework : Framework) (primitives : Primitives)

/-- Driving a request is a run in which that request alone takes steps, when the ids it may draw are
new. -/
theorem run_drive (envs : Nat → Env) (fuel k : Nat) (system : System) (index : Nat)
    (phase : Phase) (here : system.tasks[index]? = some phase)
    (fresh : phase.maySettle = true →
      ∀ n, (envs n).ulid.toString ∉ system.issued.map PaymentReceipt.receiptId) :
    ∃ actions issued, Run (System.Step framework primitives) system actions
        { state := (drive framework primitives envs fuel k system.state phase).state
          tasks := system.tasks.set index
            (drive framework primitives envs fuel k system.state phase).phase
          issued := issued } ∧
      (∀ action ∈ actions, action.own index = true) ∧ actions.length ≤ phase.distance := by
  have stays : system.tasks.set index phase = system.tasks := by
    obtain ⟨inside, same⟩ := List.getElem?_eq_some_iff.mp here
    subst same
    exact List.set_getElem_self inside
  induction fuel generalizing k system phase with
  | zero =>
    refine ⟨[], system.issued, ?_, fun action none => absurd none List.not_mem_nil, Nat.zero_le _⟩
    rw [drive, stays]
    exact .stop system
  | succ fuel inductionHypothesis =>
    rcases Nat.eq_zero_or_pos phase.distance with arrived | waiting
    · obtain ⟨response, rfl⟩ := distance_eq_zero phase arrived
      refine ⟨[], system.issued, ?_, fun action none => absurd none List.not_mem_nil,
        Nat.zero_le _⟩
      rw [drive_answer, stays]
      exact .stop system
    · have stepped := step_advance framework primitives system index (envs k) phase here
      have taken : system.Step framework primitives (.advance index (envs k))
          (system.step framework primitives (.advance index (envs k))) :=
        ⟨fresh_draws system index (envs k) phase here fun settles =>
          fresh settles k, rfl⟩
      have next : (system.step framework primitives (.advance index (envs k))).tasks[index]? =
          some (advance framework primitives (envs k) system.state phase).2 := by
        rw [stepped]
        exact task_moved _ here
      obtain ⟨actions, issued, rest, own, few⟩ := inductionHypothesis (k + 1) _ _ next
        (fun settles n => by
          obtain ⟨before, none⟩ :=
            maySettle_advance framework primitives (envs k) system.state phase settles
          rw [stepped, none, List.append_nil]
          exact fresh before n)
        (by rw [stepped, List.set_set])
      have closer := distance_advance framework primitives (envs k) system.state phase waiting
      rw [stepped, List.set_set] at rest
      rw [drive_succ framework primitives envs fuel k system.state phase waiting]
      refine ⟨.advance index (envs k) :: actions, issued, .step taken (stepped ▸ rest),
        List.forall_mem_cons.mpr ⟨beq_self_eq_true index, own⟩, ?_⟩
      rw [List.length_cons]
      omega

/-- A call that puts in no request fails and changes nothing. -/
theorem dispatchOkx_of_unsent (envs : Nat → Env) (state : HandoffState) (inv : OkxInvocation)
    (unsent : (Arrival.okx inv).request? = none) :
    ∃ refusal, dispatchOkx framework primitives envs state inv = (state, .error refusal) := by
  rw [dispatchOkx]
  cases known : inv.call with
  | none => exact ⟨_, rfl⟩
  | some call =>
    have unbuilt : call.request? = none := by
      rw [Arrival.request?, known] at unsent
      exact unsent
    dsimp only
    rw [oneshotJson, unbuilt]
    exact ⟨_, rfl⟩

/-- A call of the bridge is a run of the process, when the ids it may draw are new: its request
comes in and takes its steps, nine at most, and every other request stays where it is. What the call
leaves behind is the state that is reached, and what it returns is read from the answer of its
request. A call that puts in no request fails and changes nothing. -/
theorem bridge_runs (envs : Nat → Env) (system : System) (inv : OkxInvocation)
    (fresh : ∀ n, (envs n).ulid.toString ∉ system.issued.map PaymentReceipt.receiptId) :
    ∃ actions after, Run (System.Step framework primitives) system
        (.arrive (.okx inv) :: actions) after ∧
      (∀ action ∈ actions, action.own system.tasks.length = true) ∧ actions.length ≤ 9 ∧
      after.state = (dispatchOkx framework primitives envs system.state inv).1 ∧
      (∀ (index : Nat) phase, system.tasks[index]? = some phase →
        after.tasks[index]? = some phase) ∧
      (((Arrival.okx inv).request? = none ∧ after = system ∧ ∃ refusal,
        (dispatchOkx framework primitives envs system.state inv).2 = .error refusal) ∨
      ∃ response, after.tasks[system.tasks.length]? = some (.answer response) ∧
        (dispatchOkx framework primitives envs system.state inv).2 =
          (readResponse framework response).map fun read =>
            .forInvocation inv read.1 read.2) := by
  cases sent : (Arrival.okx inv).request? with
  | none =>
    have nothing : system.Step framework primitives (.arrive (.okx inv)) system := by
      refine ⟨fun id drawn => absurd drawn List.not_mem_nil, ?_⟩
      rw [System.step, sent]
    obtain ⟨refusal, failed⟩ :=
      dispatchOkx_of_unsent framework primitives envs system.state inv sent
    rw [failed]
    exact ⟨[], system, .step nothing (.stop system),
      fun action none => absurd none List.not_mem_nil, Nat.zero_le 9, rfl, fun _ _ here => here,
      .inl ⟨rfl, rfl, refusal, rfl⟩⟩
  | some request =>
    obtain ⟨call, known, built⟩ := Option.bind_eq_some_iff.mp sent
    obtain ⟨response, answers⟩ := handle_answers framework primitives envs system.state request
    obtain ⟨actions, issued, rest, own, few⟩ := run_drive framework primitives envs maxSteps 0
      { system with tasks := system.tasks ++ [handoffRouter request] } system.tasks.length
      (handoffRouter request) List.getElem?_concat_length fun _ => fresh
    refine ⟨actions, _, (run_arrival framework primitives system (.okx inv) request sent).append
      rest, own, few.trans (distance_handoffRouter_le request), ?_, ?_, .inr ⟨response, ?_, ?_⟩⟩
    · exact (dispatchOkx_state_of_answer framework primitives envs system.state inv call request
        response known built answers).symm
    · intro index phase here
      have inside := (List.getElem?_eq_some_iff.mp here).1
      exact (List.getElem?_set_ne inside.ne').trans ((List.getElem?_append_left inside).trans here)
    · rw [show (drive framework primitives envs maxSteps 0 system.state
        (handoffRouter request)).phase = .answer response from answers]
      exact task_moved _ List.getElem?_concat_length
    · exact dispatchOkx_of_answer framework primitives envs system.state inv call request response
        known built answers

end Calls

/-- So for an announcement through the bridge while a settlement has yet to be narrated. -/
theorem bridge_runs_announce :
    let system := settledSystem (.cleared .nil "a" 7)
    let env : Env := { plainEnv with ulid := ⟨1, by decide⟩ }
    let inv : OkxInvocation := ⟨"intent_announce", "r", .null⟩
    ∃ actions after response, Run (System.Step plainFramework (markingPrimitives []))
        system (.arrive (.okx inv) :: actions) after ∧
      after.tasks[0]? = system.tasks[0]? ∧
      after.tasks[1]? = some (.answer response) ∧
      (dispatchOkx plainFramework (markingPrimitives []) (fun _ => env) system.state
        inv).2 = (readResponse plainFramework response).map fun read =>
          .forInvocation inv read.1 read.2 := by
  intro system env inv
  have fresh : env.ulid.toString ∉ system.issued.map PaymentReceipt.receiptId := by
    decide +kernel
  obtain ⟨actions, after, run, -, -, -, others, outcome⟩ := bridge_runs plainFramework
    (markingPrimitives []) (fun _ => env) system inv fun _ => fresh
  rcases outcome with ⟨unsent, -⟩ | ⟨response, there, result⟩
  · cases unsent
  · exact ⟨actions, after, response, run, others 0 _ rfl, there, result⟩

/-! ### A paid execution among others -/

/-- A phase that is on its way to an answer keeps it. -/
theorem reply_advance (framework : Framework) (primitives : Primitives) (env : Env)
    (state : HandoffState) (phase : Phase) (response : Response)
    (replies : phase.reply = some response) :
    (advance framework primitives env state phase).2.reply = some response := by
  cases phase with
  | narrate sender kind body after => exact replies
  | push message after => exact replies
  | send message after => exact replies
  | answer other => exact replies
  | _ => cases replies

/-- A step in which the others leave the receipts of an intent to the request at this place: none of
them presents a receipt that is held for the intent or finds it stale. And the keys that the mint of
the request draws are ideal for the intent. -/
def System.LeavingStep (framework : Framework) (primitives : Primitives) (intent : AgentIntent)
    (index : Nat) (before : System) (action : Action) (after : System) : Prop :=
  before.Step framework primitives action after ∧
    (action.own index = false → ∀ receipt : PaymentReceipt, receipt.intentId = intent.intentId →
      before.state.gate.receipts.lookup receipt.receiptId = some receipt →
      ¬ before.Presents receipt action ∧ ¬ before.Evicts receipt action) ∧
    ∀ env receipt, before.tasks[index]? = some (.mint receipt intent) →
      action = .advance index env → IdealMint primitives intent.payload env.now env.entropy

/-- The steps of the request itself leave the receipts to it. -/
theorem leaving_own (framework : Framework) (primitives : Primitives) (env : Env)
    (intent : AgentIntent)
    (ideal : IdealMint primitives intent.payload env.now env.entropy) (index : Nat)
    (before after : System)
    (step : before.Step framework primitives (.advance index env) after) :
    before.LeavingStep framework primitives intent index (.advance index env) after := by
  have own : (Action.advance index env).own index = true := beq_self_eq_true index
  refine ⟨step, fun other => ?_, fun drawn receipt _ same => ?_⟩
  · rw [own] at other
    cases other
  · obtain ⟨-, rfl⟩ := Action.advance.inj same
    exact ideal

/-- An arrival leaves all receipts alone. -/
theorem leaving_arrive (framework : Framework) (primitives : Primitives) (intent : AgentIntent)
    (index : Nat) (before : System) (arrival : Arrival) :
    before.LeavingStep framework primitives intent index (.arrive arrival)
      (before.step framework primitives (.arrive arrival)) :=
  ⟨⟨fun _ drawn => absurd drawn List.not_mem_nil, rfl⟩, fun _ _ _ _ => ⟨id, id⟩,
    fun _ _ _ wrong => by cases wrong⟩

/-- The envelope of an intent, under a credential that was released for it at an instant. -/
def SettledAt (primitives : Primitives) (intent : AgentIntent) (receipt : PaymentReceipt)
    (now : Int64) (envelope : OneShotEnvelope) : Prop :=
  ∃ canonical entropy chaos, canonicalize intent.payload = .ok canonical ∧
    IdealMint primitives intent.payload now entropy ∧
    envelope = .package intent.payload
      (releasedCredential primitives canonical receipt now entropy chaos) receipt

/-- Where the execution of a paid intent is: before its guard with the receipt still held, past it
with the receipt in hand, or on its way to the answer with the envelope. -/
def System.Paying (primitives : Primitives) (index : Nat) (request : Request)
    (intent : AgentIntent) (receipt : PaymentReceipt) (system : System) : Prop :=
  ∃ phase, system.tasks[index]? = some phase ∧
    ((phase = .guard request ∧ system.Holds receipt) ∨ phase = .execute request receipt ∨
      phase = .mint receipt intent ∨ ∃ now envelope,
        SettledAt primitives intent receipt now envelope ∧
        phase.reply = some ⟨200, .envelope envelope⟩)

section Paying

variable (framework : Framework) (primitives : Primitives) (request : Request)
  (intent : AgentIntent) (receipt : PaymentReceipt)

/-- What the steps of a paid execution make of it. -/
theorem paying_advance (index : Nat) (before : System) (env : Env) (after : System) (phase : Phase)
    (post : request.method = "POST")
    (header : request.headerStr? intentHeader = some intent.intentId)
    (presented : request.headerStr? receiptHeader = some receipt.receiptId)
    (extracted : framework.extractJson AgentIntent.fromJson request = some intent)
    (paid : receipt.intentId = intent.intentId)
    (ideal : phase = .mint receipt intent →
      IdealMint primitives intent.payload env.now env.entropy)
    (moved : after.tasks[index]? = some (advance framework primitives env before.state phase).2)
    (here : (phase = .guard request ∧ before.Holds receipt) ∨ phase = .execute request receipt ∨
      phase = .mint receipt intent ∨ ∃ now envelope,
        SettledAt primitives intent receipt now envelope ∧
        phase.reply = some ⟨200, .envelope envelope⟩) :
    after.Paying primitives index request intent receipt := by
  refine ⟨_, moved, ?_⟩
  rcases here with ⟨rfl, holds⟩ | rfl | rfl | ⟨now, envelope, settled, replies⟩
  · have same : receipt.intentId = (request.headerStr? intentHeader).getD "" := by
      rw [header]
      exact paid
    rw [advance, paymentGuard_of_held before.state request _ receipt presented holds.2 same]
    exact .inr (.inl rfl)
  · rw [advance, execute_of_extracted framework _ request receipt intent post extracted paid]
    exact .inr (.inr (.inl rfl))
  · have drawn := ideal rfl
    obtain ⟨canonical, canonicalized⟩ := intent.canonicalize_payload
    have clear := (mintChaos_allClear_iff primitives intent.payload intent.payload_uniqueKeys
      canonical canonicalized env.now env.entropy drawn).mpr (payload_unmarked intent)
    have minted : mint primitives intent.payload receipt env.now env.entropy =
        .ok (releasedCredential primitives canonical receipt env.now env.entropy
          (mintChaos primitives canonical intent.payload env.now env.entropy)) :=
      (mint_eq_ok _ _ _ _ _ _).mpr ⟨canonical, canonicalized, clear, rfl⟩
    refine .inr (.inr (.inr ?_))
    rw [advance]
    generalize outcome : mintAndPackage primitives env before.state receipt intent = next
    rcases mintAndPackage_cases primitives env before.state receipt intent with
      ⟨refusal, body, response, -, refused, -⟩ | ⟨credential, body, released, comes⟩
    · cases minted.symm.trans refused
    · cases minted.symm.trans released
      rw [← outcome, comes]
      exact ⟨env.now, _, ⟨canonical, env.entropy, _, canonicalized, drawn, rfl⟩, rfl⟩
  · exact .inr (.inr (.inr ⟨now, envelope, settled,
      reply_advance framework primitives env before.state phase _ replies⟩))

/-- In whatever order the others take their steps, a paid execution goes on. -/
theorem paying_step (index : Nat) (post : request.method = "POST")
    (header : request.headerStr? intentHeader = some intent.intentId)
    (presented : request.headerStr? receiptHeader = some receipt.receiptId)
    (extracted : framework.extractJson AgentIntent.fromJson request = some intent)
    (paid : receipt.intentId = intent.intentId) (before : System) (action : Action)
    (after : System)
    (step : before.LeavingStep framework primitives intent index action after)
    (paying : before.Paying primitives index request intent receipt) :
    after.Paying primitives index request intent receipt := by
  obtain ⟨step, spared, ideal⟩ := step
  obtain ⟨phase, found, here⟩ := paying
  rcases task_step framework primitives before action index phase found with
    ⟨other, still⟩ | ⟨env, rfl, moved⟩
  · rw [← step.2] at still
    refine ⟨phase, still, here.imp_left ?_⟩
    rintro ⟨rfl, holds⟩
    exact ⟨rfl, holds_step framework primitives receipt before action after
      ⟨step, spared other receipt paid holds.2⟩ holds⟩
  · refine paying_advance framework primitives request intent receipt index before env after phase
      post header presented extracted paid (fun same => ideal env receipt (same ▸ found) rfl) ?_
      here
    rw [step.2, moved]
    exact task_moved _ found

end Paying

/-! ### What is answered -/

section Settled

variable (primitives : Primitives) (intent : AgentIntent) (receipt : PaymentReceipt) (now : Int64)
  (envelope : OneShotEnvelope) (settled : SettledAt primitives intent receipt now envelope)

include settled in
/-- The envelope of an intent is at most 765 bytes longer than the intent. -/
theorem byteLength_settled (hexText : HexText primitives)
    (cleared : ∃ ulid intentId at_, receipt = .cleared ulid intentId at_) :
    envelope.toBroadcastJson.byteLength ≤ intent.payload.byteLength + 765 := by
  obtain ⟨ulid, intentId, at_, rfl⟩ := cleared
  obtain ⟨canonical, entropy, chaos, -, -, rfl⟩ := settled
  rw [byteLength_released primitives hexText, envelopeLength_cleared, frameLength]
  have issued := byteLength_ofInt64_le now
  have expires := byteLength_ofInt64_le (now + credentialTtlSecs)
  omega

include settled in
/-- The contract accepts the envelope for sixty seconds from its mint on, and at no other time. -/
theorem verify_settled_iff (hex : HexRoundTrip primitives) (inRange : now.toInt + 60 < 2 ^ 63)
    (later : Int64) :
    envelope.verify primitives later = .ok () ↔
      now.toInt ≤ later.toInt ∧ later.toInt < now.toInt + 60 := by
  obtain ⟨canonical, entropy, chaos, canonicalized, ideal, rfl⟩ := settled
  have signature := ideal.signature _
    ((canonicalMessage_ok_iff _ _ _).mpr ⟨canonical, canonicalized, rfl⟩)
  have binds := (binds_released_iff primitives hex intent.payload intent.payload
    intent.payload_uniqueKeys intent.payload_uniqueKeys receipt now entropy chaos canonical
    canonicalized signature).mpr (Value.sameUpToOrder_refl _)
  have expiry : (now + credentialTtlSecs).toInt = now.toInt + 60 := by
    have ttl : credentialTtlSecs.toInt = 60 := by decide
    have low := Int64.le_toInt now
    rw [Int64.toInt_add, ttl, Int.bmod_eq_of_le (by omega) (by omega)]
  rw [OneShotEnvelope.verify, SettlementParams.verify_eq_ok]
  constructor
  · rintro ⟨-, started, unexpired, -⟩
    exact ⟨Int64.le_iff_toInt_le.mp started, expiry ▸ Int64.lt_iff_toInt_lt.mp unexpired⟩
  · rintro ⟨started, unexpired⟩
    exact ⟨rfl, Int64.le_iff_toInt_le.mpr started,
      Int64.lt_iff_toInt_lt.mpr (expiry.symm ▸ unexpired), binds⟩

end Settled

/-! ### The shell's execution of a paid intent -/

/-- The execution of a paid intent goes on from its arrival, in whatever order the others take their
steps. -/
theorem execution_paying (framework : Framework) (primitives : Primitives)
    (readsBack : framework.ReadsBack) (before : System) (accounted : before.Accounted)
    (intent : AgentIntent) (visible : Visible intent.intentId)
    (small : intent.payload.byteLength ≤ maxRequestBodyBytes) (receipt : PaymentReceipt)
    (visibleReceipt : Visible receipt.receiptId) (paid : receipt.intentId = intent.intentId)
    (held : before.state.gate.receipts.lookup receipt.receiptId = some receipt)
    (actions : List Action) (final : System)
    (run : Run (System.LeavingStep framework primitives intent before.tasks.length) before
      (.arrive (.command (.requestExecution intent.payload (some receipt.receiptId))) :: actions)
      final) :
    ∃ request, (Arrival.command (.requestExecution intent.payload
        (some receipt.receiptId))).request? = some request ∧
      final.Paying primitives before.tasks.length request intent receipt := by
  obtain ⟨request, built⟩ := exists_mintingRequest intent _ visible visibleReceipt
  obtain ⟨post, execution, -⟩ := buildRequest_eq_some _ _ _ _ _ built
  obtain ⟨header, -, presented⟩ := headerStr?_minting intent _ request built
  have extracted := extractJson_minting framework readsBack intent _ request built small
  have arrives : (Arrival.command (.requestExecution intent.payload
      (some receipt.receiptId))).request? = some request := built
  refine ⟨request, arrives, ?_⟩
  cases run with
  | step first rest =>
    have guarded := task_arrive framework primitives before _ request arrives
    rw [← first.1.2, handoffRouter_execute request execution] at guarded
    have holds := holds_step framework primitives receipt before _ _ ⟨first.1, id, id⟩
      ⟨accounted, held⟩
    exact rest.kept (paying_step framework primitives request intent receipt _ post
      (header visible) (presented visibleReceipt) extracted paid)
      ⟨_, guarded, .inl ⟨rfl, holds⟩⟩

/-- When a paid execution is answered, it is with an envelope of the intent. -/
theorem paying_answered (primitives : Primitives) (index : Nat) (request : Request)
    (intent : AgentIntent) (receipt : PaymentReceipt) (system : System)
    (paying : system.Paying primitives index request intent receipt) (response : Response)
    (answered : system.tasks[index]? = some (.answer response)) :
    ∃ now envelope, SettledAt primitives intent receipt now envelope ∧
      response = ⟨200, .envelope envelope⟩ := by
  obtain ⟨phase, found, here⟩ := paying
  cases answered.symm.trans found
  rcases here with ⟨wrong, -⟩ | wrong | wrong | ⟨now, envelope, settled, replies⟩
  · cases wrong
  · cases wrong
  · cases wrong
  · exact ⟨now, envelope, settled, Option.some.inj replies⟩

end Hammurabi
