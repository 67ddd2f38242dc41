/-
This file is the running process: the shared state and every request it has taken in.

A request arrives over the loopback socket, from a command of the shell or from the
OKX bridge, and takes its steps one at a time; any other request may take its own in
between. Beside the state the system lists the receipts that settlements have issued,
which the code does not keep.

What is assumed of a step is that a settlement draws an id no receipt has yet.
-/

import Hammurabi.Library.Runs
import Hammurabi.Surfaces

namespace Hammurabi

open Json Runs Unicode

/-! ### Arrivals -/

/-- A request on its way in. -/
inductive Arrival where
  | http (request : Request)
  | command (command : Command)
  | okx (inv : OkxInvocation)

/-- The request that reaches the router, if one can be built. -/
def Arrival.request? : Arrival → Option Request
  | .http request => some request
  | .command invoked => invoked.call.request?
  | .okx inv => inv.call.bind RouterCall.request?

/-! ### The system and its steps -/

/-- The shared state, the requests in flight or answered, and the receipts issued so far. -/
structure System where
  state : HandoffState
  tasks : List Phase
  issued : List PaymentReceipt

/-- The process as it starts. -/
def System.start (backend : SettlementBackend) : System where
  state := .withBackend backend
  tasks := []
  issued := []

/-- What happens next: a request comes in, or one takes a step. -/
inductive Action where
  | arrive (arrival : Arrival)
  | advance (index : Nat) (env : Env)

/-- The receipt a step issues: a settlement goes on to record it. -/
def Phase.issues : Phase → Phase → List PaymentReceipt
  | .settle _, .record receipt _ => [receipt]
  | _, _ => []

section Steps

variable (framework : Framework) (primitives : Primitives)

def System.step (system : System) : Action → System
  | .arrive arrival =>
    match arrival.request? with
    | none => system
    | some request => { system with tasks := system.tasks ++ [handoffRouter request] }
  | .advance index env =>
    match system.tasks[index]? with
    | none => system
    | some phase =>
      let next := advance framework primitives env system.state phase
      { state := next.1
        tasks := system.tasks.set index next.2
        issued := system.issued ++ phase.issues next.2 }

/-- The id drawn for a new receipt. -/
def System.draws (system : System) : Action → List String
  | .arrive _ => []
  | .advance index env =>
    match system.tasks[index]? with
    | some (.settle _) => [env.ulid.toString]
    | _ => []

/-- A settlement draws an id that no receipt has yet. -/
def System.Fresh (system : System) (action : Action) : Prop :=
  ∀ id ∈ system.draws action, id ∉ system.issued.map PaymentReceipt.receiptId

/-- One step of the system, in which ids are fresh. -/
def System.Step (before : System) (action : Action) (after : System) : Prop :=
  before.Fresh action ∧ after = before.step framework primitives action

/-! ### What one step does to the requests -/

theorem step_advance (system : System) (index : Nat) (env : Env) (phase : Phase)
    (here : system.tasks[index]? = some phase) :
    system.step framework primitives (.advance index env) =
      { state := (advance framework primitives env system.state phase).1
        tasks := system.tasks.set index (advance framework primitives env system.state phase).2
        issued := system.issued ++
          phase.issues (advance framework primitives env system.state phase).2 } := by
  rw [System.step, here]

/-- A step replaces one request among the others, or adds one, or does nothing. -/
theorem step_cases (before : System) (action : Action) :
    before.step framework primitives action = before ∨
    (∃ request, before.step framework primitives action =
      { before with tasks := before.tasks ++ [handoffRouter request] }) ∨
    ∃ index env front phase back, action = .advance index env ∧
      before.tasks[index]? = some phase ∧ before.tasks = front ++ phase :: back ∧
      before.step framework primitives action =
        { state := (advance framework primitives env before.state phase).1
          tasks := front ++ (advance framework primitives env before.state phase).2 :: back
          issued := before.issued ++
            phase.issues (advance framework primitives env before.state phase).2 } := by
  cases action with
  | arrive arrival =>
    rw [System.step]
    cases arrival.request? with
    | none => exact .inl rfl
    | some request => exact .inr (.inl ⟨request, rfl⟩)
  | advance index env =>
    cases found : before.tasks[index]? with
    | none =>
      rw [System.step, found]
      exact .inl rfl
    | some phase =>
      obtain ⟨inside, here⟩ := List.getElem?_eq_some_iff.mp found
      have split : before.tasks =
          before.tasks.take index ++ phase :: before.tasks.drop (index + 1) := by
        rw [← here, List.getElem_cons_drop, List.take_append_drop]
      refine .inr (.inr ⟨index, env, _, phase, _, rfl, found, split, ?_⟩)
      rw [step_advance framework primitives before index env phase found,
        List.set_eq_take_append_cons_drop, if_pos inside]

theorem advance_backend (env : Env) (state : HandoffState) (phase : Phase) :
    (advance framework primitives env state phase).1.gate.backend = state.gate.backend := by
  cases phase with
  | settle request =>
    rcases x402Settle_cases framework env state request with
      ⟨phase, response, -, comes, -⟩ | ⟨req, receipt, -, -, comes⟩
    all_goals rw [advance, comes]
  | guard request =>
    rcases paymentGuard_cases state request with
      ⟨gate, body, rfl | ⟨receiptId, -, rfl⟩, comes⟩ | ⟨receiptId, receipt, -, -, -, comes⟩
    · rw [advance, comes]
    · rw [advance, comes]
      exact state.gate.redeem_backend _ _
    · rw [advance, comes]
      exact state.gate.redeem_backend _ _
  | execute request receipt =>
    rcases execute_cases framework state request receipt with
      ⟨response, -, comes⟩ | ⟨intent, -, -, comes⟩
    all_goals rw [advance, comes]
  | mint receipt intent =>
    rcases mintAndPackage_cases primitives env state receipt intent with
      ⟨refusal, body, response, -, -, comes⟩ | ⟨credential, body, -, comes⟩
    all_goals rw [advance, comes]
  | _ => rfl

/-- What a step issues is what the backend gave for the request that settles. -/
theorem settled_of_issues (env : Env) (state : HandoffState) (phase : Phase)
    (receipt : PaymentReceipt)
    (issues : receipt ∈ phase.issues (advance framework primitives env state phase).2) :
    ∃ request body, phase = .settle request ∧
      framework.extractJson SettleRequest.fromJson request = some body ∧
      state.gate.backend.settle body.intentId body.payment env.now env.ulid = .ok receipt := by
  cases phase with
  | settle request =>
    rcases x402Settle_cases framework env state request with
      ⟨next, response, -, comes, rfl | ⟨notice, rfl⟩⟩ | ⟨body, cleared, extracted, settled, comes⟩
    · rw [advance, comes] at issues
      cases issues
    · rw [advance, comes] at issues
      cases issues
    · rw [advance, comes] at issues
      obtain rfl := List.mem_singleton.mp issues
      exact ⟨request, body, rfl, extracted, settled⟩
  | _ => cases issues

/-! ### One request alone -/

/-- The system takes an action, whatever ids it draws. -/
def System.Takes (before : System) (action : Action) (after : System) : Prop :=
  after = before.step framework primitives action

end Steps

/-! ### Steps in a row -/

section Rows

variable (framework : Framework) (primitives : Primitives)

/-- What an own step makes of the request. -/
theorem task_moved {index : Nat} {tasks : List Phase} {phase : Phase} (next : Phase)
    (here : tasks[index]? = some phase) : (tasks.set index next)[index]? = some next :=
  List.getElem?_set_self (List.getElem?_eq_some_iff.mp here).1

/-- The request of an arrival takes the last place. -/
theorem task_arrive (before : System) (arrival : Arrival) (request : Request)
    (arrives : arrival.request? = some request) :
    (before.step framework primitives (.arrive arrival)).tasks[before.tasks.length]? =
      some (handoffRouter request) := by
  rw [System.step, arrives]
  exact List.getElem?_concat_length

/-- A request comes in. -/
theorem run_arrival (before : System) (arrival : Arrival) (request : Request)
    (arrives : arrival.request? = some request) :
    Run (System.Step framework primitives) before [.arrive arrival]
      { before with tasks := before.tasks ++ [handoffRouter request] } := by
  refine .step ⟨fun _ drawn => absurd drawn List.not_mem_nil, ?_⟩ (.stop _)
  rw [System.step, arrives]

/-- A request that is past its settlement takes a step. -/
theorem step_row (before : System) (index : Nat) (env : Env) (phase : Phase)
    (here : before.tasks[index]? = some phase) (other : ∀ request, phase ≠ .settle request)
    (next : HandoffState × Phase)
    (comes : advance framework primitives env before.state phase = next) :
    before.Step framework primitives (.advance index env)
      { before with state := next.1, tasks := before.tasks.set index next.2 } := by
  have unissued : phase.issues next.2 = [] := by
    cases phase with
    | settle request => exact absurd rfl (other request)
    | _ => rfl
  constructor
  · intro id drawn
    rw [System.draws, here] at drawn
    cases phase with
    | settle request => exact absurd rfl (other request)
    | _ => exact absurd drawn List.not_mem_nil
  · rw [step_advance framework primitives before index env phase here, comes, unissued,
      List.append_nil]

/-- The three steps of a post. -/
theorem run_post (before : System) (index : Nat) (env : Env) (sender : String)
    (kind : MeshEventKind) (body : String) (after : Phase)
    (here : before.tasks[index]? = some (.narrate sender kind body after)) :
    Run (System.Step framework primitives) before (List.replicate 3 (.advance index env))
      { before with
        state := { before.state with
          mesh := (before.state.mesh.post sender kind body env.at_).2 }
        tasks := before.tasks.set index after } := by
  let line := (before.state.mesh.next sender kind body env.at_).1
  have pushing := task_moved (.push line after) here
  have sending := task_moved (.send line after) pushing
  have row := Run.step
    (step_row framework primitives before index env _ here (fun _ => Phase.noConfusion) _ rfl)
    (.step (step_row framework primitives _ index env _ pushing (fun _ => Phase.noConfusion) _ rfl)
      (.step (step_row framework primitives _ index env _ sending (fun _ => Phase.noConfusion) _
        rfl) (.stop _)))
  dsimp only at row
  rw [List.set_set, List.set_set] at row
  exact row

/-- The guard, the comparison and the mint of a paid execution. -/
theorem run_execution (before : System) (index : Nat) (env : Env) (request : Request)
    (intent : AgentIntent) (receipt : PaymentReceipt) (credential : EphemeralCredential)
    (here : before.tasks[index]? = some (.guard request)) (post : request.method = "POST")
    (header : request.headerStr? intentHeader = some intent.intentId)
    (presented : request.headerStr? receiptHeader = some receipt.receiptId)
    (extracted : framework.extractJson AgentIntent.fromJson request = some intent)
    (held : before.state.gate.receipts.lookup receipt.receiptId = some receipt)
    (paid : receipt.intentId = intent.intentId)
    (minted : mint primitives intent.payload receipt env.now env.entropy = .ok credential) :
    ∃ body, Run (System.Step framework primitives) before (List.replicate 3 (.advance index env))
      { before with
        state := { before.state with
          gate := (before.state.gate.redeem receipt.receiptId intent.intentId).2 }
        tasks := before.tasks.set index (.narrate vaultHandle .credential credentialMintedNotice
          (.narrate relayHandle .settlement body
            (.answer ⟨200, .envelope (.package intent.payload credential receipt)⟩))) } := by
  have named : (request.headerStr? intentHeader).getD "" = intent.intentId := by
    rw [header]
    rfl
  have guards := paymentGuard_of_held before.state request _ receipt presented held
    (paid.trans named.symm)
  rw [named] at guards
  have executing := task_moved (.execute request receipt) here
  have minting := task_moved (.mint receipt intent) executing
  let state : HandoffState := { before.state with
    gate := (before.state.gate.redeem receipt.receiptId intent.intentId).2 }
  have guards : advance framework primitives env before.state (.guard request) =
      (state, .execute request receipt) := guards
  have executes : advance framework primitives env state (.execute request receipt) =
      (state, .mint receipt intent) :=
    execute_of_extracted framework state request receipt intent post extracted paid
  rcases mintAndPackage_cases primitives env state receipt intent with
    ⟨refusal, body, response, -, refused, -⟩ | ⟨other, body, released, mints⟩
  · cases minted.symm.trans refused
  · cases minted.symm.trans released
    have row := Run.step
      (step_row framework primitives before index env _ here (fun _ => Phase.noConfusion) _ guards)
      (.step
        (step_row framework primitives _ index env _ executing (fun _ => Phase.noConfusion) _
          executes)
        (.step
          (step_row framework primitives _ index env (.mint receipt intent) minting
            (fun _ => Phase.noConfusion) _ mints)
          (.stop _)))
    dsimp only at row
    rw [List.set_set, List.set_set] at row
    exact ⟨body, row⟩

end Rows

/-! ### One settlement -/

theorem SettleRequest.fromJson_intentId (intentId : String) :
    SettleRequest.fromJson (.object [("intent_id", .string intentId)]) =
      some ⟨intentId, none⟩ := rfl

/-- An environment at instant 7. -/
def plainEnv : Env := ⟨7, "00:00:07", .nil, plainEntropy⟩

/-- The system with one receipt about to be recorded, settled at the start through the shell. -/
def recordingSystem (receipt : PaymentReceipt) : System where
  state := .new
  tasks := [.record receipt receipt.clearedAt]
  issued := [receipt]

/-- The system with one receipt recorded. -/
def settledSystem (receipt : PaymentReceipt) : System where
  state := (recordReceipt .new receipt receipt.clearedAt).1
  tasks := [(recordReceipt .new receipt receipt.clearedAt).2]
  issued := [receipt]

section Settling

variable (framework : Framework) (primitives : Primitives)

/-- The request of a settlement is routed to its handler, and its body reads as the id. -/
theorem settle_reads (readsBack : framework.ReadsBack) (intentId : String)
    (small : (Value.object [("intent_id", .string intentId)]).byteLength ≤ maxRequestBodyBytes)
    (request : Request) (built : buildRequest "POST" "/x402/settle" []
      (some (.object [("intent_id", .string intentId)])) = some request) :
    handoffRouter request = .settle request ∧
      framework.extractJson SettleRequest.fromJson request = some ⟨intentId, none⟩ := by
  obtain ⟨method, uri, -⟩ := buildRequest_eq_some _ _ _ _ _ built
  refine ⟨handoffRouter_settle request method uri, ?_⟩
  exact (extractJson_buildRequest framework _ _ _ _ _ _ built rfl readsBack.contentType
    (readsBack.body _ (by simp) (by simp) (Nat.lt_of_sub_eq_succ rfl)) small).trans
    (SettleRequest.fromJson_intentId intentId)

/-- The shell settles: the request arrives and the backend clears it. -/
theorem run_recordingSystem (readsBack : framework.ReadsBack) (intentId : String) (env : Env)
    (small : (Value.object [("intent_id", .string intentId)]).byteLength ≤
      maxRequestBodyBytes) :
    Run (System.Step framework primitives) (.start .mock)
      [.arrive (.command (.x402Settle intentId)), .advance 0 env]
      (recordingSystem (.cleared env.ulid intentId env.now)) := by
  obtain ⟨request, built⟩ := exists_buildRequest "POST" "/x402/settle" []
    (.object [("intent_id", .string intentId)]) fun header none => absurd none List.not_mem_nil
  obtain ⟨routed, extracted⟩ := settle_reads framework readsBack intentId small request built
  have settled : x402Settle framework env .new request =
      (.new, .record (.cleared env.ulid intentId env.now) env.now) := by
    rw [x402Settle, extracted]
    rfl
  have arrives : (System.start .mock).Step framework primitives
      (.arrive (.command (.x402Settle intentId))) ⟨.new, [.settle request], []⟩ := by
    refine ⟨fun id drawn => absurd drawn List.not_mem_nil, ?_⟩
    rw [System.step, Arrival.request?, Command.call, RouterCall.request?, built, ← routed]
    rfl
  have clears : (System.mk .new [.settle request] []).Step framework primitives (.advance 0 env)
      (recordingSystem (.cleared env.ulid intentId env.now)) := by
    refine ⟨fun _ _ => List.not_mem_nil, ?_⟩
    change _ = System.mk (x402Settle framework env .new request).1
      [(x402Settle framework env .new request).2]
      ([] ++ Phase.issues (.settle request) (x402Settle framework env .new request).2)
    rw [settled]
    rfl
  exact .step arrives (.step clears (.stop _))

/-- The receipt is recorded. -/
theorem step_settledSystem (receipt : PaymentReceipt) (env : Env) :
    (recordingSystem receipt).Step framework primitives (.advance 0 env)
      (settledSystem receipt) :=
  ⟨fun _ drawn => absurd drawn List.not_mem_nil, rfl⟩

theorem run_settledSystem (readsBack : framework.ReadsBack) (intentId : String) (env : Env)
    (small : (Value.object [("intent_id", .string intentId)]).byteLength ≤
      maxRequestBodyBytes) :
    Run (System.Step framework primitives) (.start .mock)
      [.arrive (.command (.x402Settle intentId)), .advance 0 env, .advance 0 env]
      (settledSystem (.cleared env.ulid intentId env.now)) :=
  (run_recordingSystem framework primitives readsBack intentId env small).append
    (.step (step_settledSystem framework primitives _ env) (.stop _))

end Settling

end Hammurabi
