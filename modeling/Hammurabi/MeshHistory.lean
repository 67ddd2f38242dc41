/-
This file reduces the mesh of the running process to interleaved posts.

Each step of a request is a step of one of its posts, or leaves the mesh alone. The
lines that requests are about to push and to send are the posts under way. So every
interleaving of requests is an interleaving of posts, and what is known of the feed in
every such interleaving holds of the process: its log is the tail of the lines pushed, and
the numbers taken are the first ones, each by one line that is pushed or about to be.
-/

import Hammurabi.GateHistory
import Hammurabi.Notices
import Hammurabi.Retention

namespace Hammurabi

open Runs

/-! ### Steps of posts -/

/-- The line a request is about to send. -/
def Phase.sends : Phase → List MeshMessage
  | .send message _ => [message]
  | _ => []

/-- The step of a post that the next step of a request is. -/
def Phase.feedAction (env : Env) : Phase → Option FeedAction
  | .narrate sender kind body _ => some (.next sender kind body env.at_)
  | .push message _ => some (.push message)
  | .send message _ => some (.send message)
  | _ => none

/-- The step of a post that an action is. -/
def System.feedActions (system : System) : Action → List FeedAction
  | .arrive _ => []
  | .advance index env => (system.tasks[index]?.bind (Phase.feedAction env)).toList

/-- The steps of posts among some actions, in their order. -/
def feedActionsOf (framework : Framework) (primitives : Primitives) :
    System → List Action → List FeedAction
  | _, [] => []
  | system, action :: actions =>
    system.feedActions action ++
      feedActionsOf framework primitives (system.step framework primitives action) actions

/-- A request that posts has nothing but lines and an answer to follow. -/
def Phase.Steady : Phase → Prop
  | .narrate _ _ _ after => after.Plain
  | .push _ after => after.Plain
  | .send _ after => after.Plain
  | _ => True

theorem Phase.Plain.steady {phase : Phase} (plain : phase.Plain) :
    phase.Steady ∧ phase.pushes = [] ∧ phase.sends = [] := by
  cases phase with
  | narrate sender kind body after => exact ⟨plain, rfl, rfl⟩
  | answer response => exact ⟨trivial, rfl, rfl⟩
  | _ => cases plain

section Steps

variable (framework : Framework) (primitives : Primitives)

/-- A handler goes on to another, or to lines and an answer. -/
theorem advance_handles (env : Env) (state : HandoffState) (phase : Phase)
    (handles : phase.handles = true) :
    (advance framework primitives env state phase).2.Plain ∨
      (advance framework primitives env state phase).2.handles = true := by
  cases phase with
  | feed => exact .inl trivial
  | announce request => exact .inl trivial
  | settle request =>
    rcases x402Settle_cases framework env state request with
      ⟨phase, response, -, comes, rfl | ⟨body, rfl⟩⟩ | ⟨req, receipt, -, -, comes⟩
    · rw [advance, comes]
      exact .inl trivial
    · rw [advance, comes]
      exact .inl trivial
    · rw [advance, comes]
      exact .inr rfl
  | record receipt now => exact .inl trivial
  | guard request =>
    rcases paymentGuard_cases state request with
      ⟨gate, body, -, comes⟩ | ⟨receiptId, receipt, -, -, -, comes⟩
    · rw [advance, comes]
      exact .inl trivial
    · rw [advance, comes]
      exact .inr rfl
  | execute request receipt =>
    rcases execute_cases framework state request receipt with
      ⟨response, -, comes⟩ | ⟨intent, -, -, comes⟩
    · rw [advance, comes]
      exact .inl trivial
    · rw [advance, comes]
      exact .inr rfl
  | mint receipt intent =>
    have outcome := mintAndPackage_cases primitives env state receipt intent
    rw [advance]
    generalize mintAndPackage primitives env state receipt intent = next at outcome ⊢
    rcases outcome with ⟨refusal, body, response, -, -, rfl⟩ | ⟨credential, body, -, rfl⟩
    · exact .inl trivial
    · exact .inl trivial
  | _ => cases handles

/-- Requests stay steady. -/
theorem steady_advance (env : Env) (state : HandoffState) (phase : Phase)
    (steady : phase.Steady) : (advance framework primitives env state phase).2.Steady := by
  cases handles : phase.handles with
  | true =>
    rcases advance_handles framework primitives env state phase handles with plain | handles
    · exact plain.steady.1
    · cases next : (advance framework primitives env state phase).2 with
      | narrate sender kind body after => rw [next] at handles; cases handles
      | push message after => rw [next] at handles; cases handles
      | send message after => rw [next] at handles; cases handles
      | _ => exact trivial
  | false =>
    cases phase with
    | narrate sender kind body after => exact steady
    | push message after => exact steady
    | send message after => exact Phase.Plain.steady steady |>.1
    | answer response => exact trivial
    | _ => cases handles

/-! ### One step is at most one step of a post -/

/-- A run of posts follows the process: they share the mesh, and the posts under way are those of
the requests in flight. -/
structure Follows (system : System) (feed : FeedRun) : Prop where
  bus : feed.bus = system.state.mesh
  toPush : feed.toPush.Perm (system.tasks.flatMap Phase.pushes)
  toSend : feed.toSend.Perm (system.tasks.flatMap Phase.sends)

/-- One request apart from the others. -/
theorem flatMap_split (lines : Phase → List MeshMessage) (front back : List Phase)
    (phase : Phase) :
    ((front ++ phase :: back).flatMap lines).Perm
      (lines phase ++ (front ++ back).flatMap lines) := by
  rw [List.flatMap_append, List.flatMap_cons, List.flatMap_append]
  exact List.perm_append_comm_assoc _ _ _

/-- What a handler leaves to be pushed and sent: nothing, before its step and after it. -/
theorem handles_idle (env : Env) (state : HandoffState) (phase : Phase)
    (handles : phase.handles = true) :
    phase.pushes = [] ∧ phase.sends = [] ∧
      (advance framework primitives env state phase).2.pushes = [] ∧
      (advance framework primitives env state phase).2.sends = [] := by
  have idle : ∀ phase : Phase, phase.handles = true → phase.pushes = [] ∧ phase.sends = [] := by
    intro phase handles
    cases phase with
    | narrate sender kind body after => cases handles
    | push message after => cases handles
    | send message after => cases handles
    | _ => exact ⟨rfl, rfl⟩
  obtain ⟨pushes, sends⟩ := idle phase handles
  refine ⟨pushes, sends, ?_⟩
  rcases advance_handles framework primitives env state phase handles with plain | still
  · exact plain.steady.2
  · exact idle _ still

/-- A step of a request is followed by the step of its post, if it is one. -/
theorem follows_advance (env : Env) (system : System) (feed : FeedRun)
    (follows : Follows system feed) (front back : List Phase) (phase : Phase)
    (split : system.tasks = front ++ phase :: back) (steady : phase.Steady)
    (issued : List PaymentReceipt) :
    ∃ next, Run FeedStep feed (phase.feedAction env).toList next ∧
      Follows ⟨(advance framework primitives env system.state phase).1,
        front ++ (advance framework primitives env system.state phase).2 :: back, issued⟩ next := by
  obtain ⟨bus, toPush, toSend⟩ := follows
  rw [split] at toPush toSend
  have pushing := toPush.trans (flatMap_split Phase.pushes front back phase)
  have sending := toSend.trans (flatMap_split Phase.sends front back phase)
  -- the posts under way afterwards, by what the request is about to do then
  have after : ∀ next : FeedRun,
      next.bus = (advance framework primitives env system.state phase).1.mesh →
      next.toPush.Perm ((advance framework primitives env system.state phase).2.pushes ++
        (front ++ back).flatMap Phase.pushes) →
      next.toSend.Perm ((advance framework primitives env system.state phase).2.sends ++
        (front ++ back).flatMap Phase.sends) →
      Follows ⟨(advance framework primitives env system.state phase).1,
        front ++ (advance framework primitives env system.state phase).2 :: back, issued⟩ next :=
    fun next sameBus samePush sameSend => ⟨sameBus,
      samePush.trans (flatMap_split Phase.pushes front back _).symm,
      sameSend.trans (flatMap_split Phase.sends front back _).symm⟩
  cases handles : phase.handles with
  | true =>
    obtain ⟨noPush, noSend, noPushLater, noSendLater⟩ :=
      handles_idle framework primitives env system.state phase handles
    have still := (advance_of_handles framework primitives env system.state phase handles).1
    have none : phase.feedAction env = none := by
      cases phase with
      | narrate sender kind body after => cases handles
      | push message after => cases handles
      | send message after => cases handles
      | _ => rfl
    rw [none]
    refine ⟨feed, .stop feed, after feed (bus.trans still.symm) ?_ ?_⟩
    · rwa [noPushLater, ← noPush]
    · rwa [noSendLater, ← noSend]
  | false =>
    cases phase with
    | narrate sender kind body rest =>
      refine ⟨_, .step rfl (.stop _), after _ ?_ ?_ sending⟩
      · exact congrArg (fun bus : MeshBus => (bus.next sender kind body env.at_).2) bus
      · refine (pushing.append_right _).trans ?_
        rw [bus]
        exact List.perm_append_singleton _ _
    | push message rest =>
      have inside : message ∈ feed.toPush := pushing.mem_iff.mpr List.mem_cons_self
      refine ⟨_, .step (if_pos inside) (.stop _), after _ ?_ ?_ ?_⟩
      · exact congrArg (fun bus : MeshBus => bus.push message) bus
      · exact ((List.perm_cons_erase inside).symm.trans pushing).cons_inv
      · exact (sending.append_right _).trans (List.perm_append_singleton _ _)
    | send message rest =>
      have inside : message ∈ feed.toSend := sending.mem_iff.mpr List.mem_cons_self
      obtain ⟨-, noPush, noSend⟩ := Phase.Plain.steady steady
      refine ⟨_, .step (if_pos inside) (.stop _), after _ ?_ ?_ ?_⟩
      · exact congrArg (fun bus : MeshBus => bus.send message) bus
      · rw [show (advance framework primitives env system.state (.send message rest)).2 = rest
          from rfl, noPush]
        exact pushing
      · rw [show (advance framework primitives env system.state (.send message rest)).2 = rest
          from rfl, noSend]
        exact ((List.perm_cons_erase inside).symm.trans sending).cons_inv
    | answer response => exact ⟨feed, .stop feed, after feed bus pushing sending⟩
    | _ => cases handles

/-- A request that has just come in is about to push and send nothing. -/
theorem steady_handoffRouter (request : Request) :
    (handoffRouter request).Steady ∧ (handoffRouter request).pushes = [] ∧
      (handoffRouter request).sends = [] := by
  rw [handoffRouter]
  split_ifs
  all_goals exact ⟨trivial, rfl, rfl⟩

/-- Every step of the process is followed by the steps of posts it takes. -/
theorem follows_step (before : System) (action : Action) (feed : FeedRun)
    (follows : Follows before feed) (steady : ∀ phase ∈ before.tasks, phase.Steady) :
    (∀ phase ∈ (before.step framework primitives action).tasks, phase.Steady) ∧
      ∃ next, Run FeedStep feed (before.feedActions action) next ∧
        Follows (before.step framework primitives action) next := by
  cases action with
  | arrive arrival =>
    rw [System.step]
    cases arrival.request? with
    | none => exact ⟨steady, feed, .stop feed, follows⟩
    | some request =>
      obtain ⟨new, noPush, noSend⟩ := steady_handoffRouter request
      refine ⟨forall_mem_added before.tasks _ steady new, feed, .stop feed, follows.bus, ?_, ?_⟩
      · rw [List.flatMap_append, List.flatMap_singleton, noPush, List.append_nil]
        exact follows.toPush
      · rw [List.flatMap_append, List.flatMap_singleton, noSend, List.append_nil]
        exact follows.toSend
  | advance index env =>
    cases found : before.tasks[index]? with
    | none =>
      rw [System.step, System.feedActions, found]
      exact ⟨steady, feed, .stop feed, follows⟩
    | some phase =>
      obtain ⟨front, back, split, advanced⟩ :=
        step_split framework primitives before index env phase found
      have own := steady phase (List.mem_of_getElem? found)
      rw [advanced, System.feedActions, found]
      have next := steady_advance framework primitives env before.state phase own
      exact ⟨forall_mem_replaced front back phase _ (split ▸ steady) next,
        follows_advance framework primitives env before feed follows front back phase split own _⟩

/-! ### Every interleaving of requests is one of posts -/

theorem follows_of_run (start final : System) (actions : List Action)
    (run : Run (System.Step framework primitives) start actions final) (feed : FeedRun)
    (follows : Follows start feed) (steady : ∀ phase ∈ start.tasks, phase.Steady) :
    ∃ last, Run FeedStep feed (feedActionsOf framework primitives start actions) last ∧
      Follows final last := by
  induction run generalizing feed with
  | stop system => exact ⟨feed, .stop feed, follows⟩
  | step first rest inductionHypothesis =>
    obtain ⟨-, rfl⟩ := first
    obtain ⟨still, next, taken, follows⟩ :=
      follows_step framework primitives _ _ feed follows steady
    obtain ⟨last, others, followsLast⟩ := inductionHypothesis next follows still
    exact ⟨last, taken.append others, followsLast⟩

end Steps

/-- However requests interleave, their posts are an interleaving of posts on the process's bus, and
the posts under way are those of the requests in flight. So the log is the last lines pushed, up to
its cap, and as long as the counter has not wrapped the numbers taken are the first ones, each of
one line that is pushed or that a request in flight is about to push. -/
theorem feed_of_process (framework : Framework) (primitives : Primitives)
    (backend : SettlementBackend) (actions : List Action) (final : System)
    (run : Run (System.Step framework primitives) (.start backend) actions final) :
    ∃ feed, Run FeedStep .start (feedActionsOf framework primitives (.start backend) actions) feed ∧
      feed.bus = final.state.mesh ∧ feed.toPush.Perm (final.tasks.flatMap Phase.pushes) ∧
      feed.toSend.Perm (final.tasks.flatMap Phase.sends) ∧
      final.state.mesh.log <:+
        pushes (feedActionsOf framework primitives (.start backend) actions) ∧
      final.state.mesh.log.length = min
        (pushes (feedActionsOf framework primitives (.start backend) actions)).length maxLogLen ∧
      (feed.taken ≤ 2 ^ 64 →
        ((pushes (feedActionsOf framework primitives (.start backend) actions) ++
          final.tasks.flatMap Phase.pushes).map fun line => line.seq.toNat).Perm
            (List.range feed.taken)) := by
  obtain ⟨feed, reached, bus, toPush, toSend⟩ :=
    follows_of_run framework primitives _ final actions run .start ⟨rfl, .nil, .nil⟩
      fun phase none => absurd none List.not_mem_nil
  have lines := pushed_of_run .start feed _ reached
  rw [show FeedRun.start.pushed = [] from rfl, List.nil_append] at lines
  have counted := counted_of_run feed _ reached
  refine ⟨feed, reached, bus, toPush, toSend, ⟨feed.evicted, ?_⟩, ?_, fun few => ?_⟩
  · rw [← bus, ← lines]
    rfl
  · rw [← bus, ← lines]
    exact counted.length_log
  · have numbers := counted.numbers few
    rw [lines] at numbers
    refine List.Perm.trans ?_ numbers
    exact (toPush.symm.append_left _).map _

/-- So for the process in which the line of a settlement is in the log and still to be sent, and
that of an announcement has its number and is still to be pushed. -/
theorem feed_of_process_announcing :
    let posts := feedActionsOf plainFramework (markingPrimitives []) (.start .mock)
      (beforePushActions "a")
    ∃ feed, Run FeedStep .start posts feed ∧ feed.bus = (beforePushSystem "a").state.mesh ∧
      feed.toPush.Perm [announcedMessage] ∧ feed.toSend.Perm [tellingMessage "a"] ∧
      [tellingMessage "a"] <:+ pushes posts ∧ 1 = min (pushes posts).length maxLogLen ∧
      (feed.taken ≤ 2 ^ 64 →
        ((pushes posts ++ [announcedMessage]).map fun line => line.seq.toNat).Perm
          (List.range feed.taken)) := by
  intro posts
  obtain ⟨feed, reached, bus, toPush, toSend, retained, length, numbers⟩ :=
    feed_of_process plainFramework (markingPrimitives []) .mock (beforePushActions "a")
      (beforePushSystem "a") (run_beforePushSystem (markingPrimitives []) "a" (by decide))
  have log : (beforePushSystem "a").state.mesh.log = [tellingMessage "a"] := feed_toldSystem "a"
  rw [log] at retained length
  exact ⟨feed, reached, bus, toPush, toSend, retained, length, numbers⟩

end Hammurabi
