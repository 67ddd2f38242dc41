/-
This file is about how much of the feed the OKX bridge can read.

Reading the audit feed is a request like any other: the router answers with every
retained line, and the bridge reads the answer only within the limit of a response. Three
limits meet there. The log holds so many lines, a request body so many bytes, and a
response no more bytes than one request; but a line quotes a text of a body, and adds its
own. So the feed is readable exactly while the texts of its lines, with their commas and
brackets, are within the limit: always if every line is brief, and not after one
settlement of an id that is nearly as long as a body may be.
-/

import Mathlib.Algebra.Order.BigOperators.Group.List
import Hammurabi.AuditLog
import Hammurabi.BridgeErrors

namespace Hammurabi

open Json Runs Unicode

/-! ### The length of a feed -/

/-- The longest line of which a full log is within the limit of a response. -/
def maxLineBytes : Nat := 523

theorem maxLineBytes_longest :
    maxLogLen * maxLineBytes + (maxLogLen - 1) + 2 ≤ maxResponseBytes ∧
      maxResponseBytes < maxLogLen * (maxLineBytes + 1) + (maxLogLen - 1) + 2 := by
  unfold maxLogLen
  decide

/-- A log of brief lines is within the limit. -/
theorem feedLength_le (lines : List MeshMessage) (few : lines.length ≤ maxLogLen)
    (brief : ∀ line ∈ lines, line.toJson.byteLength ≤ maxLineBytes) :
    feedLength lines ≤ maxResponseBytes := by
  have total := List.sum_le_card_nsmul (lines.map fun line => line.toJson.byteLength) maxLineBytes
    fun size member => by
      obtain ⟨line, inside, rfl⟩ := List.mem_map.mp member
      exact brief line inside
  rw [List.length_map, Nat.nsmul_eq_mul] at total
  have most : lines.length * maxLineBytes ≤ maxLogLen * maxLineBytes :=
    Nat.mul_le_mul_right _ few
  have fits := maxLineBytes_longest.1
  rw [feedLength]
  omega

/-! ### Reading the feed -/

/-- The bridge answers a reading of the feed with every retained line, in the order of the log. -/
def ListsFeed (framework : Framework) (primitives : Primitives) (envs : Nat → Env)
    (state : HandoffState) (requestId : String) (params : Value) : Prop :=
  (dispatchOkx framework primitives envs state ⟨"audit_feed", requestId, params⟩).2 =
    .ok ⟨requestId, 200, .array (state.mesh.log.map MeshMessage.toJson)⟩

section Reading

variable (framework : Framework) (primitives : Primitives) (readsBack : framework.ReadsBack)
  (envs : Nat → Env) (state : HandoffState) (requestId : String) (params : Value)

include readsBack

/-- What the bridge answers: the feed if it is within the limit, and an error if not. -/
theorem dispatch_auditFeed :
    (dispatchOkx framework primitives envs state ⟨"audit_feed", requestId, params⟩).2 =
      if feedLength state.mesh.log ≤ maxResponseBytes then
        .ok ⟨requestId, 200, .array (state.mesh.log.map MeshMessage.toJson)⟩
      else .error s!"body read failed: {framework.lengthError}" := by
  have answered : (handle framework primitives envs state ⟨"GET", "/mesh/feed", [], []⟩).phase =
      .answer ⟨200, .feed state.mesh.log⟩ := rfl
  obtain ⟨unique, integer, shallow⟩ := feed_document state.mesh.log
  rw [dispatchOkx_of_answer framework primitives envs state _ ⟨"GET", "/mesh/feed", [], none⟩ _ _
    rfl rfl answered, readResponse_document framework readsBack _ _ rfl unique integer shallow,
    byteLength_feed, apply_ite (Except.map _)]
  rfl

theorem listsFeed_iff :
    ListsFeed framework primitives envs state requestId params ↔
      feedLength state.mesh.log ≤ maxResponseBytes := by
  rw [ListsFeed, dispatch_auditFeed framework primitives readsBack]
  split_ifs with fits
  · exact iff_of_true rfl fits
  · exact iff_of_false nofun fits

end Reading

/-! ### Runs with brief lines -/

/-- A step that pushes a line pushes a brief one. -/
def System.Brief (system : System) : Action → Prop
  | .arrive _ => True
  | .advance index _ => ∀ phase, system.tasks[index]? = some phase →
      ∀ message ∈ phase.pushes, message.toJson.byteLength ≤ maxLineBytes

/-- One step of the system, in which only a brief line is pushed. -/
def System.BriefStep (framework : Framework) (primitives : Primitives) (before : System)
    (action : Action) (after : System) : Prop :=
  before.Step framework primitives action after ∧ before.Brief action

/-- A log that is within its cap, and whose lines are brief. -/
def HoldsBrief (log : List MeshMessage) : Prop :=
  log.length ≤ maxLogLen ∧ ∀ line ∈ log, line.toJson.byteLength ≤ maxLineBytes

theorem holdsBrief_step (framework : Framework) (primitives : Primitives) (before : System)
    (action : Action) (after : System) (step : before.BriefStep framework primitives action after)
    (holds : HoldsBrief before.state.mesh.log) : HoldsBrief after.state.mesh.log := by
  obtain ⟨⟨-, rfl⟩, brief⟩ := step
  rcases step_cases framework primitives before action with
    same | ⟨request, arrived⟩ | ⟨index, env, front, phase, back, rfl, found, -, advanced⟩
  · rwa [same]
  · rwa [arrived]
  · rw [advanced]
    dsimp only
    rw [advance_mesh]
    refine ⟨?_, fun line member => ?_⟩
    · cases phase with
      | push message after => exact before.state.mesh.length_push message
      | _ => exact holds.1
    · rcases mem_log_posts env before.state.mesh phase line member with earlier | pushed
      · exact holds.2 line earlier
      · exact brief phase found line pushed

/-- In every state, reached by requests or not, the bridge lists the feed exactly when the lines
that are retained, with their commas and brackets, are within the limit of a response; and in every
run whose every line is brief, it does so in every state reached. -/
theorem auditFeed_readable_iff (framework : Framework) (primitives : Primitives)
    (readsBack : framework.ReadsBack) (envs : Nat → Env) (requestId : String) (params : Value) :
    (∀ state : HandoffState, ListsFeed framework primitives envs state requestId params ↔
      feedLength state.mesh.log ≤ maxResponseBytes) ∧
    ∀ (backend : SettlementBackend) (actions : List Action) (final : System),
      Run (System.BriefStep framework primitives) (.start backend) actions final →
      ListsFeed framework primitives envs final.state requestId params := by
  have readable := fun state =>
    listsFeed_iff framework primitives readsBack envs state requestId params
  refine ⟨readable, fun backend actions final run => (readable final.state).mpr ?_⟩
  have holds : HoldsBrief final.state.mesh.log :=
    run.kept (holdsBrief_step framework primitives)
      ⟨Nat.zero_le _, fun line member => absurd member List.not_mem_nil⟩
  exact feedLength_le _ holds.1 holds.2

/-- After one settlement of a short id and an announcement, both lines are listed. -/
theorem auditFeed_readable_announced :
    Run (System.Step plainFramework (markingPrimitives [])) (.start .mock) (announcedActions "a")
      (announcedSystem "a") ∧
    (announcedSystem "a").state.mesh.feed = [tellingMessage "a", announcedMessage] ∧
    ListsFeed plainFramework (markingPrimitives []) (fun _ => plainEnv)
      (announcedSystem "a").state "r" .null := by
  have readable := (auditFeed_readable_iff plainFramework (markingPrimitives [])
    plainFramework_readsBack (fun _ => plainEnv) "r" .null).1 (announcedSystem "a").state
  have feed := feed_announcedSystem "a"
  refine ⟨run_announcedSystem (markingPrimitives []) "a" (by decide), feed, readable.mpr ?_⟩
  rw [MeshBus.feed] at feed
  rw [feed]
  decide +kernel

/-! ### One long id -/

/-- An id of so many letters. -/
def longId (count : Nat) : String := String.ofList (List.replicate count 'a')

theorem length_longId (count : Nat) : (longId count).toList.length = count := by
  rw [longId, String.toList_ofList, List.length_replicate]

theorem byteLength_settleLong (count : Nat) :
    (Value.object [("intent_id", .string (longId count))]).byteLength = count + 16 := by
  have letters : keyLength (longId count) = count + 2 := by
    rw [keyLength_plain (longId count) fun c member => ?_, length_longId]
    rw [longId, String.toList_ofList] at member
    rw [List.eq_of_mem_replicate member]
    decide
  have key : keyLength "intent_id" = 11 := by decide
  rw [byteLength_object _ (List.cons_ne_nil _ _), List.map_singleton, List.map_singleton,
    List.sum_singleton, List.sum_singleton, List.length_singleton, byteLength_string, letters,
    key]
  omega

/-- The text of a line has that of its body in it. -/
theorem keyLength_body_le (message : MeshMessage) :
    keyLength message.body ≤ message.toJson.byteLength := by
  rw [MeshMessage.toJson, byteLength_object _ (List.cons_ne_nil _ _)]
  simp only [List.map_cons, List.sum_cons, byteLength_string]
  omega

/-- The line of its payment is longer than the body of its settlement. -/
theorem length_le_tellingLong (count : Nat) :
    count + 85 ≤ (tellingMessage (longId count)).toJson.byteLength := by
  have quotes : (tellingMessage (longId count)).body =
      paymentNotice (longId count) plainEnv.ulid.toString := rfl
  have body := length_le_keyLength (tellingMessage (longId count)).body
  have line := keyLength_body_le (tellingMessage (longId count))
  have parts : "x402 payment of 0.50 USDC settled for intent ".toList.length = 45 ∧
      " — receipt ".toList.length = 11 ∧ ".".toList.length = 1 := by decide
  have id : plainEnv.ulid.toString.toList.length = 26 := by
    rw [Ulid.toString, String.toList_ofList, Ulid.length_toChars]
  rw [quotes, toList_paymentNotice] at body
  rw [quotes] at line
  simp only [List.length_append, parts, id, length_longId] at body
  omega

/-- After one settlement of a long enough id, the bridge cannot read the feed. -/
theorem exists_unreadable (count : Nat) (small : count + 16 ≤ maxRequestBodyBytes)
    (long : maxResponseBytes < count + 85) : ∃ system,
    Run (System.Step plainFramework (markingPrimitives [])) (.start .mock)
      (tellingActions (longId count)) system ∧
    ¬ feedLength system.state.mesh.log ≤ maxResponseBytes := by
  refine ⟨toldSystem (longId count), run_toldSystem (markingPrimitives []) (longId count)
    ((byteLength_settleLong count).trans_le small), ?_⟩
  have feed := feed_toldSystem (longId count)
  have line := length_le_tellingLong count
  rw [MeshBus.feed] at feed
  rw [feed, feedLength, List.map_singleton, List.sum_singleton]
  omega

/-- After one settlement whose body is within the limit of a request, the bridge cannot read the
feed, though it knows the capability. -/
theorem auditFeed_unreadable : ∃ system,
    Run (System.Step plainFramework (markingPrimitives [])) (.start .mock)
      (tellingActions (longId 1048560)) system ∧
    (Value.object [("intent_id", .string (longId 1048560))]).byteLength = maxRequestBodyBytes ∧
    (dispatchOkx plainFramework (markingPrimitives []) (fun _ => plainEnv) system.state
      ⟨"audit_feed", "r", .null⟩).2 =
      .error s!"body read failed: {plainFramework.lengthError}" ∧
    ¬ ListsFeed plainFramework (markingPrimitives []) (fun _ => plainEnv) system.state "r"
      .null := by
  obtain ⟨system, run, exceeds⟩ := exists_unreadable 1048560 (by decide) (by decide)
  refine ⟨system, run, byteLength_settleLong 1048560, ?_, fun lists => exceeds ?_⟩
  · rw [dispatch_auditFeed plainFramework (markingPrimitives []) plainFramework_readsBack,
      if_neg exceeds]
  · exact (listsFeed_iff plainFramework (markingPrimitives []) plainFramework_readsBack _ _ _
      _).mp lists

end Hammurabi
