/-
This file is about an observer that subscribes first and takes a snapshot later.

A post pushes its line before it sends it, and posts overlap as they like. A line that
is sent while the observer is subscribed reaches it, as long as the ring has room for it;
a line that was sent before was pushed before, so it is in the log from then on, until the
cap evicts it. Between the two nothing falls through: what the observer has in neither
place was pushed before it subscribed and evicted before it took the snapshot.
-/

import Hammurabi.Retention

namespace Hammurabi

open Runs

/-! ### Sent lines -/

/-- The lines sent, in the order of the sends: those whose posts are complete. -/
def sends (actions : List FeedAction) : List MeshMessage :=
  actions.filterMap fun action =>
    match action with
    | .send message => some message
    | _ => none

theorem sends_append (front back : List FeedAction) :
    sends (front ++ back) = sends front ++ sends back := List.filterMap_append

theorem sends_cons (action : FeedAction) (rest : List FeedAction) :
    sends (action :: rest) = sends [action] ++ sends rest := sends_append [action] rest

/-- A line that is sent was waiting to be, and a line that waits was pushed. -/
theorem FeedRun.sent_step (before : FeedRun) (action : FeedAction) (after : FeedRun)
    (step : FeedStep before action after) (message : MeshMessage) :
    (message ∈ sends [action] → message ∈ before.toSend) ∧
      (message ∈ after.toSend → message ∈ before.toSend ∨ message ∈ pushes [action]) := by
  cases action with
  | next sender kind body at_ =>
    cases step
    exact ⟨fun none => absurd none List.not_mem_nil, .inl⟩
  | push line =>
    rw [FeedStep, FeedRun.step, Option.ite_none_right_eq_some] at step
    obtain ⟨-, same⟩ := step
    cases same
    exact ⟨fun none => absurd none List.not_mem_nil, List.mem_append.mp⟩
  | send line =>
    rw [FeedStep, FeedRun.step, Option.ite_none_right_eq_some] at step
    obtain ⟨inside, same⟩ := step
    cases same
    refine ⟨fun sent => ?_, fun waits => .inl (List.mem_of_mem_erase waits)⟩
    rw [List.mem_singleton.mp sent]
    exact inside
  | subscribe =>
    cases step
    exact ⟨fun none => absurd none List.not_mem_nil, .inl⟩
  | recv index =>
    cases step
    exact ⟨fun none => absurd none List.not_mem_nil, .inl⟩
  | unsubscribe index =>
    cases step
    exact ⟨fun none => absurd none List.not_mem_nil, .inl⟩

/-- A line sent in a run was waiting at its start or is pushed in it. -/
theorem pushed_of_sent (start finish : FeedRun) (actions : List FeedAction)
    (run : Run FeedStep start actions finish) (message : MeshMessage)
    (sent : message ∈ sends actions) : message ∈ start.toSend ∨ message ∈ pushes actions := by
  induction run with
  | stop state => cases sent
  | @step before middle _ action rest first _ inductionHypothesis =>
    have stepped := before.sent_step action middle first message
    rw [sends_cons, List.mem_append] at sent
    rw [pushes_cons, List.mem_append]
    rcases sent with now | later
    · exact .inl (stepped.1 now)
    · rcases inductionHypothesis later with waits | pushed
      · exact (stepped.2 waits).imp_right .inl
      · exact .inr (.inr pushed)

/-! ### The observer among the subscribers -/

/-- Where the subscriber at a place stands after an action; nothing if it is the one that leaves. -/
def FeedAction.follow (place : Nat) : FeedAction → Option Nat
  | .unsubscribe index =>
    if index < place then some (place - 1) else if index = place then none else some place
  | _ => some place

/-- The ring has room for the subscriber at a place, if a line is sent. -/
def KeepsUp (run : FeedRun) (place : Nat) : FeedAction → Prop
  | .send _ => ∀ receiver ∈ run.bus.live[place]?, receiver.waiting.length < liveCapacity
  | _ => True

/-- A step of the feed, with a subscriber who stays and does not lag. -/
def WatchedStep (before : FeedRun × Nat) (action : FeedAction) (after : FeedRun × Nat) : Prop :=
  FeedStep before.1 action after.1 ∧ action.follow before.2 = some after.2 ∧
    KeepsUp before.1 before.2 action

/-- All that a subscriber was sent. -/
def Receiver.heard (receiver : Receiver) : List MeshMessage :=
  receiver.received ++ receiver.waiting

/-- A line that there is room for is delivered, and nothing is lost for it. -/
theorem heard_deliver (receiver : Receiver) (message : MeshMessage)
    (room : receiver.waiting.length < liveCapacity) :
    (receiver.deliver message).heard = receiver.heard ++ [message] := by
  have fits : (receiver.waiting ++ [message]).length - liveCapacity = 0 := by
    rw [List.length_append, List.length_singleton]
    omega
  unfold Receiver.heard Receiver.deliver
  dsimp only
  rw [fits, List.drop_zero, List.append_assoc]

/-- With each step the subscriber hears what is sent in it. -/
theorem heard_step (before : FeedRun × Nat) (action : FeedAction) (after : FeedRun × Nat)
    (step : WatchedStep before action after) (receiver : Receiver)
    (here : before.1.bus.live[before.2]? = some receiver) :
    ∃ later, after.1.bus.live[after.2]? = some later ∧
      later.heard = receiver.heard ++ sends [action] := by
  obtain ⟨run, place⟩ := before
  obtain ⟨run', place'⟩ := after
  obtain ⟨taken, follows, keepsUp⟩ := step
  dsimp only at taken follows keepsUp here ⊢
  cases action with
  | next sender kind body at_ =>
    cases taken
    cases follows
    exact ⟨receiver, here, (List.append_nil _).symm⟩
  | push line =>
    rw [FeedStep, FeedRun.step, Option.ite_none_right_eq_some] at taken
    obtain ⟨-, same⟩ := taken
    cases same
    cases follows
    exact ⟨receiver, here, (List.append_nil _).symm⟩
  | send line =>
    rw [FeedStep, FeedRun.step, Option.ite_none_right_eq_some] at taken
    obtain ⟨-, same⟩ := taken
    cases same
    cases follows
    refine ⟨receiver.deliver line, ?_, heard_deliver receiver line (keepsUp receiver here)⟩
    change (run.bus.live.map _)[place]? = _
    rw [List.getElem?_map, here]
    rfl
  | subscribe =>
    cases taken
    cases follows
    refine ⟨receiver, ?_, (List.append_nil _).symm⟩
    change (run.bus.live ++ _)[place]? = _
    rw [List.getElem?_append_left (List.getElem?_eq_some_iff.mp here).1, here]
  | recv index =>
    cases taken
    cases follows
    change ∃ later, (run.bus.live.modify index Receiver.recv)[place]? = some later ∧ _
    rw [List.getElem?_modify, here, Option.map_eq_map, Option.map_some]
    by_cases its : index = place
    · refine ⟨receiver.recv, by rw [if_pos its], ?_⟩
      exact (recv_lines receiver).trans (List.append_nil _).symm
    · exact ⟨receiver, by rw [if_neg its], (List.append_nil _).symm⟩
  | unsubscribe index =>
    cases taken
    refine ⟨receiver, ?_, (List.append_nil _).symm⟩
    change (run.bus.live.eraseIdx index)[place']? = _
    rw [FeedAction.follow] at follows
    rw [List.getElem?_eraseIdx]
    split at follows
    · rename_i ahead
      obtain rfl := Option.some.inj follows
      have back : place - 1 + 1 = place := by omega
      rw [if_neg (by omega), back, here]
    · rename_i notAhead
      split at follows
      · cases follows
      · obtain rfl := Option.some.inj follows
        rw [if_pos (by omega), here]

/-- Over a run the subscriber hears all that is sent in it, in the order of the sends. -/
theorem heard_of_run (start finish : FeedRun × Nat) (actions : List FeedAction)
    (run : Run WatchedStep start actions finish) (receiver : Receiver)
    (here : start.1.bus.live[start.2]? = some receiver) :
    ∃ later, finish.1.bus.live[finish.2]? = some later ∧
      later.heard = receiver.heard ++ sends actions := by
  induction run generalizing receiver with
  | stop state => exact ⟨receiver, here, (List.append_nil _).symm⟩
  | @step before middle _ action rest first _ inductionHypothesis =>
    obtain ⟨next, there, heard⟩ := heard_step before action middle first receiver here
    obtain ⟨later, atEnd, all⟩ := inductionHypothesis next there
    refine ⟨later, atEnd, ?_⟩
    rw [all, heard, sends_cons action rest, List.append_assoc]

/-! ### Subscribe, then take a snapshot -/

/-- A watched run is a run of the feed. -/
theorem run_of_watched (start finish : FeedRun × Nat) (actions : List FeedAction)
    (run : Run WatchedStep start actions finish) : Run FeedStep start.1 actions finish.1 := by
  induction run with
  | stop state => exact .stop state.1
  | step first _ inductionHypothesis => exact .step first.1 inductionHypothesis

/-- An observer subscribes, takes a snapshot later and listens on, while posts interleave in any
way. Of every line whose post is complete, the snapshot has it, or the observer was sent it, or it
was pushed before the observer subscribed and evicted before the snapshot. -/
theorem nothing_missed (earlier between later : List FeedAction)
    (atSubscribe subscribed atSnapshot finish : FeedRun) (place last : Nat)
    (before : Run FeedStep .start earlier atSubscribe)
    (subscribes : FeedStep atSubscribe .subscribe subscribed)
    (during : Run WatchedStep (subscribed, atSubscribe.bus.live.length) between
      (atSnapshot, place))
    (after : Run WatchedStep (atSnapshot, place) later (finish, last)) :
    ∃ observer, finish.bus.live[last]? = some observer ∧
      ∀ message ∈ sends (earlier ++ .subscribe :: between ++ later),
        message ∈ atSnapshot.bus.feed ∨ message ∈ observer.received ++ observer.waiting ∨
          (message ∈ pushes earlier ∧ message ∈ atSnapshot.evicted) := by
  have here : subscribed.bus.live[atSubscribe.bus.live.length]? = some ⟨[], []⟩ := by
    cases subscribes
    exact List.getElem?_concat_length
  obtain ⟨observer, atEnd, heard⟩ :=
    heard_of_run _ _ (between ++ later) (during.append after) ⟨[], []⟩ here
  refine ⟨observer, atEnd, fun message sent => ?_⟩
  rw [List.append_assoc, sends_append, List.cons_append, sends_cons, List.mem_append] at sent
  rcases sent with early | sent
  · -- Sent before the observer subscribed, so pushed before that.
    have pushed : message ∈ pushes earlier := by
      rcases pushed_of_sent .start atSubscribe earlier before message early with waits | pushed
      · exact absurd waits List.not_mem_nil
      · exact pushed
    have all : atSnapshot.pushed = pushes earlier ++ pushes (.subscribe :: between) := by
      have whole := before.append (.step subscribes (run_of_watched _ _ between during))
      rw [pushed_of_run .start atSnapshot _ whole, pushes, List.filterMap_append]
      rfl
    have kept : message ∈ atSnapshot.evicted ++ atSnapshot.bus.log := by
      change message ∈ atSnapshot.pushed
      rw [all]
      exact List.mem_append_left _ pushed
    rcases List.mem_append.mp kept with evicted | inLog
    · exact .inr (.inr ⟨pushed, evicted⟩)
    · exact .inl inLog
  · refine .inr (.inl ?_)
    change message ∈ observer.heard
    rw [heard]
    exact sent

/-- One line is complete before the observer subscribes; another has its number then, and is pushed
and sent after the snapshot. -/
theorem nothing_missed_overlap :
    let first : MeshMessage := ⟨0, opsChannel, "a", .info, "x", ""⟩
    let second : MeshMessage := ⟨1, opsChannel, "b", .info, "y", ""⟩
    let finish : FeedRun := ⟨⟨2, [first, second], [⟨[second], []⟩]⟩, [], [], [], 2⟩
    ∃ observer, finish.bus.live[0]? = some observer ∧
      ∀ message ∈ [first, second], message ∈ [first] ∨
        message ∈ observer.received ++ observer.waiting ∨ (message ∈ [first] ∧ message ∈ []) := by
  intro first second finish
  have pushing : WatchedStep (⟨⟨2, [first], [⟨[], []⟩]⟩, [second], [], [], 2⟩, 0) (.push second)
      (⟨⟨2, [first, second], [⟨[], []⟩]⟩, [], [second], [], 2⟩, 0) :=
    ⟨by rw [FeedStep]; decide +kernel, rfl, trivial⟩
  have sending : WatchedStep (⟨⟨2, [first, second], [⟨[], []⟩]⟩, [], [second], [], 2⟩, 0)
      (.send second) (finish, 0) :=
    ⟨by rw [FeedStep]; decide +kernel, rfl, fun receiver member => by cases member; decide +kernel⟩
  exact nothing_missed
    [.next "a" .info "x" "", .push first, .send first, .next "b" .info "y" ""] []
    [.push second, .send second] ⟨⟨2, [first], []⟩, [second], [], [], 2⟩ _ _ finish 0 0
    (run_of_foldlM FeedRun.step _ .start _ (by decide +kernel)) rfl (.stop _)
    (.step pushing (.step sending (.stop _)))

end Hammurabi
