/-
This file is about what the log retains when posts run concurrently.

Whatever the order in which posts take their numbers and push, the log is the tail of
the lines pushed: a push evicts from the front, and only what is over the cap. The
numbers given out are the first ones, each to one line, so once nobody has still to
push, the lines pushed have exactly the first numbers, and when posts do not overlap
they have them in order.
-/

import Hammurabi.FeedOrder

namespace Hammurabi

open Runs

/-! ### What a run pushes and posts -/

/-- The lines pushed, in the order of the pushes. -/
def pushes (actions : List FeedAction) : List MeshMessage :=
  actions.filterMap fun action =>
    match action with
    | .push message => some message
    | _ => none

/-- The lines of the posts begun, in the order in which they begin, numbered from `number` on. -/
def posted : Nat → List FeedAction → List MeshMessage
  | _, [] => []
  | number, .next sender kind body at_ :: rest =>
    { seq := UInt64.ofNat number, channel := opsChannel, sender, kind, body, at_ } ::
      posted (number + 1) rest
  | number, _ :: rest => posted number rest

/-- A step of the feed, in any order. -/
def FeedStep (before : FeedRun) (action : FeedAction) (after : FeedRun) : Prop :=
  before.step action = some after

/-- A post begins when no other one is under way. -/
def Alone (run : FeedRun) : FeedAction → Prop
  | .next _ _ _ _ => run.unsent = []
  | _ => True

/-- A step of posts that do not overlap. -/
def StepAlone (before : FeedRun) (action : FeedAction) (after : FeedRun) : Prop :=
  FeedStep before action after ∧ Alone before action

/-- The numbers of lines posted one after the other follow one another. -/
theorem map_seq_posted (actions : List FeedAction) (number : Nat)
    (few : number + (posted number actions).length ≤ 2 ^ 64) :
    (posted number actions).map (fun line => line.seq.toNat) =
      List.range' number (posted number actions).length := by
  induction actions generalizing number with
  | nil => rfl
  | cons action rest inductionHypothesis =>
    cases action with
    | next sender kind body at_ =>
      rw [posted, List.length_cons] at few
      rw [posted, List.map_cons, List.length_cons, List.range'_succ,
        inductionHypothesis _ (by omega),
        UInt64.toNat_ofNat_of_lt' (show number < 2 ^ 64 by omega)]
    | push message => exact inductionHypothesis number few
    | send message => exact inductionHypothesis number few
    | subscribe => exact inductionHypothesis number few
    | recv index => exact inductionHypothesis number few
    | unsubscribe index => exact inductionHypothesis number few

/-! ### What one step does to the log -/

/-- A step gives out a number, or pushes a line that has one, or leaves the counter, the log and the
lines still to push alone. -/
theorem FeedRun.step_cases (before : FeedRun) (action : FeedAction) (after : FeedRun)
    (step : FeedStep before action after) :
    (∃ sender kind body at_, action = .next sender kind body at_ ∧
      after.bus.log = before.bus.log ∧ after.evicted = before.evicted ∧
      after.bus.seq = before.bus.seq + 1 ∧ after.taken = before.taken + 1 ∧
      after.toPush = before.toPush ++
        [{ seq := before.bus.seq, channel := opsChannel, sender, kind, body, at_ }]) ∨
    (∃ message, action = .push message ∧ message ∈ before.toPush ∧
      after.bus.log = (before.bus.push message).log ∧
      after.evicted = before.evicted ++ before.bus.evictedBy message ∧
      after.bus.seq = before.bus.seq ∧ after.taken = before.taken ∧
      after.toPush = before.toPush.erase message) ∨
    (after.bus.log = before.bus.log ∧ after.evicted = before.evicted ∧
      after.bus.seq = before.bus.seq ∧ after.taken = before.taken ∧
      after.toPush = before.toPush ∧ pushes [action] = [] ∧
      ∀ number, posted number [action] = []) := by
  cases action with
  | next sender kind body at_ =>
    cases step
    exact .inl ⟨sender, kind, body, at_, rfl, rfl, rfl, rfl, rfl, rfl⟩
  | push message =>
    rw [FeedStep, FeedRun.step, Option.ite_none_right_eq_some] at step
    obtain ⟨inside, same⟩ := step
    cases same
    exact .inr (.inl ⟨message, rfl, inside, rfl, rfl, rfl, rfl, rfl⟩)
  | send message =>
    rw [FeedStep, FeedRun.step, Option.ite_none_right_eq_some] at step
    obtain ⟨inside, same⟩ := step
    cases same
    exact .inr (.inr ⟨rfl, rfl, rfl, rfl, rfl, rfl, fun _ => rfl⟩)
  | subscribe =>
    cases step
    exact .inr (.inr ⟨rfl, rfl, rfl, rfl, rfl, rfl, fun _ => rfl⟩)
  | recv index =>
    cases step
    exact .inr (.inr ⟨rfl, rfl, rfl, rfl, rfl, rfl, fun _ => rfl⟩)
  | unsubscribe index =>
    cases step
    exact .inr (.inr ⟨rfl, rfl, rfl, rfl, rfl, rfl, fun _ => rfl⟩)

/-- A push adds its line after the lines pushed before. -/
theorem FeedRun.pushed_push (before : FeedRun) (message : MeshMessage) :
    before.evicted ++ before.bus.evictedBy message ++ (before.bus.push message).log =
      before.pushed ++ [message] := by
  rw [List.append_assoc, MeshBus.evictedBy_append_push, ← List.append_assoc, FeedRun.pushed]

theorem pushes_cons (action : FeedAction) (rest : List FeedAction) :
    pushes (action :: rest) = pushes [action] ++ pushes rest := by
  rw [pushes, ← List.singleton_append, List.filterMap_append]
  rfl

theorem posted_cons (number : Nat) (action : FeedAction) (rest : List FeedAction) :
    posted number (action :: rest) =
      posted number [action] ++ posted (number + (posted number [action]).length) rest := by
  cases action with
  | next => rfl
  | push => rfl
  | send => rfl
  | subscribe => rfl
  | recv => rfl
  | unsubscribe => rfl

/-- The lines pushed at the end of a run are those of before and those of the run. -/
theorem pushed_of_run (start finish : FeedRun) (actions : List FeedAction)
    (run : Run FeedStep start actions finish) :
    finish.pushed = start.pushed ++ pushes actions := by
  induction run with
  | stop state => exact (List.append_nil _).symm
  | @step before middle _ action rest first _ inductionHypothesis =>
    rw [inductionHypothesis, pushes_cons, ← List.append_assoc]
    congr 1
    rcases before.step_cases action middle first with
      ⟨sender, kind, body, at_, rfl, log, evicted, -⟩ |
      ⟨message, rfl, -, log, evicted, -⟩ | ⟨log, evicted, -, -, -, none, -⟩
    · rw [FeedRun.pushed, log, evicted]
      exact (List.append_nil _).symm
    · rw [FeedRun.pushed, log, evicted]
      exact before.pushed_push message
    · rw [FeedRun.pushed, log, evicted, none]
      exact (List.append_nil _).symm

/-- The numbers given out at the end of a run are those of before and one for each post begun. -/
theorem taken_of_run (start finish : FeedRun) (actions : List FeedAction)
    (run : Run FeedStep start actions finish) (number : Nat) :
    finish.taken = start.taken + (posted number actions).length := by
  induction run generalizing number with
  | stop state => rfl
  | @step before middle _ action rest first _ inductionHypothesis =>
    rw [posted_cons, List.length_append, inductionHypothesis, ← Nat.add_assoc]
    congr 1
    rcases before.step_cases action middle first with
      ⟨sender, kind, body, at_, rfl, -, -, -, taken, -⟩ |
      ⟨message, rfl, -, -, -, -, taken, -⟩ | ⟨-, -, -, taken, -, -, none⟩
    · exact taken
    · exact taken
    · rw [taken, none]
      rfl

/-! ### The invariant -/

/-- The counter counts the numbers given out; the lines that have them have each one once; and the
log is over its cap never, and below it only as long as nothing was evicted. -/
structure Counted (run : FeedRun) : Prop where
  counter : run.bus.seq = UInt64.ofNat run.taken
  numbers : run.taken ≤ 2 ^ 64 →
    ((run.pushed ++ run.toPush).map fun line => line.seq.toNat).Perm (List.range run.taken)
  capped : run.bus.log.length ≤ maxLogLen
  full : run.evicted ≠ [] → run.bus.log.length = maxLogLen

theorem counted_start : Counted .start where
  counter := rfl
  numbers _ := List.Perm.refl _
  capped := Nat.zero_le _
  full evicted := absurd rfl evicted

theorem MeshBus.length_push_of_full (bus : MeshBus) (message : MeshMessage)
    (full : bus.log.length = maxLogLen) : (bus.push message).log.length = maxLogLen := by
  simp only [MeshBus.push, MeshBus.excess, List.length_drop, List.length_append,
    List.length_singleton]
  omega

/-- A push that evicts leaves the log full. -/
theorem MeshBus.length_push_of_evicted (bus : MeshBus) (message : MeshMessage)
    (evicts : bus.evictedBy message ≠ []) : (bus.push message).log.length = maxLogLen := by
  have some := List.length_pos_of_ne_nil evicts
  simp only [MeshBus.evictedBy, MeshBus.push, MeshBus.excess, List.length_take, List.length_drop,
    List.length_append, List.length_singleton] at some ⊢
  omega

theorem counted_step (before : FeedRun) (action : FeedAction) (after : FeedRun)
    (step : FeedStep before action after) (counted : Counted before) : Counted after := by
  rcases before.step_cases action after step with
    ⟨sender, kind, body, at_, -, log, evicted, counter, taken, toPush⟩ |
    ⟨message, -, inside, log, evicted, counter, taken, toPush⟩ |
    ⟨log, evicted, counter, taken, toPush, -⟩
  · refine ⟨?_, fun room => ?_, log ▸ counted.capped, ?_⟩
    · rw [counter, taken, counted.counter, UInt64.ofNat_add]
      rfl
    · -- The new line has the number the counter stood at.
      have number : before.bus.seq.toNat = before.taken := by
        rw [counted.counter, UInt64.toNat_ofNat_of_lt' (show before.taken < 2 ^ 64 by omega)]
      rw [FeedRun.pushed, log, evicted, toPush, taken, ← FeedRun.pushed, ← List.append_assoc,
        List.map_append, List.range_succ]
      refine (counted.numbers (by omega)).append ?_
      rw [List.map_singleton, number]
    · rw [log, evicted]
      exact counted.full
  · refine ⟨?_, fun room => ?_, ?_, fun some => ?_⟩
    · rw [counter, taken]
      exact counted.counter
    · rw [FeedRun.pushed, log, evicted, toPush, taken, before.pushed_push, List.append_assoc,
        List.singleton_append]
      refine List.Perm.trans (List.Perm.map _ ?_) (counted.numbers (taken ▸ room))
      exact (List.perm_cons_erase inside).symm.append_left _
    · rw [log]
      exact before.bus.length_push message
    · rw [log]
      by_cases earlier : before.evicted = []
      · rw [evicted, earlier, List.nil_append] at some
        exact before.bus.length_push_of_evicted message some
      · exact before.bus.length_push_of_full message (counted.full earlier)
  · refine ⟨?_, fun room => ?_, log ▸ counted.capped, ?_⟩
    · rw [counter, taken]
      exact counted.counter
    · rw [FeedRun.pushed, log, evicted, toPush, taken]
      exact counted.numbers (taken ▸ room)
    · rw [log, evicted]
      exact counted.full

theorem counted_of_run (run : FeedRun) (actions : List FeedAction)
    (reached : Run FeedStep .start actions run) : Counted run :=
  reached.kept counted_step counted_start

/-- The log has the last of the lines pushed, as many as fit under its cap. -/
theorem Counted.length_log {run : FeedRun} (counted : Counted run) :
    run.bus.log.length = min run.pushed.length maxLogLen := by
  have capped := counted.capped
  rw [FeedRun.pushed, List.length_append]
  by_cases evicted : run.evicted = []
  · rw [evicted, List.length_nil]
    omega
  · have full := counted.full evicted
    omega

/-! ### Posts that do not overlap -/

/-- When posts do not overlap, the lines pushed, and the one that is about to be, are the lines of
the posts in their order. -/
theorem pushed_of_alone (start finish : FeedRun) (actions : List FeedAction)
    (run : Run StepAlone start actions finish) (few : start.toPush.length ≤ 1)
    (counter : start.bus.seq = UInt64.ofNat start.taken) :
    finish.pushed ++ finish.toPush =
      start.pushed ++ start.toPush ++ posted start.taken actions := by
  induction run with
  | stop state => exact (List.append_nil _).symm
  | @step before middle _ action rest first _ inductionHypothesis =>
    obtain ⟨step, alone⟩ := first
    rw [posted_cons]
    rcases before.step_cases action middle step with
      ⟨sender, kind, body, at_, rfl, log, evicted, seq, taken, toPush⟩ |
      ⟨message, rfl, inside, log, evicted, seq, taken, toPush⟩ |
      ⟨log, evicted, seq, taken, toPush, -, none⟩
    · have nobody : before.toPush = [] := (List.append_eq_nil_iff.mp alone).1
      rw [inductionHypothesis (by rw [toPush, nobody]; exact Nat.le_refl 1)
        (by rw [seq, taken, counter, UInt64.ofNat_add]; rfl), FeedRun.pushed, log, evicted,
        ← FeedRun.pushed, toPush, taken, counter]
      simp only [List.append_assoc]
      rfl
    · -- The line that is pushed is the only one that waits.
      obtain ⟨line, single⟩ :=
        List.length_eq_one_iff.mp (Nat.le_antisymm few (List.length_pos_of_mem inside))
      rw [single, List.mem_singleton] at inside
      obtain rfl := inside
      have emptied : middle.toPush = [] := by
        rw [toPush, single, List.erase_cons_head]
      rw [inductionHypothesis (by rw [emptied]; exact Nat.zero_le 1) (by rw [seq, taken, counter]),
        FeedRun.pushed, log, evicted, before.pushed_push, emptied, taken, single,
        List.append_nil]
      rfl
    · rw [inductionHypothesis (by rw [toPush]; exact few) (by rw [seq, taken, counter]),
        FeedRun.pushed, log, evicted, ← FeedRun.pushed, toPush, taken, none]
      rfl

/-! ### What the log retains -/

/-- What a run of posts leaves in the log. -/
structure Retained (actions : List FeedAction) (run : FeedRun) : Prop where
  /-- The log is the last of the lines pushed, in the order of the pushes, up to its cap. -/
  tail : run.bus.log <:+ pushes actions
  length : run.bus.log.length = min (pushes actions).length maxLogLen
  /-- Their numbers are distinct, and below the counter. -/
  distinct : (run.bus.log.map MeshMessage.seq).Nodup
  below : ∀ line ∈ run.bus.log, line.seq < run.bus.seq
  /-- Once nobody has still to push, the lines pushed have the first numbers. -/
  first : run.toPush = [] →
    ((pushes actions).map fun line => line.seq.toNat).Perm (List.range (pushes actions).length)
  /-- When posts do not overlap, the snapshot after the last one has the lines of the last posts,
  as they were posted, under the last numbers in increasing order. -/
  alone : Run StepAlone .start actions run → run.unsent = [] →
    run.bus.feed = (posted 0 actions).drop ((posted 0 actions).length - maxLogLen) ∧
    run.bus.feed.map (fun line => line.seq.toNat) =
      List.range' ((posted 0 actions).length - min (posted 0 actions).length maxLogLen)
        (min (posted 0 actions).length maxLogLen)

/-- The end of a list is what is left of it after dropping the rest. -/
theorem eq_drop_of_append {Element : Type} (front back whole : List Element) (count : Nat)
    (same : front ++ back = whole) (length : back.length = min whole.length count) :
    back = whole.drop (whole.length - count) := by
  have front' : whole.length - count = front.length := by
    rw [← same, List.length_append] at length ⊢
    omega
  rw [front', ← same, List.drop_left]

/-- In every run of fewer than 2^64 posts, the log retains the last lines pushed. -/
theorem retained_of_run (actions : List FeedAction) (run : FeedRun)
    (reached : Run FeedStep .start actions run)
    (few : (posted 0 actions).length < 2 ^ 64) : Retained actions run := by
  have counted := counted_of_run run actions reached
  have lines : run.pushed = pushes actions := pushed_of_run .start run actions reached
  have taken : run.taken = (posted 0 actions).length := by
    rw [taken_of_run .start run actions reached 0]
    exact Nat.zero_add _
  have numbers := counted.numbers (by omega)
  have numbered : ((run.pushed ++ run.toPush).map fun line => line.seq.toNat).Nodup :=
    numbers.nodup_iff.mpr List.nodup_range
  have kept : (run.bus.log.map fun line => line.seq.toNat).Sublist
      ((run.pushed ++ run.toPush).map fun line => line.seq.toNat) :=
    List.Sublist.map _ ((List.sublist_append_right _ _).trans (List.sublist_append_left _ _))
  refine ⟨⟨run.evicted, lines⟩, lines ▸ counted.length_log, ?_, fun line member => ?_,
    fun idle => ?_, fun alone idle => ?_⟩
  · have distinct : ((run.bus.log.map MeshMessage.seq).map UInt64.toNat).Nodup := by
      rw [List.map_map]
      exact numbered.sublist kept
    exact List.Pairwise.of_map UInt64.toNat
      (fun first second different same => different (congrArg _ same)) distinct
  · have low := List.mem_range.mp
      (numbers.mem_iff.mp (kept.subset (List.mem_map_of_mem member)))
    rw [UInt64.lt_iff_toNat_lt, counted.counter,
      UInt64.toNat_ofNat_of_lt' (show run.taken < 2 ^ 64 by omega)]
    exact low
  · rw [idle, List.append_nil, lines] at numbers
    have length := numbers.length_eq
    rw [List.length_map, List.length_range] at length
    rw [length]
    exact numbers
  · have nobody : run.toPush = [] := (List.append_eq_nil_iff.mp idle).1
    have inOrder : run.pushed = posted 0 actions := by
      have all := pushed_of_alone .start run actions alone (Nat.zero_le 1) rfl
      rwa [nobody, List.append_nil] at all
    have feed := eq_drop_of_append run.evicted run.bus.log (posted 0 actions) maxLogLen inOrder
      (inOrder ▸ counted.length_log)
    refine ⟨feed, ?_⟩
    change run.bus.log.map _ = _
    rw [feed, List.map_drop, map_seq_posted actions 0 (by omega), List.drop_range']
    congr 1
    · omega
    · omega

/-- Any number of posts can begin before they push, and all those that have begun then push. -/
theorem exists_posts (count : Nat) (run : FeedRun) : ∃ actions after,
    Run FeedStep run actions after ∧ actions.length ≤ run.toPush.length + 2 * count ∧
      (pushes actions).length = run.toPush.length + count := by
  induction count generalizing run with
  | zero =>
    induction lines : run.toPush generalizing run with
    | nil => exact ⟨[], run, .stop run, Nat.le_refl _, rfl⟩
    | cons line rest inductionHypothesis =>
      obtain ⟨actions, after, taken, few, pushed⟩ := inductionHypothesis
        { run with
          bus := run.bus.push line
          evicted := run.evicted ++ run.bus.evictedBy line
          toPush := rest
          toSend := run.toSend ++ [line] } rfl
      refine ⟨.push line :: actions, after, .step ?_ taken, ?_, ?_⟩
      · simp [FeedStep, FeedRun.step, lines]
      · simp only [List.length_cons]
        omega
      · rw [pushes_cons, List.length_append, pushed, List.length_cons]
        exact Nat.add_comm 1 _
  | succ count inductionHypothesis =>
    have begins : FeedStep run (.next "a" .info "x" "") _ := rfl
    obtain ⟨actions, after, taken, few, pushed⟩ := inductionHypothesis _
    refine ⟨_ :: actions, after, .step begins taken, ?_, ?_⟩
    · simp only [List.length_append, List.length_cons, List.length_nil] at few ⊢
      omega
    · have none : pushes [.next "a" .info "x" ""] = [] := rfl
      rw [pushes_cons, List.length_append, pushed, none]
      simp only [List.length_append, List.length_cons, List.length_nil]
      omega

theorem length_posted_le (actions : List FeedAction) (number : Nat) :
    (posted number actions).length ≤ actions.length := by
  induction actions generalizing number with
  | nil => exact Nat.le_refl 0
  | cons action rest inductionHypothesis =>
    cases action with
    | next => exact Nat.succ_le_succ (inductionHypothesis _)
    | _ => exact Nat.le_succ_of_le (inductionHypothesis number)

/-- Two posts that overlap and push against the order of their numbers, and then as many at once
that the first line pushed, which has the second number, is evicted. -/
theorem retained_of_run_evicting :
    let first : MeshMessage := ⟨0, opsChannel, "a", .info, "x", ""⟩
    let second : MeshMessage := ⟨1, opsChannel, "b", .info, "y", ""⟩
    ∃ actions run, Retained ([.next "a" .info "x" "", .next "b" .info "y" "", .push second,
        .push first] ++ actions) run ∧
      run.bus.log.length = 2000 ∧ run.bus.log = first :: pushes actions := by
  intro first second
  let opening : List FeedAction :=
    [.next "a" .info "x" "", .next "b" .info "y" "", .push second, .push first]
  let begun : FeedRun := ⟨⟨2, [second, first], []⟩, [], [second, first], [], 2⟩
  have opens : Run FeedStep .start opening begun :=
    run_of_foldlM FeedRun.step _ .start _ (by decide +kernel)
  obtain ⟨actions, run, rest, few, pushed⟩ := exists_posts 1999 begun
  have whole : pushes (opening ++ actions) = second :: first :: pushes actions := rfl
  have length : (pushes (opening ++ actions)).length = 2001 := by
    rw [whole, List.length_cons, List.length_cons, pushed]
    rfl
  have retained := retained_of_run (opening ++ actions) run (opens.append rest) (by
    have short := length_posted_le (opening ++ actions) 0
    rw [List.length_append] at short
    have none : begun.toPush.length = 0 := rfl
    have four : opening.length = 4 := rfl
    omega)
  have kept : run.bus.log.length = 2000 := by
    rw [retained.length, length]
    simp [maxLogLen]
  obtain ⟨evicted, split⟩ := retained.tail
  have single : evicted.length = 1 := by
    have total := congrArg List.length split
    rw [List.length_append, length, kept] at total
    omega
  obtain ⟨line, rfl⟩ := List.length_eq_one_iff.mp single
  rw [whole] at split
  exact ⟨actions, run, retained, kept, (List.cons.inj split).2⟩

end Hammurabi
