/-
This file says what the window can lack of the feed.

Lines reach the page by several ways and late: as events, from snapshots, and both at
once. A number shown is not shown again, so no line is shown twice, and as long as numbers
are doubles exactly none hides another. When no snapshot is on its way, the page lacks no
line that was in the log when the last one was taken; and of the others it lacks, each is
still on its way, or is among those that the forwarder reported as skipped.
-/

import Mathlib.Data.List.Nodup
import Hammurabi.Shell

namespace Hammurabi

open Broadcast Runs

/-! ### What the page keeps -/

/-- The numbers seen are those of the lines shown, each seen once. -/
def Page.Rendered (page : Page) : Prop :=
  page.seen = page.shown.map MeshMessage.key ∧ page.seen.Nodup

/-- A line is on its way to the page, or shown. -/
def Page.Carries (page : Page) (line : MeshMessage) : Prop :=
  line ∈ page.shown ∨ line ∈ page.events ∨ ∃ lines ∈ page.answers, line ∈ lines

/-- A line with this number is shown, or the line is an event on its way. -/
def Page.Hears (page : Page) (line : MeshMessage) : Prop :=
  line.key ∈ page.seen ∨ line ∈ page.events

/-- A line with this number is shown, or the line is in a snapshot on its way. -/
def Page.Fetches (page : Page) (line : MeshMessage) : Prop :=
  line.key ∈ page.seen ∨ ∃ lines ∈ page.answers, line ∈ lines

/-- Rendering one line. -/
theorem renderLine_spec (page : Page) (line : MeshMessage) :
    (page.renderLine line).listening = page.listening ∧
      (page.renderLine line).events = page.events ∧
      (page.renderLine line).answers = page.answers ∧
      line.key ∈ (page.renderLine line).seen ∧ page.seen ⊆ (page.renderLine line).seen ∧
      (∀ other ∈ (page.renderLine line).shown, other ∈ page.shown ∨ other = line) ∧
      (page.Rendered → (page.renderLine line).Rendered) := by
  unfold Page.renderLine
  split
  · rename_i seen
    exact ⟨rfl, rfl, rfl, seen, fun _ member => member, fun _ member => .inl member, id⟩
  · rename_i unseen
    refine ⟨rfl, rfl, rfl, List.mem_append_right _ List.mem_cons_self,
      List.subset_append_left _ _, fun other member => ?_, fun rendered => ?_⟩
    · exact (List.mem_append.mp member).imp_right List.mem_singleton.mp
    · refine ⟨?_, ?_⟩
      · rw [List.map_append, ← rendered.1]
        rfl
      · refine List.nodup_append.mpr ⟨rendered.2, List.pairwise_singleton _ _, ?_⟩
        rintro key inside other last rfl
        exact unseen (List.mem_singleton.mp last ▸ inside)

/-- Rendering the lines of a snapshot. -/
theorem renderLines_spec (lines : List MeshMessage) (page : Page) :
    (lines.foldl Page.renderLine page).listening = page.listening ∧
      (lines.foldl Page.renderLine page).events = page.events ∧
      (lines.foldl Page.renderLine page).answers = page.answers ∧
      (∀ line ∈ lines, line.key ∈ (lines.foldl Page.renderLine page).seen) ∧
      page.seen ⊆ (lines.foldl Page.renderLine page).seen ∧
      (∀ other ∈ (lines.foldl Page.renderLine page).shown, other ∈ page.shown ∨ other ∈ lines) ∧
      (page.Rendered → (lines.foldl Page.renderLine page).Rendered) := by
  induction lines generalizing page with
  | nil =>
    exact ⟨rfl, rfl, rfl, fun _ none => absurd none List.not_mem_nil, fun _ member => member,
      fun _ member => .inl member, id⟩
  | cons line lines inductionHypothesis =>
    obtain ⟨listening, events, answers, key, seen, shown, kept⟩ := renderLine_spec page line
    obtain ⟨listening', events', answers', keys, seen', shown', kept'⟩ :=
      inductionHypothesis (page.renderLine line)
    rw [List.foldl_cons]
    refine ⟨listening'.trans listening, events'.trans events, answers'.trans answers,
      fun other member => ?_, fun _ member => seen' (seen member), fun other member => ?_,
      fun rendered => kept' (kept rendered)⟩
    · rcases List.mem_cons.mp member with rfl | inside
      · exact seen' key
      · exact keys other inside
    · rcases shown' other member with earlier | inside
      · refine (shown other earlier).imp_right fun same => ?_
        rw [same]
        exact List.mem_cons_self
      · exact .inr (List.mem_cons_of_mem _ inside)

/-- A step of the page's own loses nothing that was on its way, and adds only lines of the feed. -/
theorem pageStep_spec (feed : List MeshMessage) (before after : Page)
    (step : PageStep feed before after) :
    (before.listening = true → after.listening = true) ∧ (before.Rendered → after.Rendered) ∧
      (∀ line, after.Carries line → before.Carries line ∨ line ∈ feed) ∧
      (∀ line, before.Hears line → after.Hears line) ∧
      ∀ line, before.Fetches line → after.Fetches line := by
  rcases step with rfl | heard | rfl | ⟨index, answered⟩
  · exact ⟨fun _ => rfl, id, fun _ => .inl, fun _ => id, fun _ => id⟩
  · rw [Page.hear] at heard
    split at heard
    · cases heard
    · rename_i message rest queued
      obtain rfl := Option.some.inj heard
      obtain ⟨listening, events, answers, key, seen, shown, kept⟩ :=
        renderLine_spec { before with events := rest } message
      refine ⟨fun listens => listening.trans listens, kept, fun line carried => ?_,
        fun line hears => ?_, fun line fetches => ?_⟩
      · rw [Page.Carries, events, answers] at carried
        rw [Page.Carries, queued, List.mem_cons]
        rcases carried with inShown | inEvents | inAnswers
        · rcases shown line inShown with earlier | same
          · exact .inl (.inl earlier)
          · exact .inl (.inr (.inl (.inl same)))
        · exact .inl (.inr (.inl (.inr inEvents)))
        · exact .inl (.inr (.inr inAnswers))
      · rw [Page.Hears, queued, List.mem_cons] at hears
        rw [Page.Hears, events]
        rcases hears with inSeen | rfl | later
        · exact .inl (seen inSeen)
        · exact .inl key
        · exact .inr later
      · rw [Page.Fetches, answers]
        exact fetches.imp_left (@seen _)
  · refine ⟨id, id, fun line carried => ?_, fun _ => id, fun line fetches => ?_⟩
    · rcases carried with inShown | inEvents | ⟨lines, inAnswers, member⟩
      · exact .inl (.inl inShown)
      · exact .inl (.inr (.inl inEvents))
      · rcases List.mem_append.mp inAnswers with earlier | last
        · exact .inl (.inr (.inr ⟨lines, earlier, member⟩))
        · exact .inr (List.mem_singleton.mp last ▸ member)
    · refine fetches.imp_right ?_
      rintro ⟨lines, inAnswers, member⟩
      exact ⟨lines, List.mem_append_left _ inAnswers, member⟩
  · obtain ⟨lines, here, rfl⟩ := Option.map_eq_some_iff.mp answered
    obtain ⟨listening, events, answers, keys, seen, shown, kept⟩ :=
      renderLines_spec lines { before with answers := before.answers.eraseIdx index }
    have inside : lines ∈ before.answers := List.mem_of_getElem? here
    refine ⟨fun listens => listening.trans listens, kept, fun line carried => ?_,
      fun line hears => ?_, fun line fetches => ?_⟩
    · rw [Page.Carries, events, answers] at carried
      rcases carried with inShown | inEvents | ⟨others, inAnswers, member⟩
      · rcases shown line inShown with earlier | fetched
        · exact .inl (.inl earlier)
        · exact .inl (.inr (.inr ⟨lines, inside, fetched⟩))
      · exact .inl (.inr (.inl inEvents))
      · exact .inl (.inr (.inr ⟨others, List.mem_of_mem_eraseIdx inAnswers, member⟩))
    · rw [Page.Hears, events]
      exact hears.imp_left (@seen _)
    · rw [Page.Fetches, answers]
      rcases fetches with inSeen | ⟨others, inAnswers, member⟩
      · exact .inl (seen inSeen)
      · obtain ⟨place, held⟩ := List.getElem?_of_mem inAnswers
        by_cases its : place = index
        · subst its
          obtain rfl := Option.some.inj (held.symm.trans here)
          exact .inl (keys line member)
        · refine .inr ⟨others, List.mem_eraseIdx_iff_getElem?.mpr ⟨place, its, held⟩, member⟩

/-- An emitted line is heard by a page that listens, and nothing else changes. -/
theorem emit_spec (page : Page) (read : Read MeshMessage) :
    (page.emit read).listening = page.listening ∧ (page.Rendered → (page.emit read).Rendered) ∧
      (∀ line, (page.emit read).Carries line → page.Carries line ∨ line ∈ got [read]) ∧
      (∀ line, page.Hears line → (page.emit read).Hears line) ∧
      (∀ line, page.Fetches line → (page.emit read).Fetches line) ∧
      (page.listening = true → ∀ line ∈ got [read], (page.emit read).Hears line) := by
  cases read with
  | lagged skipped =>
    exact ⟨rfl, id, fun _ => .inl, fun _ => id, fun _ => id,
      fun _ _ none => absurd none List.not_mem_nil⟩
  | message message =>
    rw [Page.emit]
    split
    · refine ⟨rfl, id, fun line carried => ?_, fun line hears => ?_, fun _ => id,
        fun _ line single => ?_⟩
      · rcases carried with inShown | inEvents | inAnswers
        · exact .inl (.inl inShown)
        · rcases List.mem_append.mp inEvents with earlier | last
          · exact .inl (.inr (.inl earlier))
          · exact .inr last
        · exact .inl (.inr (.inr inAnswers))
      · exact hears.imp_right (List.mem_append_left _)
      · exact .inr (List.mem_append_right _ single)
    · rename_i deaf
      exact ⟨rfl, id, fun _ => .inl, fun _ => id, fun _ => id, fun listens => absurd listens deaf⟩

/-! ### Only lines of the feed, each once -/

/-- What was sent, and what is on its way to the page or shown, was pushed. -/
structure PageSound (shell : Shell) : Prop where
  waiting : ∀ line ∈ shell.feed.toSend, line ∈ shell.feed.pushed
  sent : ∀ line ∈ shell.sent, line ∈ shell.feed.pushed
  carried : ∀ line, shell.page.Carries line → line ∈ shell.feed.pushed
  rendered : shell.page.Rendered

theorem pageSound_start : PageSound .start where
  waiting _ none := absurd none List.not_mem_nil
  sent _ none := absurd none List.not_mem_nil
  carried line carried := by
    rcases carried with none | none | ⟨lines, none, -⟩
    · exact absurd none List.not_mem_nil
    · exact absurd none List.not_mem_nil
    · exact absurd none List.not_mem_nil
  rendered := ⟨rfl, .nil⟩

theorem pageSound_step (before : Shell) (action : ShellAction) (after : Shell)
    (step : ShellStep before action after) (sound : PageSound before) : PageSound after := by
  rcases shell_cases before after action step with
    ⟨feedAction, -, taken, sent, -, -, page⟩ | ⟨read, -, received, feed, sent, -, page⟩ |
    ⟨-, feed, sent, -, -, page⟩
  · have more := pushed_of_run before.feed after.feed [feedAction] (.step taken (.stop _))
    have stepped := before.feed.sent_step feedAction after.feed taken
    refine ⟨fun line waits => ?_, fun line member => ?_, fun line carries => ?_,
      page ▸ sound.rendered⟩
    · rw [more, List.mem_append]
      exact ((stepped line).2 waits).imp_left (sound.waiting line)
    · rw [sent, List.mem_append] at member
      rw [more, List.mem_append]
      refine .inl (member.elim (sound.sent line) fun now => ?_)
      exact sound.waiting line ((stepped line).1 now)
    · rw [page] at carries
      rw [more, List.mem_append]
      exact .inl (sound.carried line carries)
  · obtain ⟨-, rendered, carries, -⟩ := emit_spec before.page read
    refine ⟨feed ▸ sound.waiting, by rw [feed, sent]; exact sound.sent, fun line carried => ?_,
      page ▸ rendered sound.rendered⟩
    rw [feed]
    rcases carries line (page ▸ carried) with earlier | now
    · exact sound.carried line earlier
    · have taken := held_recv liveCapacity before.sent before.position after.position read received
      have inHeld : line ∈ held liveCapacity before.sent before.position := by
        rw [taken]
        exact List.mem_append_left _ now
      exact sound.sent line (List.mem_of_mem_drop inHeld)
  · obtain ⟨-, rendered, carries, -⟩ := pageStep_spec before.feed.bus.feed _ _ page
    refine ⟨feed ▸ sound.waiting, by rw [feed, sent]; exact sound.sent, fun line carried => ?_,
      rendered sound.rendered⟩
    rw [feed]
    rcases carries line carried with earlier | inFeed
    · exact sound.carried line earlier
    · exact List.mem_append_right _ inFeed

theorem pageSound_of_run (actions : List ShellAction) (shell : Shell)
    (reached : Run ShellStep .start actions shell) : PageSound shell :=
  reached.kept pageSound_step pageSound_start

/-- As long as numbers are doubles exactly, a pushed line is told by what the page reads of its
number. -/
theorem eq_of_key (actions : List FeedAction) (run : FeedRun)
    (reached : Run FeedStep .start actions run) (few : run.taken ≤ 2 ^ 53)
    (line other : MeshMessage) (pushed : line ∈ run.pushed) (alsoPushed : other ∈ run.pushed)
    (same : line.key = other.key) : line = other := by
  have numbers := (counted_of_run run actions reached).numbers (by omega)
  have small : ∀ line ∈ run.pushed, line.key = line.seq.toNat := by
    intro line member
    have inside := numbers.mem_iff.mp (List.mem_map_of_mem (List.mem_append_left _ member))
    exact Binary64.nearest_of_le _ (Nat.le_trans (Nat.le_of_lt (List.mem_range.mp inside)) few)
  rw [small line pushed, small other alsoPushed] at same
  exact List.inj_on_of_nodup_map (numbers.nodup_iff.mpr List.nodup_range)
    (List.mem_append_left _ pushed) (List.mem_append_left _ alsoPushed) same

/-! ### What the page can lack -/

/-- What a page has heard or fetched it keeps. -/
theorem kept_step (heard fetched : List MeshMessage) (before : Shell) (action : ShellAction)
    (after : Shell) (step : ShellStep before action after)
    (has : (∀ line ∈ heard, before.page.Hears line) ∧
      ∀ line ∈ fetched, before.page.Fetches line) :
    (∀ line ∈ heard, after.page.Hears line) ∧ ∀ line ∈ fetched, after.page.Fetches line := by
  rcases shell_cases before after action step with
    ⟨-, -, -, -, -, -, page⟩ | ⟨read, -, -, -, -, -, page⟩ | ⟨-, -, -, -, -, page⟩
  · rw [page]
    exact has
  · obtain ⟨-, -, -, hears, fetches, -⟩ := emit_spec before.page read
    rw [page]
    exact ⟨fun line member => hears line (has.1 line member),
      fun line member => fetches line (has.2 line member)⟩
  · obtain ⟨-, -, -, hears, fetches⟩ := pageStep_spec before.feed.bus.feed _ _ page
    exact ⟨fun line member => hears line (has.1 line member),
      fun line member => fetches line (has.2 line member)⟩

/-- A page that listens hears every line that the forwarder gets from then on. -/
def HearsSince (earlier : List MeshMessage) (shell : Shell) : Prop :=
  shell.page.listening = true ∧
    ∀ line ∈ got shell.reads, line ∈ earlier ∨ shell.page.Hears line

theorem hearsSince_step (earlier : List MeshMessage) (before : Shell) (action : ShellAction)
    (after : Shell) (step : ShellStep before action after)
    (hears : HearsSince earlier before) : HearsSince earlier after := by
  rcases shell_cases before after action step with
    ⟨-, -, -, -, -, reads, page⟩ | ⟨read, -, -, -, -, reads, page⟩ | ⟨-, -, -, -, reads, page⟩
  · rw [HearsSince, reads, page]
    exact hears
  · obtain ⟨listening, -, -, kept, -, now⟩ := emit_spec before.page read
    rw [HearsSince, reads, page, got_append]
    refine ⟨listening.trans hears.1, fun line member => ?_⟩
    rcases List.mem_append.mp member with before | last
    · exact (hears.2 line before).imp_right (kept line)
    · exact .inr (now hears.1 line last)
  · obtain ⟨listening, -, -, kept, -⟩ := pageStep_spec before.feed.bus.feed _ _ page
    rw [HearsSince, reads]
    exact ⟨listening hears.1, fun line member => (hears.2 line member).imp_right (kept line)⟩

/-- What the page has by its number, it shows. -/
theorem shown_of_seen (actions : List ShellAction) (shell : Shell)
    (reached : Run ShellStep .start actions shell) (few : shell.feed.taken ≤ 2 ^ 53)
    (line : MeshMessage) (pushed : line ∈ shell.feed.pushed) (seen : line.key ∈ shell.page.seen) :
    line ∈ shell.page.shown := by
  have sound := pageSound_of_run actions shell reached
  rw [sound.rendered.1] at seen
  obtain ⟨other, inShown, same⟩ := List.mem_map.mp seen
  have alsoPushed := sound.carried other (.inl inShown)
  rwa [eq_of_key _ _ (feed_of_run _ _ _ reached).1 few line other pushed alsoPushed same.symm]

/-- Once no snapshot is on its way, the page shows all that was in the log when one was taken. -/
theorem snapshot_shown (front later : List ShellAction) (atAsk asked finish : Shell)
    (toAsk : Run ShellStep .start front atAsk) (asks : ShellStep atAsk .ask asked)
    (after : Run ShellStep asked later finish) (few : finish.feed.taken ≤ 2 ^ 53)
    (arrived : finish.page.answers = []) :
    ∀ line ∈ atAsk.feed.bus.feed, line ∈ finish.page.shown := by
  intro line inFeed
  have fetched : ∀ line ∈ atAsk.feed.bus.feed, asked.page.Fetches line := by
    cases asks
    exact fun line member => .inr ⟨_, List.mem_append_right _ List.mem_cons_self, member⟩
  have kept := after.kept (kept_step [] atAsk.feed.bus.feed)
    ⟨fun _ none => absurd none List.not_mem_nil, fetched⟩
  have pushed : line ∈ finish.feed.pushed := by
    have whole := (feed_of_run _ _ _ after).1
    cases asks
    rw [pushed_of_run _ _ _ whole]
    exact List.mem_append_left _ (List.mem_append_right _ inFeed)
  refine shown_of_seen _ finish (toAsk.append (.step asks after)) few line pushed ?_
  rcases kept.2 line inFeed with seen | ⟨lines, none, -⟩
  · exact seen
  · rw [arrived] at none
    exact absurd none List.not_mem_nil

/-- A line whose post is complete is shown, or an event on its way, or ahead of the forwarder, or
one of those reported as skipped, or it was pushed before the page listened. -/
theorem sent_covered (earlier rest : List ShellAction) (atListen listened finish : Shell)
    (before : Run ShellStep .start earlier atListen)
    (listens : ShellStep atListen .listen listened) (after : Run ShellStep listened rest finish)
    (few : finish.feed.taken ≤ 2 ^ 53) :
    ∃ skipped : List MeshMessage, skipped.length = lost finish.reads ∧
      ∀ line ∈ finish.sent, line ∈ finish.page.shown ∨ line ∈ finish.page.events ∨
        line ∈ finish.sent.drop finish.position ∨ line ∈ skipped ∨
        line ∈ pushes (feedActions earlier) := by
  have toListened : Run ShellStep .start (earlier ++ [.listen]) listened :=
    before.append (.step listens (.stop _))
  have reached := toListened.append after
  obtain ⟨skipped, accounts⟩ := accounted_of_run _ finish reached
  have hears : HearsSince (got listened.reads) finish := by
    refine after.kept (hearsSince_step _) ?_
    cases listens
    exact ⟨rfl, fun _ => .inl⟩
  refine ⟨skipped, accounts.lost_eq.symm, fun line sent => ?_⟩
  have pushed := (pageSound_of_run _ finish reached).sent line sent
  rw [← List.take_append_drop finish.position finish.sent, List.mem_append] at sent
  rcases sent with passed | ahead
  · rcases accounts.got_or_skipped line passed with inGot | inSkipped
    · rcases hears.2 line inGot with early | seen | event
      · -- got before the page listened, so pushed before that
        obtain ⟨gaps, accountsThen⟩ := accounted_of_run _ listened toListened
        have inSent := List.mem_of_mem_take (accountsThen.sublist.subset early)
        cases listens
        have early := (pageSound_of_run _ atListen before).sent line inSent
        rw [pushed_of_run _ _ _ (feed_of_run _ _ _ before).1] at early
        exact .inr (.inr (.inr (.inr early)))
      · exact .inl (shown_of_seen _ finish reached few line pushed seen)
      · exact .inr (.inl event)
    · exact .inr (.inr (.inr (.inl inSkipped)))
  · exact .inr (.inr (.inl ahead))

/-- What was pushed before a snapshot was in the log then, or evicted. -/
theorem snapshot_or_evicted (earlier between : List ShellAction) (atAsk : Shell)
    (toAsk : Run ShellStep .start (earlier ++ between) atAsk) (line : MeshMessage)
    (pushed : line ∈ pushes (feedActions earlier)) :
    line ∈ atAsk.feed.evicted ∨ line ∈ atAsk.feed.bus.feed := by
  refine List.mem_append.mp (show line ∈ atAsk.feed.pushed from ?_)
  rw [pushed_of_run _ _ _ (feed_of_run _ _ _ toAsk).1, feedActions_append, pushes,
    List.filterMap_append]
  exact List.mem_append_right _ (List.mem_append_left _ pushed)

/-- What a page that listens first and asks second can lack. Once no snapshot is on its way, it
shows every line that was in the log when the last one was taken. And every line whose post is
complete it shows, or the line is an event on its way, or ahead of the forwarder, or one of those
reported as skipped, or it was pushed before the page listened and evicted before the snapshot. -/
theorem window_lacks (earlier between later : List ShellAction)
    (atListen listened atAsk asked finish : Shell) (before : Run ShellStep .start earlier atListen)
    (listens : ShellStep atListen .listen listened)
    (during : Run ShellStep listened between atAsk) (asks : ShellStep atAsk .ask asked)
    (after : Run ShellStep asked later finish) (few : finish.feed.taken ≤ 2 ^ 53)
    (arrived : finish.page.answers = []) :
    (∀ line ∈ atAsk.feed.bus.feed, line ∈ finish.page.shown) ∧
      ∃ skipped : List MeshMessage, skipped.length = lost finish.reads ∧
        ∀ line ∈ finish.sent, line ∈ finish.page.shown ∨ line ∈ finish.page.events ∨
          line ∈ finish.sent.drop finish.position ∨ line ∈ skipped ∨
          (line ∈ pushes (feedActions earlier) ∧ line ∈ atAsk.feed.evicted) := by
  have toAsk := before.append (.step listens during)
  have snapshot := snapshot_shown _ later atAsk asked finish toAsk asks after few arrived
  obtain ⟨skipped, length, covers⟩ := sent_covered earlier _ atListen listened finish before listens
    (during.append (.step asks after)) few
  refine ⟨snapshot, skipped, length, fun line sent => ?_⟩
  rcases covers line sent with shown | event | ahead | skipped | pushed
  · exact .inl shown
  · exact .inr (.inl event)
  · exact .inr (.inr (.inl ahead))
  · exact .inr (.inr (.inr (.inl skipped)))
  · rcases snapshot_or_evicted earlier _ atAsk toAsk line pushed with evicted | inLog
    · exact .inr (.inr (.inr (.inr ⟨pushed, evicted⟩)))
    · exact .inl (snapshot line inLog)

/-- A line sent before the page listens, which the snapshot has; another that is on its way through
the forwarder when the snapshot, which has it too, arrives. -/
theorem window_lacks_overlap :
    let first : MeshMessage := ⟨0, opsChannel, "a", .info, "x", ""⟩
    let second : MeshMessage := ⟨1, opsChannel, "b", .info, "y", ""⟩
    let finish : Shell := ⟨⟨⟨2, [first, second], []⟩, [], [], [], 2⟩, [first, second], 2,
      [.message first, .message second], ⟨true, [second], [], [0, 1], [first, second]⟩⟩
    (∀ line ∈ [first, second], line ∈ finish.page.shown) ∧
      ∃ skipped : List MeshMessage, skipped.length = lost finish.reads ∧
        ∀ line ∈ finish.sent, line ∈ finish.page.shown ∨ line ∈ finish.page.events ∨
          line ∈ finish.sent.drop finish.position ∨ line ∈ skipped ∨
          (line ∈ [first] ∧ line ∈ []) := by
  intro first second finish
  let atListen : Shell := ⟨⟨⟨1, [first], []⟩, [], [], [], 1⟩, [first], 1, [.message first], .new⟩
  let listened : Shell := { atListen with page := ⟨true, [], [], [], []⟩ }
  let atAsk : Shell := { listened with feed := ⟨⟨2, [first, second], []⟩, [], [second], [], 2⟩ }
  let asked : Shell := { atAsk with page := ⟨true, [], [[first, second]], [], []⟩ }
  exact window_lacks
    [.feed (.next "a" .info "x" ""), .feed (.push first), .feed (.send first), .forward]
    [.feed (.next "b" .info "y" ""), .feed (.push second)]
    [.feed (.send second), .forward, .answer 0] atListen listened atAsk asked finish
    (run_of_foldlM Shell.step _ _ _ (by decide +kernel)) (by rw [ShellStep]; decide +kernel)
    (run_of_foldlM Shell.step _ _ _ (by decide +kernel)) (by rw [ShellStep]; decide +kernel)
    (run_of_foldlM Shell.step _ _ _ (by decide +kernel)) (by decide) rfl

/-! ### At rest -/

/-- What was to be sent or is pushed in a run is sent in it or is still to be. -/
theorem pushes_perm (start finish : FeedRun) (actions : List FeedAction)
    (run : Run FeedStep start actions finish) :
    (start.toSend ++ pushes actions).Perm (sends actions ++ finish.toSend) := by
  induction run with
  | stop state => exact (List.append_nil _).symm ▸ .refl _
  | @step before middle _ action rest first _ inductionHypothesis =>
    have here : (before.toSend ++ pushes [action]).Perm (sends [action] ++ middle.toSend) := by
      cases action with
      | push message =>
        rw [FeedStep, FeedRun.step, Option.ite_none_right_eq_some] at first
        obtain ⟨-, same⟩ := first
        cases same
        exact .refl _
      | send message =>
        rw [FeedStep, FeedRun.step, Option.ite_none_right_eq_some] at first
        obtain ⟨inside, same⟩ := first
        cases same
        exact (List.append_nil _).symm ▸ List.perm_cons_erase inside
      | next sender kind body at_ =>
        cases first
        exact (List.append_nil _).symm ▸ .refl _
      | subscribe =>
        cases first
        exact (List.append_nil _).symm ▸ .refl _
      | recv index =>
        cases first
        exact (List.append_nil _).symm ▸ .refl _
      | unsubscribe index =>
        cases first
        exact (List.append_nil _).symm ▸ .refl _
    rw [pushes_cons, sends_cons, ← List.append_assoc, List.append_assoc (sends [action])]
    refine (here.append_right _).trans ?_
    rw [List.append_assoc]
    exact inductionHypothesis.append_left _

/-- In every run of the shell the page shows only lines of the feed, and no number twice. -/
theorem page_shows (actions : List ShellAction) (shell : Shell)
    (reached : Run ShellStep .start actions shell) :
    (shell.page.shown.map MeshMessage.seq).Nodup ∧
      ∀ line ∈ shell.page.shown, line ∈ pushes (feedActions actions) := by
  have sound := pageSound_of_run actions shell reached
  refine ⟨?_, fun line shown => ?_⟩
  · have distinct := sound.rendered.1 ▸ sound.rendered.2
    refine List.Nodup.of_map (fun number : UInt64 => Binary64.nearest number.toNat) ?_
    rw [List.map_map]
    exact distinct
  · have pushed := sound.carried line (.inl shown)
    rwa [pushed_of_run _ _ _ (feed_of_run _ _ _ reached).1] at pushed

/-- When posts and forwarder are at rest, nothing is on its way to the page, no lag was reported and
nothing had been evicted before the snapshot, the page shows exactly the lines pushed, each once. -/
theorem window_at_rest (earlier between later : List ShellAction)
    (atListen listened atAsk asked finish : Shell) (before : Run ShellStep .start earlier atListen)
    (listens : ShellStep atListen .listen listened)
    (during : Run ShellStep listened between atAsk) (asks : ShellStep atAsk .ask asked)
    (after : Run ShellStep asked later finish) (few : finish.feed.taken ≤ 2 ^ 53)
    (arrived : finish.page.answers = []) (heard : finish.page.events = [])
    (caughtUp : finish.position = finish.sent.length) (unlost : lost finish.reads = 0)
    (complete : finish.feed.toSend = []) (roomy : atAsk.feed.evicted = []) :
    finish.page.shown.Perm
      (pushes (feedActions (earlier ++ .listen :: between ++ .ask :: later))) := by
  have reached : Run ShellStep .start (earlier ++ .listen :: between ++ .ask :: later) finish :=
    ((before.append (.step listens during)).append (.step asks after))
  obtain ⟨distinct, only⟩ := page_shows _ finish reached
  have toAsk := before.append (.step listens during)
  have snapshot := snapshot_shown _ later atAsk asked finish toAsk asks after few arrived
  obtain ⟨skipped, none, covers⟩ := sent_covered earlier _ atListen listened finish before listens
    (during.append (.step asks after)) few
  obtain ⟨feedRun, sent⟩ := feed_of_run _ _ _ reached
  have all : (pushes (feedActions (earlier ++ .listen :: between ++ .ask :: later))).Perm
      finish.sent := by
    have moved := pushes_perm _ _ _ feedRun
    rw [complete, List.append_nil] at moved
    exact sent ▸ moved
  have once : (pushes (feedActions (earlier ++ .listen :: between ++ .ask :: later))).Nodup := by
    have numbers := (counted_of_run finish.feed _ feedRun).numbers (by omega)
    rw [pushed_of_run _ _ _ feedRun, List.map_append] at numbers
    exact List.Nodup.of_map _ (List.nodup_append.mp (numbers.nodup_iff.mpr List.nodup_range)).1
  refine (List.perm_ext_iff_of_nodup (List.Nodup.of_map _ distinct) once).mpr fun line =>
    ⟨only line, fun pushed => ?_⟩
  rw [unlost, List.length_eq_zero_iff] at none
  rcases covers line (all.mem_iff.mp pushed) with shown | event | ahead | lostLine | early
  · exact shown
  · rw [heard] at event
    exact absurd event List.not_mem_nil
  · rw [caughtUp, List.drop_length] at ahead
    exact absurd ahead List.not_mem_nil
  · rw [none] at lostLine
    exact absurd lostLine List.not_mem_nil
  · rcases snapshot_or_evicted earlier _ atAsk toAsk line early with evicted | inLog
    · rw [roomy] at evicted
      exact absurd evicted List.not_mem_nil
    · exact snapshot line inLog

/-- The page has heard the second line as well, which the snapshot had. -/
theorem window_at_rest_overlap :
    let first : MeshMessage := ⟨0, opsChannel, "a", .info, "x", ""⟩
    let second : MeshMessage := ⟨1, opsChannel, "b", .info, "y", ""⟩
    let finish : Shell := ⟨⟨⟨2, [first, second], []⟩, [], [], [], 2⟩, [first, second], 2,
      [.message first, .message second], ⟨true, [], [], [0, 1], [first, second]⟩⟩
    finish.page.shown.Perm [first, second] := by
  intro first second finish
  let atListen : Shell := ⟨⟨⟨1, [first], []⟩, [], [], [], 1⟩, [first], 1, [.message first], .new⟩
  let listened : Shell := { atListen with page := ⟨true, [], [], [], []⟩ }
  let atAsk : Shell := { listened with feed := ⟨⟨2, [first, second], []⟩, [], [second], [], 2⟩ }
  let asked : Shell := { atAsk with page := ⟨true, [], [[first, second]], [], []⟩ }
  exact window_at_rest
    [.feed (.next "a" .info "x" ""), .feed (.push first), .feed (.send first), .forward]
    [.feed (.next "b" .info "y" ""), .feed (.push second)]
    [.feed (.send second), .forward, .answer 0, .hear] atListen listened atAsk asked finish
    (run_of_foldlM Shell.step _ _ _ (by decide +kernel)) (by rw [ShellStep]; decide +kernel)
    (run_of_foldlM Shell.step _ _ _ (by decide +kernel)) (by rw [ShellStep]; decide +kernel)
    (run_of_foldlM Shell.step _ _ _ (by decide +kernel)) (by decide) rfl rfl rfl rfl rfl rfl

end Hammurabi
