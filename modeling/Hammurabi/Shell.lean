/-
This file is the desktop shell: the forwarder of the live feed, and the page it emits to.

The shell subscribes to the bus before anything is posted. Its forwarder takes what the
channel gives and emits each line as an event; a lag is only skipped over. The page
listens for events first and asks for a snapshot second, asks for another one after every
click, and renders a line unless it has rendered one with the same number. Numbers are
what the page makes of them: doubles.

The forwarder reads at its own pace. However slow it is, it streams on, and it knows how
much it has lost.
-/

import Hammurabi.Library.Binary64
import Hammurabi.Library.Broadcast
import Hammurabi.Observer

namespace Hammurabi

open Broadcast Runs

/-! ### The page -/

/-- A line's number, as the page reads it. -/
def MeshMessage.key (message : MeshMessage) : Nat := Binary64.nearest message.seq.toNat

/-- The page: whether it listens, the events and the snapshots on their way to it, the numbers it
has seen, and the lines it shows. -/
structure Page where
  listening : Bool
  events : List MeshMessage
  answers : List (List MeshMessage)
  seen : List Nat
  shown : List MeshMessage
  deriving DecidableEq, Repr

namespace Page

def new : Page := ⟨false, [], [], [], []⟩

/-- Render a line, unless its number was seen. -/
def renderLine (page : Page) (message : MeshMessage) : Page :=
  if message.key ∈ page.seen then page
  else { page with
    seen := page.seen ++ [message.key]
    shown := page.shown ++ [message] }

/-- An emitted line is an event, if the page listens. -/
def emit (page : Page) : Read MeshMessage → Page
  | .message message =>
    if page.listening then { page with events := page.events ++ [message] } else page
  | .lagged _ => page

/-- The page handles the oldest event. -/
def hear (page : Page) : Option Page :=
  match page.events with
  | [] => none
  | message :: events => some (renderLine { page with events := events } message)

/-- A snapshot is taken for the page. -/
def ask (page : Page) (lines : List MeshMessage) : Page :=
  { page with answers := page.answers ++ [lines] }

/-- A snapshot arrives, and each of its lines is rendered. -/
def answer (page : Page) (index : Nat) : Option Page :=
  page.answers[index]?.map fun lines =>
    lines.foldl renderLine { page with answers := page.answers.eraseIdx index }

end Page

/-! ### The shell -/

/-- The bus with posts under way, all that was sent to its live subscribers, where the forwarder
stands in that, and the page. What the forwarder has read is kept for the statements. -/
structure Shell where
  feed : FeedRun
  sent : List MeshMessage
  position : Nat
  reads : List (Read MeshMessage)
  page : Page
  deriving DecidableEq, Repr

/-- What happens next: a step of a post, a turn of the forwarder, or one of the page's. -/
inductive ShellAction where
  | feed (action : FeedAction)
  | forward
  | listen
  | hear
  | ask
  | answer (index : Nat)

namespace Shell

/-- The shell as it is set up, its forwarder subscribed. -/
def start : Shell := ⟨.start, [], 0, [], .new⟩

/-- One step; nothing where there is nothing to do. -/
def step (shell : Shell) : ShellAction → Option Shell
  | .feed action =>
    (shell.feed.step action).map fun feed =>
      { shell with feed := feed, sent := shell.sent ++ sends [action] }
  | .forward =>
    (recv liveCapacity shell.sent shell.position).map fun received =>
      { shell with
        position := received.2
        reads := shell.reads ++ [received.1]
        page := shell.page.emit received.1 }
  | .listen => some { shell with page := { shell.page with listening := true } }
  | .hear => shell.page.hear.map fun page => { shell with page := page }
  | .ask => some { shell with page := shell.page.ask shell.feed.bus.feed }
  | .answer index => (shell.page.answer index).map fun page => { shell with page := page }

end Shell

/-- A step of the shell. -/
def ShellStep (before : Shell) (action : ShellAction) (after : Shell) : Prop :=
  before.step action = some after

/-- The steps of posts and of other subscribers among the shell's. -/
def feedActions (actions : List ShellAction) : List FeedAction :=
  actions.filterMap fun action =>
    match action with
    | .feed action => some action
    | _ => none

theorem feedActions_append (front back : List ShellAction) :
    feedActions (front ++ back) = feedActions front ++ feedActions back := List.filterMap_append

/-! ### What one step does -/

/-- What the page does of its own: it listens, handles an event, asks for the lines of the feed, or
gets an answer. -/
def PageStep (feed : List MeshMessage) (before after : Page) : Prop :=
  after = { before with listening := true } ∨ before.hear = some after ∨
    after = before.ask feed ∨ ∃ index, before.answer index = some after

/-- A step of the shell is a step of the feed, a read of the forwarder, or the page's own. -/
theorem shell_cases (before after : Shell) (action : ShellAction)
    (step : ShellStep before action after) :
    (∃ feedAction, action = .feed feedAction ∧ FeedStep before.feed feedAction after.feed ∧
      after.sent = before.sent ++ sends [feedAction] ∧ after.position = before.position ∧
      after.reads = before.reads ∧ after.page = before.page) ∨
    (∃ read, action = .forward ∧
      recv liveCapacity before.sent before.position = some (read, after.position) ∧
      after.feed = before.feed ∧ after.sent = before.sent ∧
      after.reads = before.reads ++ [read] ∧ after.page = before.page.emit read) ∨
    (feedActions [action] = [] ∧ after.feed = before.feed ∧ after.sent = before.sent ∧
      after.position = before.position ∧ after.reads = before.reads ∧
      PageStep before.feed.bus.feed before.page after.page) := by
  cases action with
  | feed feedAction =>
    obtain ⟨feed, taken, rfl⟩ := Option.map_eq_some_iff.mp step
    exact .inl ⟨feedAction, rfl, taken, rfl, rfl, rfl, rfl⟩
  | forward =>
    obtain ⟨received, taken, rfl⟩ := Option.map_eq_some_iff.mp step
    exact .inr (.inl ⟨received.1, rfl, taken, rfl, rfl, rfl, rfl⟩)
  | listen =>
    cases step
    exact .inr (.inr ⟨rfl, rfl, rfl, rfl, rfl, .inl rfl⟩)
  | hear =>
    obtain ⟨page, taken, rfl⟩ := Option.map_eq_some_iff.mp step
    exact .inr (.inr ⟨rfl, rfl, rfl, rfl, rfl, .inr (.inl taken)⟩)
  | ask =>
    cases step
    exact .inr (.inr ⟨rfl, rfl, rfl, rfl, rfl, .inr (.inr (.inl rfl))⟩)
  | answer index =>
    obtain ⟨page, taken, rfl⟩ := Option.map_eq_some_iff.mp step
    exact .inr (.inr ⟨rfl, rfl, rfl, rfl, rfl, .inr (.inr (.inr ⟨index, taken⟩))⟩)

/-- A run of the shell is a run of its feed. -/
theorem feed_of_run (start finish : Shell) (actions : List ShellAction)
    (run : Run ShellStep start actions finish) :
    Run FeedStep start.feed (feedActions actions) finish.feed ∧
      finish.sent = start.sent ++ sends (feedActions actions) := by
  induction run with
  | stop state => exact ⟨.stop _, (List.append_nil _).symm⟩
  | @step before middle _ action rest first _ inductionHypothesis =>
    obtain ⟨tail, sent⟩ := inductionHypothesis
    rcases shell_cases before middle action first with
      ⟨feedAction, rfl, taken, more, -⟩ | ⟨read, rfl, -, same, none, -⟩ | ⟨own, same, none, -⟩
    · refine ⟨.step taken tail, ?_⟩
      rw [sent, more, List.append_assoc, ← sends_append]
      rfl
    · refine ⟨same ▸ tail, ?_⟩
      rw [sent, none]
      rfl
    · have alone : feedActions (action :: rest) = feedActions rest := by
        rw [← List.singleton_append, feedActions_append, own, List.nil_append]
      rw [alone]
      exact ⟨same ▸ tail, by rw [sent, none]⟩

/-! ### The forwarder -/

/-- The forwarder's reads account for all it has passed. -/
def Accounted (shell : Shell) : Prop :=
  ∃ skipped, Accounts shell.sent shell.reads skipped shell.position

theorem accounted_shell_step (before : Shell) (action : ShellAction) (after : Shell)
    (step : ShellStep before action after) (accounted : Accounted before) : Accounted after := by
  obtain ⟨skipped, accounts⟩ := accounted
  rcases shell_cases before after action step with
    ⟨feedAction, -, -, sent, position, reads, -⟩ | ⟨read, -, received, -, sent, reads, -⟩ |
    ⟨-, -, sent, position, reads, -⟩
  · exact ⟨skipped, by rw [sent, position, reads]; exact accounts.append _⟩
  · obtain ⟨gap, next⟩ := accounts.recv liveCapacity after.position read received
    exact ⟨skipped ++ gap, by rw [sent, reads]; exact next⟩
  · exact ⟨skipped, by rw [sent, position, reads]; exact accounts⟩

theorem accounted_of_run (actions : List ShellAction) (shell : Shell)
    (reached : Run ShellStep .start actions shell) : Accounted shell :=
  reached.kept accounted_shell_step ⟨[], .start⟩

end Hammurabi
