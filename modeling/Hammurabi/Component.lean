/-
This file is the component that is to replace the page.

The component has the same four buttons, invokes the same commands and shows the same status
lines. But it enables a button by what it keeps, the intent or the receipt's id, where the
page enables it once and for all when the step before it is done.

So the component lets the operator settle without having been refused. And after a settlement
that failed it has no execution to offer, where the page goes on to offer one. With the mock
no settlement fails, and the component can do whatever the page does; and in all its own
runs it is as truthful as the page.
-/

import Hammurabi.Journey

namespace Hammurabi

open Json Runs

/-! ### The component -/

/-- The number is zero as a double: for the text of a double, if its digits are. -/
def isZero : Number → Bool
  | .posInt value => value = 0
  | .negInt _ _ => false
  | .float text => (text.toList.takeWhile fun c => c ≠ 'e' ∧ c ≠ 'E').all fun c =>
      ¬ ('1' ≤ c ∧ c ≤ '9')

/-- What counts as true: not what is undefined, null, false, zero or the empty text. -/
def truthy : Option Value → Bool
  | none => false
  | some .null => false
  | some (.bool value) => value
  | some (.number value) => !isZero value
  | some (.string text) => text ≠ ""
  | some (.array _) => true
  | some (.object _) => true

/-- What the component keeps of the loop. -/
structure Component where
  intent : Value
  receiptId : Option Value
  status : StatusLine

namespace Component

def start : Component := ⟨.null, some .null, .idle⟩

/-- The command a click invokes, if the button is enabled and the arguments are accepted. -/
def command? (component : Component) : Button → Option Command
  | .announce => some .agentAnnounce
  | .execute =>
    if truthy (some component.intent) then some (.requestExecution component.intent none) else none
  | .settle =>
    if truthy (some component.intent) then do
      let intentId ← (← property component.intent "intent_id")
      return .x402Settle (← intentId.asStr)
    else none
  | .retry =>
    if truthy component.receiptId then do
      return .requestExecution component.intent (← optionalText component.receiptId)
    else none

/-- What the component makes of a reply. A property that is asked of null stops it there. -/
def reply (component : Component) (button : Button) (status : Nat) (body : Value) : Component :=
  match button with
  | .announce =>
    match property body "intent_id" with
    | none => { component with intent := body }
    | some intentId => { component with intent := body, status := .intent intentId }
  | .execute =>
    { component with status := if status = 402 then .paymentRequired else .unexpected status }
  | .settle =>
    match property body "receipt_id" with
    | none => component
    | some receiptId => { component with receiptId := receiptId, status := .receipt receiptId }
  | .retry =>
    if status = 200 then
      match property body "idempotency_key" with
      | none => component
      | some envelope => { component with status := .settled envelope }
    else { component with status := .refused status }

end Component

/-- The process, the component, and the invocations it waits for. -/
structure ComponentDesk where
  system : System
  component : Component
  waiting : List (Button × Nat)

def ComponentDesk.start (backend : SettlementBackend) : ComponentDesk :=
  ⟨.start backend, .start, []⟩

section Desk

variable (framework : Framework) (primitives : Primitives)

/-- A click puts a request in, if there is one to put in. -/
def ComponentDesk.click (desk : ComponentDesk) (button : Button) : ComponentDesk :=
  match desk.component.command? button with
  | none => desk
  | some command =>
    match command.call.request? with
    | none => desk
    | some _ => { desk with
        system := desk.system.step framework primitives (.arrive (.command command))
        waiting := desk.waiting ++ [(button, desk.system.tasks.length)] }

/-- What the component makes of a response, if it reads back. -/
def Component.receive (component : Component) (button : Button) (response : Response) :
    Component :=
  match readResponse framework response with
  | .error _ => component
  | .ok (status, body) => component.reply button status (handBack body)

/-- A reply arrives when its request is answered. -/
def ComponentDesk.reply (desk : ComponentDesk) (place : Nat) : Option ComponentDesk :=
  match desk.waiting[place]? with
  | none => none
  | some (button, index) =>
    match desk.system.tasks[index]? with
    | some (.answer response) => some { desk with
        component := desk.component.receive framework button response
        waiting := desk.waiting.eraseIdx place }
    | _ => none

/-- One step of the process and the component. -/
def ComponentDesk.Step (before : ComponentDesk) (action : DeskAction) (after : ComponentDesk) :
    Prop :=
  match action with
  | .process action => before.system.Step framework primitives action after.system ∧
      after.component = before.component ∧ after.waiting = before.waiting
  | .click button => after = before.click framework primitives button
  | .reply place => before.reply framework place = some after

end Desk

/-! ### The page and the component show the same -/

/-- The page keeps and shows what the component does. -/
structure Loop.Shows (loop : Loop) (component : Component) : Prop where
  intent : loop.intent = component.intent
  receiptId : loop.receiptId = component.receiptId
  status : loop.status = component.status

/-- What is the same stays the same in every reply. -/
theorem Loop.Shows.reply {loop : Loop} {component : Component} (shows : loop.Shows component)
    (button : Button) (status : Nat) (body : Value) :
    (loop.reply button status body).Shows (component.reply button status body) := by
  obtain ⟨intent, receiptId, line⟩ := shows
  cases button with
  | announce =>
    rw [Loop.reply, Component.reply]
    cases property body "intent_id" with
    | none => exact ⟨rfl, receiptId, line⟩
    | some intentId => exact ⟨rfl, receiptId, rfl⟩
  | execute =>
    rw [Loop.reply, Component.reply]
    split_ifs
    · exact ⟨intent, receiptId, rfl⟩
    · exact ⟨intent, receiptId, rfl⟩
  | settle =>
    rw [Loop.reply, Component.reply]
    cases property body "receipt_id" with
    | none => exact ⟨intent, receiptId, line⟩
    | some id => exact ⟨intent, rfl, rfl⟩
  | retry =>
    rw [Loop.reply, Component.reply]
    split_ifs
    · cases property body "idempotency_key" with
      | none => exact ⟨intent, receiptId, line⟩
      | some envelope => exact ⟨intent, receiptId, rfl⟩
    · exact ⟨intent, receiptId, rfl⟩

theorem Loop.Shows.receive {loop : Loop} {component : Component} (shows : loop.Shows component)
    (framework : Framework) (button : Button) (response : Response) :
    (loop.receive framework button response).Shows
      (component.receive framework button response) := by
  rw [Loop.receive, Component.receive]
  cases readResponse framework response with
  | error refusal => exact shows
  | ok answer => exact shows.reply button answer.1 (handBack answer.2)

/-! ### The component as a page -/

/-- The component as a page whose buttons are enabled as its own. -/
def Component.asLoop (component : Component) : Loop where
  intent := component.intent
  receiptId := component.receiptId
  canExecute := truthy (some component.intent)
  canSettle := truthy (some component.intent)
  canRetry := truthy component.receiptId
  status := component.status

theorem Component.asLoop_shows (component : Component) : component.asLoop.Shows component :=
  ⟨rfl, rfl, rfl⟩

theorem Component.command?_asLoop (component : Component) (button : Button) :
    component.asLoop.command? button = component.command? button := by
  cases button with
  | announce => rfl
  | execute => rfl
  | settle => rfl
  | retry => rfl

/-- A reply that enables the retry of the component enables that of the page. -/
theorem Component.canRetry_receive (framework : Framework) (component : Component)
    (button : Button) (response : Response)
    (enabled : truthy (component.receive framework button response).receiptId = true) :
    (component.asLoop.receive framework button response).canRetry = true := by
  rw [Component.receive] at enabled
  rw [Loop.receive]
  cases read : readResponse framework response with
  | error refusal =>
    rw [read] at enabled
    exact enabled
  | ok answer =>
    rw [read] at enabled
    cases button with
    | announce =>
      simp only [Component.reply, Loop.reply] at enabled ⊢
      cases there : property (handBack answer.2) "intent_id" with
      | none =>
        rw [there] at enabled
        exact enabled
      | some intentId =>
        rw [there] at enabled
        exact enabled
    | execute =>
      simp only [Component.reply, Loop.reply] at enabled ⊢
      split_ifs
      · exact enabled
      · exact enabled
    | settle =>
      simp only [Component.reply, Loop.reply] at enabled ⊢
      cases there : property (handBack answer.2) "receipt_id" with
      | none =>
        rw [there] at enabled
        exact enabled
      | some receiptId => rfl
    | retry =>
      simp only [Component.reply, Loop.reply] at enabled ⊢
      split_ifs at enabled ⊢
      · cases there : property (handBack answer.2) "idempotency_key" with
        | none =>
          rw [there] at enabled
          exact enabled
        | some envelope =>
          rw [there] at enabled
          exact enabled
      · exact enabled

def ComponentDesk.asDesk (desk : ComponentDesk) : Desk :=
  ⟨desk.system, desk.component.asLoop, desk.waiting⟩

section Sound

variable (framework : Framework) (primitives : Primitives)

theorem ComponentDesk.asDesk_click (desk : ComponentDesk) (button : Button) :
    (desk.click framework primitives button).asDesk =
      desk.asDesk.click framework primitives button := by
  unfold ComponentDesk.click Desk.click
  rw [show desk.asDesk.loop.command? button = desk.component.command? button from
    desk.component.command?_asLoop button]
  cases desk.component.command? button with
  | none => rfl
  | some command =>
    dsimp only
    cases command.call.request? with
    | none => rfl
    | some request => rfl

/-- What makes a desk sound is what the page keeps and shows, and that it is not more eager to
retry. -/
theorem Desk.Sound.shows {backend : SettlementBackend} {desk : Desk}
    (sound : desk.Sound framework backend) (component : Component)
    (shows : desk.loop.Shows component)
    (retries : truthy component.receiptId = true → desk.loop.canRetry = true) :
    (ComponentDesk.asDesk ⟨desk.system, component, desk.waiting⟩).Sound framework backend := by
  obtain ⟨intent, receiptId, status⟩ := shows
  have named := sound.named
  have known := sound.intent
  have receipted := sound.receiptId
  have truthful := sound.truthful
  rw [intent] at named known
  rw [receiptId] at receipted
  rw [status] at truthful
  exact {
    accounted := sound.accounted
    cleared := sound.cleared
    served := sound.served
    expected := sound.expected
    intent := known
    named := fun some => named (some.imp_left retries)
    receiptId := receipted
    truthful := truthful }

/-- A reply is what the component makes of the answer to a request it waited for. -/
theorem component_reply_cases (before : ComponentDesk) (place : Nat) (after : ComponentDesk)
    (step : before.reply framework place = some after) :
    ∃ button index response, before.waiting[place]? = some (button, index) ∧
      before.system.tasks[index]? = some (.answer response) ∧
      after = { before with
        component := before.component.receive framework button response
        waiting := before.waiting.eraseIdx place } := by
  unfold ComponentDesk.reply at step
  split at step
  · cases step
  · rename_i button index waits
    split at step
    · rename_i response answered
      exact ⟨button, index, response, waits, answered, (Option.some.inj step).symm⟩
    · cases step

/-- Every step keeps the component sound, as a page. -/
theorem sound_component_step (readsBack : framework.ReadsBack) (backend : SettlementBackend)
    (before : ComponentDesk) (action : DeskAction) (after : ComponentDesk)
    (step : before.Step framework primitives action after)
    (sound : before.asDesk.Sound framework backend) : after.asDesk.Sound framework backend := by
  cases action with
  | process action =>
    obtain ⟨stepped, component, waiting⟩ := step
    have same : after = { before with system := after.system } := by
      rw [← component, ← waiting]
    rw [same]
    exact sound_process framework primitives backend before.asDesk action after.system stepped sound
  | click button =>
    obtain rfl : after = _ := step
    rw [ComponentDesk.asDesk_click]
    exact sound_click framework primitives readsBack backend before.asDesk sound button
  | reply place =>
    obtain ⟨button, index, response, waits, answered, rfl⟩ :=
      component_reply_cases framework before place after step
    have replied : before.asDesk.reply framework place = some { before.asDesk with
        loop := before.component.asLoop.receive framework button response
        waiting := before.waiting.eraseIdx place } := by
      rw [Desk.reply, show before.asDesk.waiting[place]? = some (button, index) from waits]
      dsimp only
      rw [show before.asDesk.system.tasks[index]? = some (.answer response) from answered]
      rfl
    have next := sound_reply framework readsBack backend before.asDesk place _ replied sound
    exact next.shows framework _
      (before.component.asLoop_shows.receive framework button response)
      (before.component.canRetry_receive framework button response)

theorem sound_component_start (backend : SettlementBackend) :
    (ComponentDesk.start backend).asDesk.Sound framework backend :=
  (sound_desk_start framework backend).shows framework .start ⟨rfl, rfl, rfl⟩ fun none => none

end Sound

/-! ### What the page has enabled -/

/-- A button of the page is enabled only when the page has what the component goes by; `executing`
says that an execution is waited for. -/
structure Loop.Enabled (executing : Prop) (loop : Loop) : Prop where
  execute : loop.canExecute = true → loop.intent ≠ .null
  settle : loop.canSettle = true ∨ executing → loop.intent ≠ .null
  retry : loop.canRetry = true → loop.receiptId ≠ some .null

def Desk.Enabled (desk : Desk) : Prop :=
  desk.loop.Enabled (∃ index, (Button.execute, index) ∈ desk.waiting)

theorem payload_ne_null (intent : AgentIntent) : intent.payload ≠ .null := by
  rintro ⟨⟩

section Enabled

variable (framework : Framework) (primitives : Primitives) (readsBack : framework.ReadsBack)
  (backend : SettlementBackend)

include readsBack

/-- Every reply that is expected leaves enabled only what the component goes by as well. -/
theorem enabled_receive (issued : List PaymentReceipt) (executing : Prop) (loop : Loop)
    (enabled : loop.Enabled executing) (button : Button) (response : Response)
    (expected : Expected framework backend issued button (.answer response))
    (waits : button = .execute → executing) :
    (loop.receive framework button response).Enabled executing := by
  cases button with
  | announce =>
    rcases expected with ⟨request, wrong, -⟩ | ⟨ulid, replies⟩
    · cases wrong
    · obtain rfl := Option.some.inj replies
      rw [receive_announce framework readsBack]
      exact ⟨fun _ => payload_ne_null _, fun _ => payload_ne_null _, enabled.retry⟩
  | execute =>
    obtain ⟨intentId, short, ⟨request, wrong, -⟩ | replies⟩ := expected
    · cases wrong
    · obtain rfl := Option.some.inj replies
      rw [receive_execute framework readsBack loop intentId short]
      exact ⟨enabled.execute, fun _ => enabled.settle (.inr (waits rfl)), enabled.retry⟩
  | settle =>
    rcases expected with ⟨request, intentId, wrong, -⟩ |
      ⟨mock, receipt, member, ⟨now, wrong⟩ | replies⟩ | ⟨live, detail, replies⟩
    · cases wrong
    · cases wrong
    · obtain rfl := Option.some.inj replies
      rw [receive_settle_receipt framework readsBack]
      split_ifs
      · exact ⟨enabled.execute, enabled.settle, fun _ => by rintro ⟨⟩⟩
      · exact enabled
    · obtain rfl := Option.some.inj replies
      rcases receive_settle_error framework readsBack loop detail with same | same
      · rw [same]
        exact enabled
      · rw [same]
        exact ⟨enabled.execute, enabled.settle, fun _ => by rintro ⟨⟩⟩
  | retry =>
    rcases expected with ⟨request, intent, wrong, -⟩ |
      ⟨mock, ⟨request, intent, receipt, wrong, -⟩ | ⟨receipt, intent, wrong⟩ |
        ⟨intent, credential, receipt, replies⟩⟩ | ⟨other, replies, refused⟩
    · cases wrong
    · cases wrong
    · cases wrong
    · obtain rfl := Option.some.inj replies
      rw [receive_retry_envelope framework readsBack]
      split_ifs
      · exact ⟨enabled.execute, enabled.settle, enabled.retry⟩
      · exact enabled
    · obtain rfl := Option.some.inj replies
      rcases receive_retry_refused framework loop response refused with same | same
      · rw [same]
        exact enabled
      · rw [same]
        exact ⟨enabled.execute, enabled.settle, enabled.retry⟩

/-- So does every step. -/
theorem enabled_desk_step (before : Desk) (action : DeskAction) (after : Desk)
    (step : before.Step framework primitives action after)
    (sound : before.Sound framework backend) (enabled : before.Enabled) : after.Enabled := by
  cases action with
  | process action =>
    obtain ⟨-, loop, waiting⟩ := step
    rw [Desk.Enabled, loop, waiting]
    exact enabled
  | click button =>
    obtain rfl : after = _ := step
    unfold Desk.click
    cases invoked : before.loop.command? button with
    | none => exact enabled
    | some command =>
      dsimp only
      cases command.call.request? with
      | none => exact enabled
      | some request =>
        refine ⟨enabled.execute, ?_, enabled.retry⟩
        rintro (settles | ⟨index, waits⟩)
        · exact enabled.settle (.inl settles)
        · rcases List.mem_append.mp waits with earlier | last
          · exact enabled.settle (.inr ⟨index, earlier⟩)
          · obtain ⟨rfl, -⟩ := Prod.mk.inj (List.mem_singleton.mp last)
            rw [Loop.command?] at invoked
            split_ifs at invoked with executes
            exact enabled.execute executes
  | reply place =>
    obtain ⟨button, index, response, waits, answered, rfl⟩ :=
      reply_cases framework before place after step
    have waiting : (button, index) ∈ before.waiting := List.mem_of_getElem? waits
    obtain ⟨phase, here, expected⟩ := sound.expected button index waiting
    cases answered.symm.trans here
    have next := enabled_receive framework readsBack backend before.system.issued _ before.loop
      enabled button response expected (by
        rintro rfl
        exact ⟨index, waiting⟩)
    exact ⟨next.execute, fun some => next.settle (some.imp_right (Exists.imp fun _ waits =>
      List.mem_of_mem_eraseIdx waits)), next.retry⟩

/-- And every run. -/
theorem enabled_of_run (start finish : Desk) (actions : List DeskAction)
    (run : Run (Desk.Step framework primitives) start actions finish)
    (sound : start.Sound framework backend) (enabled : start.Enabled) :
    finish.Sound framework backend ∧ finish.Enabled := by
  induction run with
  | stop desk => exact ⟨sound, enabled⟩
  | step first rest inductionHypothesis =>
    exact inductionHypothesis
      (sound_desk_step framework primitives readsBack backend _ _ _ first sound)
      (enabled_desk_step framework primitives readsBack backend _ _ _ first sound enabled)

end Enabled

theorem enabled_desk_start (backend : SettlementBackend) : (Desk.start backend).Enabled := by
  refine ⟨?_, ?_, ?_⟩
  · rintro ⟨⟩
  · rintro (⟨⟨⟩⟩ | ⟨index, ⟨⟩⟩)
  · rintro ⟨⟩

/-! ### What the component follows -/

theorem truthy_ulid (ulid : Ulid) : truthy (some (.string ulid.toString)) = true := by
  refine decide_eq_true fun empty => ?_
  have length := keyLength_ulid ulid
  rw [empty] at length
  exact absurd length (by decide)

/-- The component invokes what the page invokes, but for a retry when a facilitator is the
backend. -/
theorem command_follows (framework : Framework) (backend : SettlementBackend) (desk : Desk)
    (sound : desk.Sound framework backend) (enabled : desk.Enabled) (component : Component)
    (shows : desk.loop.Shows component) (button : Button) (command : Command)
    (invoked : desk.loop.command? button = some command) :
    component.command? button = some command ↔ backend = .mock ∨ button ≠ .retry := by
  have announced : desk.loop.intent ≠ .null → truthy (some component.intent) = true := by
    intro nonNull
    obtain ⟨ulid, same⟩ := sound.intent.resolve_left nonNull
    rw [← shows.intent, same]
    rfl
  cases button with
  | announce => exact iff_of_true invoked (.inr (by decide))
  | execute =>
    refine iff_of_true ?_ (.inr (by decide))
    rw [Loop.command?] at invoked
    split_ifs at invoked with executes
    rw [Component.command?, if_pos (announced (enabled.execute executes)), ← shows.intent]
    exact invoked
  | settle =>
    refine iff_of_true ?_ (.inr (by decide))
    rw [Loop.command?] at invoked
    split_ifs at invoked with settles
    rw [Component.command?, if_pos (announced (enabled.settle (.inl settles))), ← shows.intent]
    exact invoked
  | retry =>
    have known := sound.receiptId
    rw [Loop.command?] at invoked
    split_ifs at invoked with retries
    rw [Component.command?, ← shows.receiptId, ← shows.intent]
    rcases known.resolve_left (enabled.retry retries) with ⟨mock, receipt, issued, held⟩ |
      ⟨live, none⟩
    · obtain ⟨ulid, intentId, now, rfl⟩ := sound.cleared receipt issued
      have held : desk.loop.receiptId = some (.string ulid.toString) := held
      refine iff_of_true ?_ (.inl mock)
      rw [held] at invoked ⊢
      rw [if_pos (truthy_ulid ulid)]
      exact invoked
    · refine iff_of_false ?_ ?_
      · rw [none]
        rintro ⟨⟩
      · rintro (mock | other)
        · exact live mock
        · exact other rfl

/-- The page and the component over one process, waiting for the same replies. -/
structure Desk.Matches (desk : Desk) (other : ComponentDesk) : Prop where
  system : other.system = desk.system
  waiting : other.waiting = desk.waiting
  shows : desk.loop.Shows other.component

section Following

variable (framework : Framework) (primitives : Primitives) (readsBack : framework.ReadsBack)
  (backend : SettlementBackend)

/-- The component follows a step of the page, or the step was a click that did nothing. -/
theorem matches_step (before : Desk) (action : DeskAction) (after : Desk)
    (step : before.Step framework primitives action after)
    (sound : before.Sound framework backend) (enabled : before.Enabled) (other : ComponentDesk)
    (same : before.Matches other) (allowed : backend = .mock ∨ action ≠ .click .retry) :
    after.Matches other ∨
      ∃ next, other.Step framework primitives action next ∧ after.Matches next := by
  obtain ⟨system, component, waiting⟩ := other
  obtain ⟨rfl, rfl, shows⟩ := same
  cases action with
  | process action =>
    obtain ⟨stepped, loop, waits⟩ := step
    exact .inr ⟨⟨after.system, component, before.waiting⟩, ⟨stepped, rfl, rfl⟩, rfl, waits.symm,
      loop ▸ shows⟩
  | click button =>
    obtain rfl : after = _ := step
    cases invoked : before.loop.command? button with
    | none =>
      rw [Desk.click, invoked]
      exact .inl ⟨rfl, rfl, shows⟩
    | some command =>
      have follows : component.command? button = some command :=
        (command_follows framework backend before sound enabled component shows button command
          invoked).mpr (allowed.imp_right fun differs => fun retries => differs (retries ▸ rfl))
      refine .inr ⟨_, rfl, ?_⟩
      rw [Desk.click, invoked, ComponentDesk.click, follows]
      dsimp only
      cases command.call.request? with
      | none => exact ⟨rfl, rfl, shows⟩
      | some request => exact ⟨rfl, rfl, shows⟩
  | reply place =>
    obtain ⟨button, index, response, waits, answered, rfl⟩ :=
      reply_cases framework before place after step
    refine .inr ⟨⟨before.system, component.receive framework button response,
      before.waiting.eraseIdx place⟩, ?_, rfl, rfl, shows.receive framework button response⟩
    rw [ComponentDesk.Step, ComponentDesk.reply, waits]
    dsimp only
    rw [answered]

include readsBack

/-- The component follows every run of the page, leaving out clicks that did nothing. -/
theorem matches_run (start finish : Desk) (actions : List DeskAction)
    (run : Run (Desk.Step framework primitives) start actions finish)
    (sound : start.Sound framework backend) (enabled : start.Enabled) (other : ComponentDesk)
    (same : start.Matches other) (allowed : backend = .mock ∨ DeskAction.click .retry ∉ actions) :
    ∃ own last, own.Sublist actions ∧
      Run (ComponentDesk.Step framework primitives) other own last ∧ finish.Matches last := by
  induction run generalizing other with
  | stop desk => exact ⟨[], other, .slnil, .stop other, same⟩
  | @step before middle _ action actions first rest inductionHypothesis =>
    have soundNext := sound_desk_step framework primitives readsBack backend _ _ _ first sound
    have enabledNext :=
      enabled_desk_step framework primitives readsBack backend _ _ _ first sound enabled
    have later : backend = .mock ∨ DeskAction.click .retry ∉ actions :=
      allowed.imp_right fun none => fun inside => none (List.mem_cons_of_mem _ inside)
    have now : backend = .mock ∨ action ≠ .click .retry :=
      allowed.imp_right fun none => fun retries => none (retries ▸ List.mem_cons_self)
    rcases matches_step framework primitives backend before action middle first sound enabled other
      same now with still | ⟨next, taken, moved⟩
    · obtain ⟨own, last, fewer, run, arrived⟩ :=
        inductionHypothesis soundNext enabledNext other still later
      exact ⟨own, last, fewer.cons action, run, arrived⟩
    · obtain ⟨own, last, fewer, run, arrived⟩ :=
        inductionHypothesis soundNext enabledNext next moved later
      exact ⟨action :: own, last, fewer.cons_cons action, .step taken run, arrived⟩

end Following

/-! ### The component for the page -/

/-- The component follows the page. In every state that the page reaches, it has the command of each
button that the page has, but for the retry with a facilitator; and as far as the page is not
retried with one, what it reaches the component reaches as well, over the same process and by the
same steps, leaving out clicks that did nothing. -/
theorem component_follows (framework : Framework) (primitives : Primitives)
    (readsBack : framework.ReadsBack) (backend : SettlementBackend) (actions : List DeskAction)
    (desk : Desk) (run : Run (Desk.Step framework primitives) (.start backend) actions desk) :
    (∀ component, desk.loop.Shows component → ∀ button command,
      desk.loop.command? button = some command →
        (component.command? button = some command ↔ backend = .mock ∨ button ≠ .retry)) ∧
    (backend = .mock ∨ DeskAction.click .retry ∉ actions → ∃ own component,
      own.Sublist actions ∧
      Run (ComponentDesk.Step framework primitives) (.start backend) own
        ⟨desk.system, component, desk.waiting⟩ ∧ desk.loop.Shows component) := by
  constructor
  · obtain ⟨sound, enabled⟩ := enabled_of_run framework primitives readsBack backend _ desk actions
      run (sound_desk_start framework backend) (enabled_desk_start backend)
    exact fun component shows button command invoked =>
      command_follows framework backend desk sound enabled component shows button command invoked
  · intro allowed
    obtain ⟨own, ⟨system, component, waiting⟩, fewer, taken, rfl, rfl, shows⟩ :=
      matches_run framework primitives readsBack backend _ desk actions run
        (sound_desk_start framework backend) (enabled_desk_start backend) (.start backend)
        ⟨rfl, rfl, rfl, rfl, rfl⟩ allowed
    exact ⟨own, component, fewer, taken, shows⟩

/-- So to the page that has announced an intent. -/
theorem component_follows_announced : ∃ (desk : Desk) (actions own : List DeskAction)
    (component : Component), own.Sublist actions ∧
      Run (ComponentDesk.Step plainFramework (markingPrimitives [])) (.start .mock) own
        ⟨desk.system, component, desk.waiting⟩ ∧
      component.status = .intent (some (.string plainEnv.ulid.toString)) := by
  obtain ⟨announced, awaits, -, -, loop⟩ := exists_announced (markingPrimitives [])
  obtain ⟨actions, run⟩ := run_awaits plainFramework (markingPrimitives []) _
    (fun _ _ _ _ step => step) .announce _ announced awaits
  obtain ⟨own, component, fewer, taken, shows⟩ := (component_follows plainFramework
    (markingPrimitives []) plainFramework_readsBack .mock actions announced run).2 (.inl rfl)
  refine ⟨announced, actions, own, component, fewer, taken, ?_⟩
  rw [← shows.status, loop]

/-- The component is as truthful as the page, in every run of its own; and with a facilitator it
never has a retry to offer. -/
theorem component_reports (framework : Framework) (primitives : Primitives)
    (readsBack : framework.ReadsBack) (backend : SettlementBackend) (actions : List DeskAction)
    (desk : ComponentDesk)
    (run : Run (ComponentDesk.Step framework primitives) (.start backend) actions desk) :
    desk.component.status.Truthful backend desk.system ∧
      (backend ≠ .mock → desk.component.command? .retry = none) := by
  have sound : desk.asDesk.Sound framework backend :=
    run.kept (sound_component_step framework primitives readsBack backend)
      (sound_component_start framework backend)
  refine ⟨sound.truthful, fun live => ?_⟩
  have known : desk.component.receiptId = some .null ∨
      Receipted backend desk.system.issued desk.component.receiptId := sound.receiptId
  rw [Component.command?]
  rcases known with null | ⟨mock, -⟩ | ⟨-, none⟩
  · rw [null]
    rfl
  · exact absurd mock live
  · rw [none]
    rfl

/-- While the announcement is on its way to a process with a facilitator, there is nothing to
retry. -/
theorem component_reports_announcing :
    let refusing : FacilitatorClient :=
      ⟨fun _ => .error (.rejected "closed"), fun _ => .error (.rejected "closed")⟩
    let desk : ComponentDesk := ⟨(System.start (.facilitator refusing)).step plainFramework
      (markingPrimitives []) (.arrive (.command .agentAnnounce)), .start, [(.announce, 0)]⟩
    desk.component.status.Truthful (.facilitator refusing) desk.system ∧
      desk.component.command? .retry = none := by
  intro refusing desk
  obtain ⟨truthful, unoffered⟩ := component_reports plainFramework (markingPrimitives [])
    plainFramework_readsBack (.facilitator refusing) [.click .announce, .click .settle] desk
    (.step rfl (.step rfl (.stop _)))
  exact ⟨truthful, unoffered (by rintro ⟨⟩)⟩

end Hammurabi
