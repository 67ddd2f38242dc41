/-
This file proves that the feed is causally sound as an audit log.

Beside the state the audit lists every line ever logged, with the request that logged it
and the place of its number among all the numbers taken. Clients present only ids they
learned: from the answer of a settlement, or from a line that names a receipt. A
settlement is answered only after its payment notice is logged, and a line names only
receipts whose payment notice is logged already, so every id that is presented has been
told. A credential is therefore minted after its own payment was logged, and takes its
number after that; and what is logged later is never more than what it follows from.
-/

import Mathlib.Logic.Function.Basic
import Hammurabi.Library.Precedence
import Hammurabi.Notices
import Hammurabi.PayBeforeMint

namespace Hammurabi

open Precedence Runs

/-! ### The audit -/

/-- A line as it was logged: the request that logged it, how many numbers were taken before its
own, and the line itself. -/
structure Entry where
  origin : Nat
  number : Nat
  message : MeshMessage

/-- The system with its requests as they came in, the numbers taken so far, the one that each
request took last, and every line ever logged. -/
structure Audit where
  system : System
  requests : List Request
  taken : Nat
  drawn : Nat → Nat
  logged : List Entry

namespace Audit

def start (backend : SettlementBackend) : Audit where
  system := .start backend
  requests := []
  taken := 0
  drawn := fun _ => 0
  logged := []

/-- What a request's next step adds: the first step of a post takes a number, the second logs the
line under it. -/
def note (audit : Audit) (index : Nat) : Phase → Audit
  | .narrate _ _ _ _ =>
    { audit with
      taken := audit.taken + 1
      drawn := Function.update audit.drawn index audit.taken }
  | .push message _ =>
    { audit with logged := audit.logged ++ [⟨index, audit.drawn index, message⟩] }
  | _ => audit

/-- The answer of a settlement gives an id, or a line names it. -/
def Learned (audit : Audit) (id : String) : Prop :=
  (∃ receipt, .answer ⟨200, .receipt receipt⟩ ∈ audit.system.tasks ∧ receipt.receiptId = id) ∨
    ∃ entry ∈ audit.logged, Names entry.message.body id

/-- Clients present only ids they learned. -/
def Informed (audit : Audit) : Action → Prop
  | .arrive arrival => ∀ request, arrival.request? = some request → request.uri = "/execute" →
      ∀ id, request.headerStr? receiptHeader = some id → audit.Learned id
  | .advance _ _ => True

section Steps

variable (framework : Framework) (primitives : Primitives)

def step (audit : Audit) (action : Action) : Audit :=
  let system := audit.system.step framework primitives action
  match action with
  | .arrive arrival => { audit with system, requests := audit.requests ++ arrival.request?.toList }
  | .advance index _ =>
    match audit.system.tasks[index]? with
    | none => audit
    | some phase => { audit.note index phase with system }

/-- One step of the system, in which ids are fresh and clients informed. -/
def Step (before : Audit) (action : Action) (after : Audit) : Prop :=
  before.system.Fresh action ∧ before.Informed action ∧
    after = before.step framework primitives action

end Steps

/-! ### What an audit shows -/

/-- The receipt of the credential that the request of an entry mints. -/
def receiptOf (audit : Audit) (entry : Entry) : Option String :=
  audit.system.tasks[entry.origin]?.bind Phase.minted

/-- A payment line tells of the receipt of a credential, and was numbered before its line. -/
def Pays (audit : Audit) (payment credential : Entry) : Prop :=
  payment.number < credential.number ∧ ∃ id, audit.receiptOf credential = some id ∧
    Tells payment.message.kind payment.message.body id

end Audit

/-- Which request logged it, and of which kind it is. -/
def Entry.place (entry : Entry) : Nat × MeshEventKind := (entry.origin, entry.message.kind)

/-- An entry is of a kind. -/
def Entry.isOf (kind : MeshEventKind) (entry : Entry) : Bool := entry.message.kind = kind

/-- The feed is causally sound: at no time were there more settlement lines than credential lines,
or more credential lines than payment lines; before every credential line the payment of its receipt
was logged, and numbered, by a line of its own; and an announcement logs nothing but its intent. No
request logs two lines of a kind, the numbers are those of the lines, and the log of the mesh is the
end of all that was logged. -/
structure Audit.CausallySound (audit : Audit) : Prop where
  settlements : ∀ front, front <+: audit.logged →
    front.countP (Entry.isOf .settlement) ≤ front.countP (Entry.isOf .credential)
  credentials : ∀ front, front <+: audit.logged →
    front.countP (Entry.isOf .credential) ≤ front.countP (Entry.isOf .payment)
  paid : ∀ front credential back, audit.logged = front ++ credential :: back →
    credential.message.kind = .credential → ∃ payment ∈ front, audit.Pays payment credential
  own : ∀ payment, ∀ credential ∈ audit.logged, ∀ other ∈ audit.logged,
    credential.message.kind = .credential → other.message.kind = .credential →
    audit.Pays payment credential → audit.Pays payment other → credential = other
  announced : ∀ entry ∈ audit.logged, ∀ request, audit.requests[entry.origin]? = some request →
    request.uri = "/agent/announce" → entry.message.kind = .intent
  once : (audit.logged.map Entry.place).Nodup
  numbers : ∀ entry ∈ audit.logged, entry.message.seq = UInt64.ofNat entry.number
  retained : audit.system.state.mesh.log <:+ audit.logged.map Entry.message

/-! ### One step of the audit -/

/-- A line is logged when it is pushed. -/
theorem note_logged (audit : Audit) (index : Nat) (phase : Phase) :
    (audit.note index phase).logged =
      audit.logged ++ phase.pushes.map fun message => ⟨index, audit.drawn index, message⟩ := by
  cases phase with
  | push message after => rfl
  | _ => exact (List.append_nil _).symm

theorem note_drawn (audit : Audit) (index other : Nat) (phase : Phase) (different : other ≠ index) :
    (audit.note index phase).drawn other = audit.drawn other := by
  cases phase with
  | narrate sender kind body after => exact Function.update_of_ne different _ _
  | _ => rfl

theorem taken_le_note (audit : Audit) (index : Nat) (phase : Phase) :
    audit.taken ≤ (audit.note index phase).taken := by
  cases phase with
  | narrate sender kind body after => exact Nat.le_succ _
  | _ => exact le_rfl

theorem note_requests (audit : Audit) (index : Nat) (phase : Phase) :
    (audit.note index phase).requests = audit.requests := by
  cases phase <;> rfl

/-- Where a list is set anew, the rest is as before. -/
theorem getElem?_set_cases {tasks : List Phase} {index other : Nat} {next phase : Phase}
    (found : (tasks.set index next)[other]? = some phase) :
    other = index ∧ phase = next ∨ other ≠ index ∧ tasks[other]? = some phase := by
  rw [List.getElem?_set] at found
  split_ifs at found with same inside
  · exact .inl ⟨same.symm, (Option.some.inj found).symm⟩
  · exact .inr ⟨Ne.symm same, found⟩

/-- Where a list is longer by one, the rest is as before. -/
theorem getElem?_concat_cases {Item : Type} {items : List Item} {last item : Item} {index : Nat}
    (found : (items ++ [last])[index]? = some item) :
    items[index]? = some item ∨ index = items.length ∧ item = last := by
  rcases Nat.lt_trichotomy index items.length with inside | rfl | beyond
  · rw [List.getElem?_append_left inside] at found
    exact .inl found
  · rw [List.getElem?_concat_length] at found
    exact .inr ⟨rfl, (Option.some.inj found).symm⟩
  · rw [List.getElem?_eq_none (by rw [List.length_append]; exact beyond)] at found
    cases found

section Cases

variable (framework : Framework) (primitives : Primitives)

/-- A step takes in a request, or moves one and notes what it logs, or does nothing. -/
theorem audit_step_cases (before : Audit) (action : Action) :
    before.step framework primitives action = before ∨
    (∃ arrival request, action = .arrive arrival ∧ arrival.request? = some request ∧
      before.step framework primitives action =
        { before with
          system := { before.system with tasks := before.system.tasks ++ [handoffRouter request] }
          requests := before.requests ++ [request] }) ∨
    ∃ index env phase, before.system.tasks[index]? = some phase ∧
      before.step framework primitives action =
        { before.note index phase with
          system := {
            state := (advance framework primitives env before.system.state phase).1
            tasks := before.system.tasks.set index
              (advance framework primitives env before.system.state phase).2
            issued := before.system.issued ++
              phase.issues (advance framework primitives env before.system.state phase).2 } } := by
  cases action with
  | arrive arrival =>
    cases made : arrival.request? with
    | none =>
      refine .inl ?_
      rw [Audit.step, System.step, made, Option.toList_none, List.append_nil]
    | some request =>
      refine .inr (.inl ⟨arrival, request, rfl, made, ?_⟩)
      rw [Audit.step, System.step, made]
      rfl
  | advance index env =>
    cases found : before.system.tasks[index]? with
    | none =>
      refine .inl ?_
      rw [Audit.step, found]
    | some phase =>
      refine .inr (.inr ⟨index, env, phase, found, ?_⟩)
      rw [Audit.step, found, step_advance framework primitives before.system index env phase found]

/-- The audit watches the system and changes nothing in it. -/
theorem step_system (before : Audit) (action : Action) :
    (before.step framework primitives action).system =
      before.system.step framework primitives action := by
  cases action with
  | arrive arrival => rfl
  | advance index env =>
    cases found : before.system.tasks[index]? with
    | none => rw [Audit.step, found, System.step, found]
    | some phase => rw [Audit.step, found]

/-- Every run of the system in which nothing is to be executed is audited. -/
theorem exists_audit (audit : Audit) (start finish : System) (actions : List Action)
    (run : Run (System.Step framework primitives) start actions finish)
    (watched : audit.system = start)
    (idle : ∀ arrival, .arrive arrival ∈ actions → ∀ request, arrival.request? = some request →
      request.uri ≠ "/execute") :
    ∃ final, Run (Audit.Step framework primitives) audit actions final ∧
      final.system = finish := by
  induction run generalizing audit with
  | stop state => exact ⟨audit, .stop audit, watched⟩
  | @step start middle finish action actions first rest inductionHypothesis =>
    subst watched
    have informed : audit.Informed action := by
      cases action with
      | arrive arrival =>
        intro request made execution
        exact absurd execution (idle arrival List.mem_cons_self request made)
      | advance index env => exact trivial
    obtain ⟨final, later, same⟩ := inductionHypothesis
      (audit.step framework primitives action)
      ((step_system framework primitives audit action).trans first.2.symm)
      fun arrival member => idle arrival (List.mem_cons_of_mem _ member)
    exact ⟨final, .step ⟨first.1, informed, rfl⟩ later, same⟩

end Cases

/-! ### Which lines a request logs -/

/-- The kinds of the lines that a request has logged. -/
def Audit.kindsOf (audit : Audit) (index : Nat) : List MeshEventKind :=
  (audit.logged.filter fun entry => entry.origin = index).map fun entry => entry.message.kind

/-- Every line was logged by some request, and what a request has logged and may still log is a
course that was open to it when it came in. -/
structure Audit.Scripted (audit : Audit) : Prop where
  paired : audit.requests.length = audit.system.tasks.length
  origins : ∀ entry ∈ audit.logged, entry.origin < audit.system.tasks.length
  courses : ∀ index request phase, audit.requests[index]? = some request →
    audit.system.tasks[index]? = some phase → ∀ rest ∈ phase.scripts,
      audit.kindsOf index ++ rest ∈ (handoffRouter request).scripts

theorem kindsOf_note (audit : Audit) (index other : Nat) (phase : Phase) :
    (audit.note index phase).kindsOf other =
      audit.kindsOf other ++ if other = index then phase.pushes.map MeshMessage.kind else [] := by
  have posted : ((phase.pushes.map fun message =>
      Entry.mk index (audit.drawn index) message).filter fun entry => entry.origin = other) =
      if other = index then phase.pushes.map fun message =>
        Entry.mk index (audit.drawn index) message else [] := by
    split_ifs with same
    · rw [List.filter_map, List.filter_eq_self.mpr]
      exact fun message member => decide_eq_true same.symm
    · rw [List.filter_map, List.filter_eq_nil_iff.mpr, List.map_nil]
      exact fun message member => by simpa using Ne.symm same
  rw [Audit.kindsOf, note_logged, List.filter_append, List.map_append, posted, Audit.kindsOf]
  split_ifs
  · rw [List.map_map]
    rfl
  · rfl

/-- A request that is still to come has logged nothing. -/
theorem Audit.Scripted.kindsOf_length {audit : Audit} (scripted : audit.Scripted) :
    audit.kindsOf audit.system.tasks.length = [] := by
  rw [Audit.kindsOf, List.filter_eq_nil_iff.mpr, List.map_nil]
  intro entry member
  simpa using (scripted.origins entry member).ne

theorem scripted_start (backend : SettlementBackend) : (Audit.start backend).Scripted where
  paired := rfl
  origins entry member := absurd member List.not_mem_nil
  courses index request phase found := by cases found

theorem scripted_step (framework : Framework) (primitives : Primitives) (before : Audit)
    (action : Action) (scripted : before.Scripted) :
    (before.step framework primitives action).Scripted := by
  rcases audit_step_cases framework primitives before action with
    same | ⟨arrival, request, -, -, arrived⟩ | ⟨index, env, phase, found, advanced⟩
  · rw [same]
    exact scripted
  · rw [arrived]
    refine ⟨?_, fun entry member => ?_, fun index old phase requested here rest inside => ?_⟩
    · rw [List.length_append, List.length_append, scripted.paired]
      rfl
    · exact (scripted.origins entry member).trans_le (by simp)
    · rcases getElem?_concat_cases requested with earlier | ⟨last, rfl⟩
      · rcases getElem?_concat_cases here with present | ⟨rfl, -⟩
        · exact scripted.courses index old phase earlier present rest inside
        · rw [← scripted.paired, List.getElem?_eq_none le_rfl] at earlier
          cases earlier
      · rw [scripted.paired] at last
        subst last
        rw [List.getElem?_concat_length] at here
        obtain rfl := Option.some.inj here
        change before.kindsOf before.system.tasks.length ++ rest ∈ _
        rw [scripted.kindsOf_length]
        exact inside
  · have size := (List.getElem?_eq_some_iff.mp found).1
    rw [advanced]
    refine ⟨?_, fun entry member => ?_, fun other request after requested here rest inside => ?_⟩
    · rw [note_requests, List.length_set]
      exact scripted.paired
    · rw [List.length_set]
      rw [note_logged] at member
      rcases List.mem_append.mp member with earlier | new
      · exact scripted.origins entry earlier
      · obtain ⟨message, -, rfl⟩ := List.mem_map.mp new
        exact size
    · rw [note_requests] at requested
      change (before.note index phase).kindsOf other ++ rest ∈ _
      rw [kindsOf_note]
      rcases getElem?_set_cases here with ⟨rfl, rfl⟩ | ⟨different, present⟩
      · rw [if_pos rfl, List.append_assoc]
        exact scripted.courses other request phase requested found _
          (advance_scripts framework primitives env before.system.state phase rest inside)
      · rw [if_neg different, List.append_nil]
        exact scripted.courses other request after requested present rest inside

namespace Audit.Scripted

variable {audit : Audit}

/-- What a request has logged is the beginning of a course that was open to it. -/
theorem exists_script (scripted : audit.Scripted) (entry : Entry) (member : entry ∈ audit.logged) :
    ∃ request script, audit.requests[entry.origin]? = some request ∧
      script ∈ (handoffRouter request).scripts ∧ audit.kindsOf entry.origin <+: script := by
  have inside := scripted.origins entry member
  obtain ⟨phase, here⟩ : ∃ phase, audit.system.tasks[entry.origin]? = some phase :=
    ⟨_, List.getElem?_eq_getElem inside⟩
  obtain ⟨request, requested⟩ : ∃ request, audit.requests[entry.origin]? = some request :=
    ⟨_, List.getElem?_eq_getElem (scripted.paired ▸ inside)⟩
  obtain ⟨rest, course⟩ := Hammurabi.exists_script phase
  exact ⟨request, _, requested, scripted.courses _ request phase requested here rest course,
    List.prefix_append _ _⟩

theorem mem_kindsOf (entry : Entry) (member : entry ∈ audit.logged) :
    entry.message.kind ∈ audit.kindsOf entry.origin :=
  List.mem_map_of_mem (List.mem_filter.mpr ⟨member, decide_eq_true rfl⟩)

/-- An announcement logs nothing but its intent. -/
theorem announced (scripted : audit.Scripted) (entry : Entry) (member : entry ∈ audit.logged)
    (request : Request) (requested : audit.requests[entry.origin]? = some request)
    (announces : request.uri = "/agent/announce") : entry.message.kind = .intent := by
  obtain ⟨other, script, requestedToo, course, begins⟩ := scripted.exists_script entry member
  rw [requested] at requestedToo
  obtain rfl := Option.some.inj requestedToo
  exact (script_handoffRouter request script course).2.2 announces _
    (begins.subset (mem_kindsOf entry member))

theorem count_place (index : Nat) (kind : MeshEventKind) :
    (audit.logged.map Entry.place).count (index, kind) = (audit.kindsOf index).count kind := by
  rw [kindsOf, List.count_eq_countP, List.count_eq_countP, List.countP_map, List.countP_map,
    List.countP_filter]
  refine List.countP_congr fun entry member => ?_
  simp only [Function.comp_apply, Entry.place, beq_iff_eq, Prod.mk.injEq, Bool.and_eq_true,
    decide_eq_true_eq]
  exact and_comm

/-- A request logs one line at most of each kind. -/
theorem once (scripted : audit.Scripted) : (audit.logged.map Entry.place).Nodup := by
  rw [List.nodup_iff_count_le_one]
  rintro ⟨index, kind⟩
  rcases Nat.eq_zero_or_pos ((audit.logged.map Entry.place).count (index, kind)) with none | some
  · exact none.trans_le (Nat.zero_le 1)
  · obtain ⟨entry, member, place⟩ := List.mem_map.mp (List.count_pos_iff.mp some)
    obtain ⟨request, script, -, course, begins⟩ := scripted.exists_script entry member
    obtain rfl : entry.origin = index := congrArg Prod.fst place
    have distinct := (script_handoffRouter request script course).1.sublist begins.sublist
    rw [count_place]
    exact List.nodup_iff_count_le_one.mp distinct kind

theorem nodup (scripted : audit.Scripted) : audit.logged.Nodup := scripted.once.of_map _

/-- Two lines of one kind that a request logged are the same. -/
theorem entry_ext (scripted : audit.Scripted) (entry other : Entry) (member : entry ∈ audit.logged)
    (otherMember : other ∈ audit.logged) (origins : entry.origin = other.origin)
    (kinds : entry.message.kind = other.message.kind) : entry = other :=
  List.inj_on_of_nodup_map scripted.once member otherMember (Prod.ext origins kinds)

/-- A settlement line comes after the credential line of its request. -/
theorem led (scripted : audit.Scripted) :
    Led (fun earlier entry => earlier.isOf .credential = true ∧ earlier.origin = entry.origin)
      (fun entry => entry.isOf .settlement = true) audit.logged := by
  intro front entry back same isSettlement
  have kind : entry.message.kind = .settlement := of_decide_eq_true isSettlement
  have member : entry ∈ audit.logged := by
    rw [same]
    exact List.mem_append_right _ List.mem_cons_self
  obtain ⟨request, script, -, course, begins⟩ := scripted.exists_script entry member
  have settles := (script_handoffRouter request script course).2.1
    (begins.subset (kind ▸ mem_kindsOf entry member))
  rw [settles, kindsOf, same, List.filter_append, List.map_append,
    List.filter_cons_of_pos (by simp), List.map_cons, kind] at begins
  cases earlier : front.filter fun other => other.origin = entry.origin with
  | nil =>
    rw [earlier, List.map_nil, List.nil_append, List.cons_prefix_cons] at begins
    exact absurd begins.1 (by decide)
  | cons first others =>
    rw [earlier, List.map_cons, List.cons_append, List.cons_prefix_cons] at begins
    have chosen : first ∈ front.filter fun other => other.origin = entry.origin := by
      rw [earlier]
      exact List.mem_cons_self
    obtain ⟨inFront, origin⟩ := List.mem_filter.mp chosen
    exact ⟨first, inFront, decide_eq_true begins.1, of_decide_eq_true origin⟩

end Audit.Scripted

/-! ### What has been told -/

/-- A payment line tells of a receipt. -/
def Audit.Told (audit : Audit) (id : String) : Prop :=
  ∃ entry ∈ audit.logged, Tells entry.message.kind entry.message.body id

/-- Every request is honest, and the lines name only receipts of which a payment was told. -/
structure Audit.Truthful (audit : Audit) : Prop where
  honest : ∀ phase ∈ audit.system.tasks, phase.Honest audit.Told
  names : ∀ entry ∈ audit.logged, ∀ id, Names entry.message.body id → audit.Told id

theorem truthful_start (backend : SettlementBackend) : (Audit.start backend).Truthful where
  honest _ member := absurd member List.not_mem_nil
  names _ member := absurd member List.not_mem_nil

/-- Whatever a client can have learned was told. -/
theorem Audit.Truthful.told {audit : Audit} (truthful : audit.Truthful) (id : String)
    (learned : audit.Learned id) : audit.Told id := by
  rcases learned with ⟨receipt, answered, rfl⟩ | ⟨entry, member, named⟩
  · exact truthful.honest _ answered receipt rfl
  · exact truthful.names entry member id named

/-- A request that has just come in is honest if it presents what was told. -/
theorem honest_handoffRouter (told : String → Prop) (request : Request)
    (known : request.uri = "/execute" → ∀ id, request.headerStr? receiptHeader = some id →
      told id) : (handoffRouter request).Honest told := by
  have plain : ∀ status, (Phase.answer ⟨status, .empty⟩).Honest told := fun status receipt => nofun
  rw [handoffRouter]
  split_ifs with feed get head announce post settle posted execution
  all_goals first
    | exact known execution
    | exact trivial
    | exact plain _

/-- After a step, what the line just pushed tells has been told. -/
theorem told_note (audit : Audit) (index : Nat) (phase : Phase) (id : String) :
    (audit.note index phase).Told id ↔
      audit.Told id ∨ ∃ message ∈ phase.pushes, Tells message.kind message.body id := by
  simp only [Audit.Told, note_logged, List.mem_append, List.mem_map, or_and_right, exists_or,
    exists_exists_and_eq_and]

theorem truthful_step (framework : Framework) (primitives : Primitives) (before : Audit)
    (action : Action) (informed : before.Informed action) (truthful : before.Truthful) :
    (before.step framework primitives action).Truthful := by
  rcases audit_step_cases framework primitives before action with
    same | ⟨arrival, request, rfl, made, arrived⟩ | ⟨index, env, phase, found, advanced⟩
  · rw [same]
    exact truthful
  · rw [arrived]
    refine ⟨fun phase member => ?_, truthful.names⟩
    rcases List.mem_append.mp member with present | new
    · exact truthful.honest phase present
    · rw [List.mem_singleton.mp new]
      refine honest_handoffRouter _ request fun execution id presented => ?_
      exact truthful.told id (informed request made execution id presented)
  · have honest := truthful.honest phase (List.mem_of_getElem? found)
    rw [advanced]
    refine ⟨fun other member => ?_, fun entry member id named => (told_note _ _ _ _).mpr ?_⟩
    · rcases List.mem_or_eq_of_mem_set member with present | rfl
      · exact (truthful.honest other present).mono fun id told =>
          (told_note _ _ _ _).mpr (.inl told)
      · exact (advance_honest framework primitives env before.system.state before.Told phase
          honest).mono fun id told => (told_note _ _ _ _).mpr told
    · rw [note_logged] at member
      rcases List.mem_append.mp member with earlier | new
      · exact .inl (truthful.names entry earlier id named)
      · obtain ⟨message, pushed, rfl⟩ := List.mem_map.mp new
        obtain ⟨after, rfl⟩ := exists_push phase message pushed
        exact (honest.1.names id named).imp_right fun tells => ⟨message, pushed, tells⟩

/-! ### The numbers -/

/-- The counter counts the numbers taken, every line has its number, and the log of the mesh is the
end of all that was logged. -/
structure Audit.Numbered (audit : Audit) : Prop where
  counter : audit.system.state.mesh.seq = UInt64.ofNat audit.taken
  pushing : ∀ index message after, audit.system.tasks[index]? = some (.push message after) →
    audit.drawn index < audit.taken ∧ message.seq = UInt64.ofNat (audit.drawn index)
  taken : ∀ entry ∈ audit.logged, entry.number < audit.taken
  numbers : ∀ entry ∈ audit.logged, entry.message.seq = UInt64.ofNat entry.number
  retained : audit.system.state.mesh.log <:+ audit.logged.map Entry.message

theorem numbered_start (backend : SettlementBackend) : (Audit.start backend).Numbered where
  counter := rfl
  pushing index message after found := by cases found
  taken _ member := absurd member List.not_mem_nil
  numbers _ member := absurd member List.not_mem_nil
  retained := List.suffix_rfl

/-- A request that has just come in is not about to push. -/
theorem handoffRouter_ne_push (request : Request) (message : MeshMessage) (after : Phase) :
    handoffRouter request ≠ .push message after := by
  rw [handoffRouter]
  split_ifs
  all_goals exact Phase.noConfusion

/-- The counter still counts the numbers taken. -/
theorem counter_note (audit : Audit) (index : Nat) (phase : Phase) (env : Env)
    (counter : audit.system.state.mesh.seq = UInt64.ofNat audit.taken) :
    (phase.posts env audit.system.state.mesh).seq =
      UInt64.ofNat (audit.note index phase).taken := by
  cases phase with
  | narrate sender kind body after =>
    change audit.system.state.mesh.seq + 1 = UInt64.ofNat (audit.taken + 1)
    rw [counter, UInt64.ofNat_add]
    rfl
  | _ => exact counter

/-- The log of the mesh is still the end of all that was logged. -/
theorem retained_note (audit : Audit) (index : Nat) (phase : Phase) (env : Env)
    (retained : audit.system.state.mesh.log <:+ audit.logged.map Entry.message) :
    (phase.posts env audit.system.state.mesh).log <:+
      (audit.note index phase).logged.map Entry.message := by
  cases phase with
  | push message after =>
    have grown : audit.system.state.mesh.log ++ [message] <:+
        (audit.note index (.push message after)).logged.map Entry.message := by
      rw [note_logged, List.map_append]
      obtain ⟨front, same⟩ := retained
      exact ⟨front, by rw [← List.append_assoc, same]; rfl⟩
    exact (List.drop_suffix _ _).trans grown
  | _ => exact retained

theorem numbered_step (framework : Framework) (primitives : Primitives) (before : Audit)
    (action : Action) (truthful : before.Truthful) (numbered : before.Numbered) :
    (before.step framework primitives action).Numbered := by
  rcases audit_step_cases framework primitives before action with
    same | ⟨arrival, request, -, -, arrived⟩ | ⟨index, env, phase, found, advanced⟩
  · rw [same]
    exact numbered
  · rw [arrived]
    refine ⟨numbered.counter, fun index message after here => ?_, numbered.taken,
      numbered.numbers, numbered.retained⟩
    rcases getElem?_concat_cases here with present | ⟨-, new⟩
    · exact numbered.pushing index message after present
    · exact absurd new.symm (handoffRouter_ne_push request message after)
  · have honest := truthful.honest phase (List.mem_of_getElem? found)
    have mesh := advance_mesh framework primitives env before.system.state phase
    have logged : ∀ entry ∈ (before.note index phase).logged, entry ∈ before.logged ∨
        entry.number < before.taken ∧ entry.message.seq = UInt64.ofNat entry.number := by
      intro entry member
      rw [note_logged] at member
      refine (List.mem_append.mp member).imp_right fun new => ?_
      obtain ⟨message, pushed, rfl⟩ := List.mem_map.mp new
      obtain ⟨after, rfl⟩ := exists_push phase message pushed
      exact numbered.pushing index message after found
    rw [advanced]
    refine ⟨?_, fun other message after here => ?_, fun entry member => ?_,
      fun entry member => ?_, ?_⟩
    · exact (congrArg MeshBus.seq mesh).trans (counter_note before index phase env numbered.counter)
    · rcases getElem?_set_cases here with ⟨rfl, comes⟩ | ⟨different, present⟩
      · obtain ⟨sender, kind, body, rfl, rfl⟩ := narrates_of_push framework primitives env
          before.system.state before.Told phase honest message after comes.symm
        change Function.update before.drawn other before.taken other < before.taken + 1 ∧
          before.system.state.mesh.seq =
            UInt64.ofNat (Function.update before.drawn other before.taken other)
        rw [Function.update_self]
        exact ⟨Nat.lt_succ_self _, numbered.counter⟩
      · obtain ⟨below, number⟩ := numbered.pushing other message after present
        have drawn := note_drawn before index other phase different
        exact ⟨drawn ▸ below.trans_le (taken_le_note before index phase), drawn ▸ number⟩
    · refine lt_of_lt_of_le ?_ (taken_le_note before index phase)
      exact (logged entry member).elim (numbered.taken entry) And.left
    · exact (logged entry member).elim (numbered.numbers entry) And.right
    · exact (congrArg MeshBus.log mesh) ▸ retained_note before index phase env numbered.retained

/-! ### Every credential is paid -/

/-- A credential line that is about to be pushed has its payment logged, under a lower number, and
so has every one that was. -/
structure Audit.Prepaid (audit : Audit) : Prop where
  pushing : ∀ index message after, audit.system.tasks[index]? = some (.push message after) →
    message.kind = .credential → ∃ id, after.minted = some id ∧
      ∃ payment ∈ audit.logged, payment.number < audit.drawn index ∧
        Tells payment.message.kind payment.message.body id
  paid : Led audit.Pays (fun entry => entry.isOf .credential = true) audit.logged

theorem prepaid_start (backend : SettlementBackend) : (Audit.start backend).Prepaid where
  pushing index message after found := by cases found
  paid := led_nil

/-- What is paid stays paid while requests keep what they mint. -/
theorem Audit.Pays.mono {before after : Audit} {payment credential : Entry}
    (pays : before.Pays payment credential)
    (kept : ∀ id, before.receiptOf credential = some id → after.receiptOf credential = some id) :
    after.Pays payment credential := by
  obtain ⟨earlier, id, minted, tells⟩ := pays
  exact ⟨earlier, id, kept id minted, tells⟩

/-- The request of an entry keeps the receipt of its credential in every step. -/
theorem receiptOf_step (framework : Framework) (primitives : Primitives) (before : Audit)
    (action : Action) (entry : Entry) (id : String) (minted : before.receiptOf entry = some id) :
    (before.step framework primitives action).receiptOf entry = some id := by
  obtain ⟨mints, here, same⟩ := Option.bind_eq_some_iff.mp minted
  obtain ⟨inside, -⟩ := List.getElem?_eq_some_iff.mp here
  refine Option.bind_eq_some_iff.mpr ?_
  rcases audit_step_cases framework primitives before action with
    nothing | ⟨arrival, request, -, -, arrived⟩ | ⟨index, env, phase, found, advanced⟩
  · rw [nothing]
    exact ⟨mints, here, same⟩
  · rw [arrived]
    exact ⟨mints, (List.getElem?_append_left inside).trans here, same⟩
  · rw [advanced]
    by_cases stepped : index = entry.origin
    · subst stepped
      rw [found] at here
      obtain rfl := Option.some.inj here
      exact ⟨_, List.getElem?_set_self inside, minted_advance framework primitives env
        before.system.state phase id same⟩
    · exact ⟨mints, (List.getElem?_set_ne stepped).trans here, same⟩

theorem prepaid_step (framework : Framework) (primitives : Primitives) (before : Audit)
    (action : Action) (truthful : before.Truthful) (numbered : before.Numbered)
    (prepaid : before.Prepaid) : (before.step framework primitives action).Prepaid := by
  have kept : Led (before.step framework primitives action).Pays
      (fun entry => entry.isOf .credential = true) before.logged :=
    prepaid.paid.mono fun entry _ earlier pays =>
      pays.mono (receiptOf_step framework primitives before action entry)
  rcases audit_step_cases framework primitives before action with
    same | ⟨arrival, request, -, -, arrived⟩ | ⟨index, env, phase, found, advanced⟩
  · rw [same]
    exact prepaid
  · rw [arrived] at kept ⊢
    refine ⟨fun index message after here => ?_, kept⟩
    rcases getElem?_concat_cases here with present | ⟨-, new⟩
    · exact prepaid.pushing index message after present
    · exact absurd new.symm (handoffRouter_ne_push request message after)
  · have honest := truthful.honest phase (List.mem_of_getElem? found)
    rw [advanced] at kept ⊢
    have longer : ∀ payment ∈ before.logged, payment ∈ (before.note index phase).logged := by
      intro payment member
      rw [note_logged]
      exact List.mem_append_left _ member
    refine ⟨fun other message after here isCredential => ?_, ?_⟩
    · rcases getElem?_set_cases here with ⟨rfl, comes⟩ | ⟨different, present⟩
      · obtain ⟨sender, kind, body, rfl, rfl⟩ := narrates_of_push framework primitives env
          before.system.state before.Told phase honest message after comes.symm
        obtain ⟨id, minted, payment, member, tells⟩ := honest.1.minted isCredential
        refine ⟨id, minted, payment, longer payment member, ?_, tells⟩
        change payment.number < Function.update before.drawn other before.taken other
        rw [Function.update_self]
        exact numbered.taken payment member
      · obtain ⟨id, minted, payment, member, below, tells⟩ :=
          prepaid.pushing other message after present isCredential
        refine ⟨id, minted, payment, longer payment member, ?_, tells⟩
        exact (note_drawn before index other phase different).symm ▸ below
    · cases phase with
      | push message after =>
        refine kept.append_singleton _ fun isCredential => ?_
        obtain ⟨id, minted, payment, member, below, tells⟩ :=
          prepaid.pushing index message after found (of_decide_eq_true isCredential)
        refine ⟨payment, member, below, id, ?_, tells⟩
        have inside := (List.getElem?_eq_some_iff.mp found).1
        exact Option.bind_eq_some_iff.mpr ⟨_, List.getElem?_set_self inside, minted⟩
      | _ => exact kept

/-! ### The invariant of the audit -/

/-- Everything that holds of an audit at every time. -/
structure Audit.Sound (audit : Audit) : Prop where
  accounted : audit.system.Accounted
  drawn : ∀ receipt ∈ audit.system.issued, ∃ ulid : Ulid, receipt.receiptId = ulid.toString
  scripted : audit.Scripted
  truthful : audit.Truthful
  numbered : audit.Numbered
  prepaid : audit.Prepaid

theorem sound_start (backend : SettlementBackend) : (Audit.start backend).Sound where
  accounted := accounted_start backend
  drawn _ member := absurd member List.not_mem_nil
  scripted := scripted_start backend
  truthful := truthful_start backend
  numbered := numbered_start backend
  prepaid := prepaid_start backend

/-- A receipt is issued under a new id. -/
theorem drawn_of_issues (framework : Framework) (primitives : Primitives) (env : Env)
    (state : HandoffState) (phase : Phase) (receipt : PaymentReceipt)
    (issues : receipt ∈ phase.issues (advance framework primitives env state phase).2) :
    ∃ ulid : Ulid, receipt.receiptId = ulid.toString := by
  obtain ⟨request, body, -, -, settled⟩ :=
    settled_of_issues framework primitives env state phase receipt issues
  exact ⟨env.ulid, congrArg PaymentReceipt.receiptId (settle_eq_ok _ _ _ _ _ _ settled)⟩

theorem sound_step (framework : Framework) (primitives : Primitives) (before : Audit)
    (action : Action) (after : Audit) (step : before.Step framework primitives action after)
    (sound : before.Sound) : after.Sound := by
  obtain ⟨fresh, informed, rfl⟩ := step
  have moved := step_system framework primitives before action
  refine ⟨?_, ?_, ?_, ?_, ?_, ?_⟩
  · rw [moved]
    exact accounted_step framework primitives before.system action _ ⟨fresh, rfl⟩ sound.accounted
  · rw [moved]
    rcases step_cases framework primitives before.system action with
      same | ⟨request, arrived⟩ | ⟨index, env, front, phase, back, -, -, -, advanced⟩
    · rw [same]
      exact sound.drawn
    · rw [arrived]
      exact sound.drawn
    · rw [advanced]
      intro receipt member
      rcases List.mem_append.mp member with earlier | new
      · exact sound.drawn receipt earlier
      · exact drawn_of_issues framework primitives env before.system.state phase receipt new
  · exact scripted_step framework primitives before action sound.scripted
  · exact truthful_step framework primitives before action informed sound.truthful
  · exact numbered_step framework primitives before action sound.truthful sound.numbered
  · exact prepaid_step framework primitives before action sound.truthful sound.numbered
      sound.prepaid

/-! ### What follows for the log -/

/-- A request that mints holds the receipt. -/
theorem held_of_minted (phase : Phase) (id : String) (minted : phase.minted = some id) :
    phase.held = some id := by
  induction phase with
  | narrate sender kind body after inductionHypothesis => exact inductionHypothesis minted
  | push message after inductionHypothesis => exact inductionHypothesis minted
  | send message after inductionHypothesis => exact inductionHypothesis minted
  | answer response => exact minted
  | _ => cases minted

/-- A receipt is held by one request only. -/
theorem index_unique (tasks : List Phase) (distinct : (tasks.filterMap Phase.held).Nodup)
    (first second : Nat) (phase other : Phase) (id : String) (here : tasks[first]? = some phase)
    (there : tasks[second]? = some other) (holds : phase.held = some id)
    (otherHolds : other.held = some id) : first = second := by
  obtain ⟨inside, rfl⟩ := List.getElem?_eq_some_iff.mp here
  obtain ⟨insideToo, rfl⟩ := List.getElem?_eq_some_iff.mp there
  have apart := List.pairwise_iff_getElem.mp (List.pairwise_filterMap.mp distinct)
  rcases Nat.lt_trichotomy first second with below | same | above
  · exact absurd rfl (apart first second inside insideToo below id holds id otherHolds)
  · exact same
  · exact absurd rfl (apart second first insideToo inside above id otherHolds id holds)

namespace Audit.Sound

variable {audit : Audit}

/-- The receipt of a credential has an id that was drawn for it. -/
theorem length_receiptOf (sound : audit.Sound) (entry : Entry) (id : String)
    (minted : audit.receiptOf entry = some id) : id.toList.length = 26 := by
  obtain ⟨phase, here, same⟩ := Option.bind_eq_some_iff.mp minted
  have held : id ∈ audit.system.tokens :=
    Multiset.mem_coe.mpr (List.mem_filterMap.mpr
      ⟨phase, List.mem_of_getElem? here, held_of_minted phase id same⟩)
  obtain ⟨receipt, issued, rfl⟩ :=
    List.mem_map.mp (sound.accounted.custody.held_issued id held)
  obtain ⟨ulid, drawn⟩ := sound.drawn receipt issued
  rw [drawn, Ulid.toString, String.toList_ofList]
  exact ulid.length_toChars

/-- A payment line pays for one credential only. -/
theorem own (sound : audit.Sound) (payment credential other : Entry)
    (member : credential ∈ audit.logged) (otherMember : other ∈ audit.logged)
    (isCredential : credential.message.kind = .credential)
    (otherIsCredential : other.message.kind = .credential)
    (pays : audit.Pays payment credential) (paysOther : audit.Pays payment other) :
    credential = other := by
  obtain ⟨-, id, minted, -, intentId, notice⟩ := pays
  obtain ⟨-, otherId, otherMinted, -, otherIntentId, otherNotice⟩ := paysOther
  have lengths := (sound.length_receiptOf credential id minted).trans
    (sound.length_receiptOf other otherId otherMinted).symm
  obtain rfl := paymentNotice_inj _ _ id otherId lengths (notice.symm.trans otherNotice)
  obtain ⟨phase, here, mints⟩ := Option.bind_eq_some_iff.mp minted
  obtain ⟨otherPhase, there, otherMints⟩ := Option.bind_eq_some_iff.mp otherMinted
  have origins := index_unique audit.system.tasks
    (Multiset.coe_nodup.mp sound.accounted.custody.held_nodup) _ _ phase otherPhase id here there
    (held_of_minted phase id mints) (held_of_minted otherPhase id otherMints)
  exact sound.scripted.entry_ext credential other member otherMember origins
    (isCredential.trans otherIsCredential.symm)

theorem settlements (sound : audit.Sound) (front : List Entry) (isFront : front <+: audit.logged) :
    front.countP (Entry.isOf .settlement) ≤ front.countP (Entry.isOf .credential) := by
  refine (sound.scripted.led.of_prefix isFront).countP_le _ _
    (sound.scripted.nodup.sublist isFront.sublist) (fun _ _ cause => cause.1) ?_
  intro earlier entry member other otherMember isSettlement otherIsSettlement cause otherCause
  refine sound.scripted.entry_ext entry other (isFront.subset member)
    (isFront.subset otherMember) (cause.2.symm.trans otherCause.2) ?_
  exact (of_decide_eq_true isSettlement).trans (of_decide_eq_true otherIsSettlement).symm

theorem credentials (sound : audit.Sound) (front : List Entry) (isFront : front <+: audit.logged) :
    front.countP (Entry.isOf .credential) ≤ front.countP (Entry.isOf .payment) := by
  refine (sound.prepaid.paid.of_prefix isFront).countP_le _ _
    (sound.scripted.nodup.sublist isFront.sublist) ?_ ?_
  · rintro payment credential ⟨-, -, -, isPayment, -⟩
    exact decide_eq_true isPayment
  · intro payment entry member other otherMember isCredential otherIsCredential pays paysOther
    exact sound.own payment entry other (isFront.subset member) (isFront.subset otherMember)
      (of_decide_eq_true isCredential) (of_decide_eq_true otherIsCredential) pays paysOther

end Audit.Sound

/-- The feed is causally sound as an audit log: in every state that requests can reach, in whatever
order they take their steps, when clients present only the ids of receipts that they learned from
the answer of a settlement or from a line of the feed. -/
theorem feed_causally_sound (framework : Framework) (primitives : Primitives)
    (backend : SettlementBackend) (actions : List Action) (final : Audit)
    (run : Run (Audit.Step framework primitives) (.start backend) actions final) :
    final.CausallySound := by
  have sound : final.Sound := run.kept (sound_step framework primitives) (sound_start backend)
  exact {
    settlements := sound.settlements
    credentials := sound.credentials
    paid := fun front credential back same isCredential =>
      sound.prepaid.paid front credential back same (decide_eq_true isCredential)
    own := fun payment credential member other otherMember =>
      sound.own payment credential other member otherMember
    announced := sound.scripted.announced
    once := sound.scripted.once
    numbers := sound.numbered.numbers
    retained := sound.numbered.retained }

/-- The audit of a settlement whose line has been pushed. -/
theorem exists_toldAudit (primitives : Primitives) (intentId : String)
    (small : (Json.Value.object [("intent_id", .string intentId)]).byteLength ≤
      maxRequestBodyBytes) :
    ∃ told, Run (Audit.Step plainFramework primitives) (.start .mock) (tellingActions intentId)
      told ∧ told.system = toldSystem intentId := by
  refine exists_audit plainFramework primitives (.start .mock) _ _ _
    (run_toldSystem primitives intentId small) rfl ?_
  intro arrival member request made
  rcases List.mem_cons.mp member with same | later
  · obtain rfl := Action.arrive.inj same
    rw [(buildRequest_eq_some "POST" "/x402/settle" [] _ request made).2.1]
    decide
  · cases List.eq_of_mem_replicate later

/-- A client can learn the id of a receipt from the line of its payment. -/
theorem learned_told (framework : Framework) (primitives : Primitives) (intentId : String)
    (actions : List Action) (told : Audit)
    (run : Run (Audit.Step framework primitives) (.start .mock) actions told)
    (same : told.system = toldSystem intentId) : told.Learned plainEnv.ulid.toString := by
  have sound : told.Sound := run.kept (sound_step framework primitives) (sound_start .mock)
  have read : tellingMessage intentId ∈ told.logged.map Entry.message := by
    refine sound.numbered.retained.subset ?_
    have feed := feed_toldSystem intentId
    rw [MeshBus.feed, ← same] at feed
    rw [feed]
    exact List.mem_singleton_self _
  obtain ⟨entry, inside, line⟩ := List.mem_map.mp read
  exact .inr ⟨entry, inside, .inl ⟨intentId, congrArg MeshMessage.body line⟩⟩

/-- One receipt is settled, and a client that read its line comes with it to have its intent
executed, up to the line of the credential. -/
theorem feed_causally_sound_executed :
    ∃ final : Audit, 1 ≤ final.logged.countP (Entry.isOf .credential) ∧
      final.logged.countP (Entry.isOf .credential) ≤ final.logged.countP (Entry.isOf .payment) ∧
      final.CausallySound := by
  let intent := AgentIntent.mockEthLimitOrder plainEnv.ulid
  let receipt := PaymentReceipt.cleared plainEnv.ulid intent.intentId 7
  let id := plainEnv.ulid.toString
  obtain ⟨marked, ideal⟩ := exists_idealMint intent 7
  obtain ⟨canonical, chaos, minted⟩ := mint_payload (markingPrimitives marked) intent receipt 7
    plainEntropy ideal
  obtain ⟨told, run, same⟩ := exists_toldAudit (markingPrimitives marked) intent.intentId
    (by decide)
  obtain ⟨request, built⟩ := exists_mintingRequest intent id (visible_ulid _) (visible_ulid _)
  obtain ⟨post, uri, -⟩ := buildRequest_eq_some _ _ _ _ request built
  obtain ⟨header, -, presented⟩ := headerStr?_minting intent id request built
  have learned := learned_told plainFramework (markingPrimitives marked) intent.intentId _ told run
    same
  -- The client comes with the receipt of the line.
  have arrives : told.Step plainFramework (markingPrimitives marked) (.arrive (.http request))
      (told.step plainFramework (markingPrimitives marked) (.arrive (.http request))) := by
    refine ⟨fun _ drawn => absurd drawn List.not_mem_nil, ?_, rfl⟩
    rintro other ⟨⟩ execution another shown
    obtain rfl := Option.some.inj (shown.symm.trans (presented (visible_ulid _)))
    exact learned
  have arrived : (told.step plainFramework (markingPrimitives marked)
      (.arrive (.http request))).system = { toldSystem intent.intentId with
        tasks := (toldSystem intent.intentId).tasks ++ [.guard request] } := by
    rw [step_system, same, System.step, ← handoffRouter_execute request uri]
    rfl
  -- Its request goes on to the push of the credential's line.
  obtain ⟨body, executes⟩ := run_execution plainFramework (markingPrimitives marked)
    { toldSystem intent.intentId with
      tasks := (toldSystem intent.intentId).tasks ++ [.guard request] } 1 plainEnv request intent
    receipt _ rfl post (header (visible_ulid _)) (presented (visible_ulid _))
    (extractJson_minting plainFramework plainFramework_readsBack intent id request built
      (by decide +kernel)) rfl rfl minted
  have tells := executes.append
    (run_post plainFramework (markingPrimitives marked) _ 1 plainEnv _ _ _ _ rfl)
  obtain ⟨final, later, executed⟩ := exists_audit plainFramework (markingPrimitives marked) _ _ _ _
    tells arrived (by simp)
  have whole := run.append (.step arrives later)
  have causal := feed_causally_sound plainFramework (markingPrimitives marked) .mock _ _ whole
  refine ⟨final, ?_, causal.credentials _ List.prefix_rfl, causal⟩
  have line : (⟨1, opsChannel, vaultHandle, .credential, credentialMintedNotice, plainEnv.at_⟩ :
      MeshMessage) ∈ final.logged.map Entry.message := by
    refine causal.retained.subset ?_
    rw [executed]
    exact MeshBus.mem_push _ _
  obtain ⟨entry, inside, kind⟩ := List.mem_map.mp line
  exact List.countP_pos_iff.mpr ⟨entry, inside, decide_eq_true (congrArg MeshMessage.kind kind)⟩

end Hammurabi
