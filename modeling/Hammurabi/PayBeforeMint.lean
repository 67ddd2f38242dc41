/-
This file proves that every minting was paid for, over every interleaving of any
number of requests.

The ids of receipts are tokens in custody: a settlement issues one into the hands of
its request, recording deposits it in the treasury, a guard that redeems it
withdraws it, and from then on it stays with that request: in the phase that
extracts the body, in the mint, and in the envelope it is answered with. A token is
in at most one place, so no two envelopes name the same receipt. Separately, what
each phase carries is backed by a receipt that was issued, and the comparison of the
body's intent ties the envelope to the intent that was settled.
-/

import Hammurabi.Library.Custody
import Hammurabi.SelfAttack
import Hammurabi.System

namespace Hammurabi

open Custody Runs

/-! ### What a phase holds and what backs it -/

/-- The receipt a request holds: one still to be recorded, or one its guard has burned, up to the
envelope that names it. -/
def Phase.held : Phase → Option String
  | .record receipt _ => some receipt.receiptId
  | .execute _ receipt => some receipt.receiptId
  | .mint receipt _ => some receipt.receiptId
  | .narrate _ _ _ after => after.held
  | .push _ after => after.held
  | .send _ after => after.held
  | .answer response => response.envelope.map fun envelope => envelope.params.receiptId
  | _ => none

/-- The envelope a request was answered with. -/
def Phase.envelope : Phase → Option OneShotEnvelope
  | .answer response => if response.status = 200 then response.envelope else none
  | _ => none

/-- The receipt pays for the envelope: it is the one named, for the intent in it, and the fee is
its amount. -/
structure OneShotEnvelope.PaidBy (envelope : OneShotEnvelope) (receipt : PaymentReceipt) :
    Prop where
  receiptId : envelope.params.receiptId = receipt.receiptId
  intentId : envelope.params.intent.get "intent_id" = some (.string receipt.intentId)
  fee : envelope.params.feeMicroUsdc = receipt.amountMicroUsdc

/-- What a phase carries is a receipt that was issued, and at the mint it is for the intent to be
signed. -/
def Phase.Backed (issued : List PaymentReceipt) : Phase → Prop
  | .record receipt _ => receipt ∈ issued
  | .execute _ receipt => receipt ∈ issued
  | .mint receipt intent => receipt ∈ issued ∧ receipt.intentId = intent.intentId
  | .narrate _ _ _ after => after.Backed issued
  | .push _ after => after.Backed issued
  | .send _ after => after.Backed issued
  | .answer response => ∀ envelope, response.envelope = some envelope →
      ∃ receipt ∈ issued, envelope.PaidBy receipt
  | _ => True

/-- The envelopes answered so far. -/
def System.envelopes (system : System) : List OneShotEnvelope :=
  system.tasks.filterMap Phase.envelope

/-- The receipts settled for an intent. -/
def System.settlementsFor (system : System) (intentId : String) : List PaymentReceipt :=
  system.issued.filter fun receipt => receipt.intentId = intentId

/-- The envelopes whose payload has an intent's id. -/
def System.envelopesFor (system : System) (intentId : String) : List OneShotEnvelope :=
  system.envelopes.filter fun envelope =>
    (envelope.params.intent.get "intent_id").bind Json.Value.asStr = some intentId

/-- More receipts back no less. -/
theorem Phase.Backed.mono {issued : List PaymentReceipt} (more : List PaymentReceipt)
    (phase : Phase) (backed : phase.Backed issued) : phase.Backed (issued ++ more) := by
  induction phase with
  | record receipt now => exact List.mem_append_left more backed
  | execute request receipt => exact List.mem_append_left more backed
  | mint receipt intent => exact ⟨List.mem_append_left more backed.1, backed.2⟩
  | narrate sender kind body after inductionHypothesis => exact inductionHypothesis backed
  | push message after inductionHypothesis => exact inductionHypothesis backed
  | send message after inductionHypothesis => exact inductionHypothesis backed
  | answer response =>
    intro envelope answered
    obtain ⟨receipt, member, paid⟩ := backed envelope answered
    exact ⟨receipt, List.mem_append_left more member, paid⟩
  | feed => exact trivial
  | announce request => exact trivial
  | settle request => exact trivial
  | guard request => exact trivial

/-- What is packaged at the mint is paid by the receipt. -/
theorem paidBy_package (intent : AgentIntent) (credential : EphemeralCredential)
    (receipt : PaymentReceipt) (same : receipt.intentId = intent.intentId) :
    (OneShotEnvelope.package intent.payload credential receipt).PaidBy receipt where
  receiptId := rfl
  intentId := by
    rw [same]
    exact AgentIntent.payload_get_intentId intent
  fee := rfl

/-! ### The account of the receipts -/

/-- What a phase holds, as tokens. -/
def Phase.tokens (phase : Phase) : Multiset String := ↑phase.held.toList

theorem tokens_of_none (phase : Phase) (holds : phase.held = none) (others : Multiset String) :
    phase.tokens + others = others := by
  rw [Phase.tokens, holds]
  exact Multiset.zero_add others

/-- A request that held nothing and now holds one receipt holds that one more. -/
theorem tokens_gained (before after : Phase) (id : String) (nothing : before.held = none)
    (holds : after.held = some id) (others : Multiset String) :
    after.tokens + others = id ::ₘ (before.tokens + others) := by
  rw [tokens_of_none before nothing, Phase.tokens, holds]
  exact Multiset.singleton_add id others

/-- The receipts by their ids: issued, in the hands of requests, and in the treasury. -/
def receiptAccount (gate : X402Gate) (issued : List PaymentReceipt) (held : Multiset String) :
    Account String where
  issued := issued.map PaymentReceipt.receiptId
  held := held
  stored := {id | ∃ receipt, gate.receipts.lookup id = some receipt}

/-- What all requests hold. -/
def System.tokens (system : System) : Multiset String := ↑(system.tasks.filterMap Phase.held)

/-- What one request holds, apart from the others. -/
theorem tokens_split (front back : List Phase) (phase : Phase) :
    (((front ++ phase :: back).filterMap Phase.held : List String) : Multiset String) =
      phase.tokens + ((front ++ back).filterMap Phase.held : List String) := by
  rw [Multiset.coe_eq_coe.mpr (List.perm_middle.filterMap Phase.held), Phase.tokens,
    Multiset.coe_add, List.filterMap_cons]
  cases phase.held with
  | none => rfl
  | some id => rfl

/-! ### One step of one request -/

section Steps

variable (framework : Framework) (primitives : Primitives) (env : Env)

/-- A step that leaves the gate alone and holds no more than before moves nothing. -/
theorem moves_of_quiet (gate : X402Gate) (issued : List PaymentReceipt) (before after : Phase)
    (others : Multiset String) (quiet : before.issues after = [])
    (held : after.held = none ∨ after.held = before.held) :
    Move (receiptAccount gate issued (before.tokens + others))
      (receiptAccount gate (issued ++ before.issues after) (after.tokens + others)) := by
  refine .lose ?_ ?_ fun token stored => stored
  · rw [quiet, List.append_nil]
    rfl
  · refine Multiset.add_le_add_right ?_
    rw [Phase.tokens, Phase.tokens]
    rcases held with none | same
    · rw [none]
      exact Multiset.zero_le _
    · rw [same]

/-- A redemption leaves nothing new in the treasury, and the id it names not at all. -/
theorem stored_redeem (gate : X402Gate) (receiptId intentId id : String)
    (stored : ∃ receipt, (gate.redeem receiptId intentId).2.receipts.lookup id = some receipt) :
    id ≠ receiptId ∧ ∃ receipt, gate.receipts.lookup id = some receipt := by
  obtain ⟨receipt, found⟩ := stored
  rw [X402Gate.lookup_redeem] at found
  exact ⟨found.1, receipt, found.2⟩

/-- An answer without an envelope holds nothing. -/
theorem held_plain (response : Response) (plain : response.envelope = none) :
    (Phase.answer response).held = none := by
  rw [Phase.held, plain]
  rfl

/-- Each step of a request is a move of the receipts. -/
theorem advance_moves (state : HandoffState) (phase : Phase) (issued : List PaymentReceipt)
    (others : Multiset String)
    (fresh : ∀ request, phase = .settle request →
      env.ulid.toString ∉ issued.map PaymentReceipt.receiptId) :
    Move (receiptAccount state.gate issued (phase.tokens + others))
      (receiptAccount (advance framework primitives env state phase).1.gate
        (issued ++ phase.issues (advance framework primitives env state phase).2)
        ((advance framework primitives env state phase).2.tokens + others)) := by
  cases phase with
  | feed => exact moves_of_quiet _ _ _ _ _ rfl (.inl rfl)
  | announce request => exact moves_of_quiet _ _ _ _ _ rfl (.inl rfl)
  | settle request =>
    rcases x402Settle_cases framework env state request with
      ⟨phase, response, plain, comes, rfl | ⟨body, rfl⟩⟩ | ⟨req, receipt, -, settled, comes⟩
    · rw [advance, comes]
      exact moves_of_quiet _ _ _ _ _ rfl (.inl (held_plain response plain))
    · rw [advance, comes]
      exact moves_of_quiet _ _ _ _ _ rfl (.inl (held_plain response plain))
    · obtain rfl := settle_eq_ok _ _ _ _ _ _ settled
      rw [advance, comes]
      exact .issue env.ulid.toString (fresh request rfl) List.map_append
        (tokens_gained (.settle request) _ env.ulid.toString rfl rfl others)
        fun other stored => stored
  | record receipt now =>
    refine .deposit receipt.receiptId ?_ ?_ ?_
    · exact congrArg (List.map PaymentReceipt.receiptId) (List.append_nil issued)
    · exact tokens_gained _ (.record receipt now) receipt.receiptId rfl rfl others
    · rintro other ⟨found, held⟩
      rcases (X402Gate.lookup_record _ _ _ _ _).mp held with ⟨same, -⟩ | ⟨-, before, -⟩
      · exact .inl same
      · exact .inr ⟨found, before⟩
  | guard request =>
    rcases paymentGuard_cases state request with
      ⟨gate, body, gate_eq, comes⟩ | ⟨receiptId, receipt, -, found, -, comes⟩
    · rw [advance, comes]
      refine .lose ?_ (le_of_eq ?_) ?_
      · exact congrArg (List.map PaymentReceipt.receiptId) (List.append_nil issued)
      · exact (tokens_of_none (.answer _) (held_plain _ rfl) others).trans
          (tokens_of_none (.guard request) rfl others).symm
      · rcases gate_eq with rfl | ⟨receiptId, -, rfl⟩
        · exact fun other stored => stored
        · exact fun other stored => (stored_redeem _ _ _ other stored).2
    · have named : receipt.receiptId = receiptId := Treasury.receiptId_of_lookup _ _ _ found
      rw [advance, comes]
      refine .withdraw receiptId ⟨receipt, found⟩ ?_ ?_ (stored_redeem _ _ _)
      · exact congrArg (List.map PaymentReceipt.receiptId) (List.append_nil issued)
      · exact tokens_gained (.guard request) (.execute request receipt) receiptId rfl
          (congrArg some named) others
  | execute request receipt =>
    rcases execute_cases framework state request receipt with
      ⟨response, plain, comes⟩ | ⟨intent, -, -, comes⟩
    · rw [advance, comes]
      exact moves_of_quiet _ _ _ _ _ rfl (.inl (held_plain response plain))
    · rw [advance, comes]
      exact moves_of_quiet _ _ _ _ _ rfl (.inr rfl)
  | mint receipt intent =>
    rcases mintAndPackage_cases primitives env state receipt intent with
      ⟨refusal, body, response, plain, -, comes⟩ | ⟨credential, body, -, comes⟩
    · rw [advance, comes]
      exact moves_of_quiet _ _ _ _ _ rfl (.inl (held_plain response plain))
    · rw [advance, comes]
      exact moves_of_quiet _ _ _ _ _ rfl (.inr rfl)
  | narrate sender kind body after => exact moves_of_quiet _ _ _ _ _ rfl (.inr rfl)
  | push message after => exact moves_of_quiet _ _ _ _ _ rfl (.inr rfl)
  | send message after => exact moves_of_quiet _ _ _ _ _ rfl (.inr rfl)
  | answer response => exact moves_of_quiet _ _ _ _ _ rfl (.inr rfl)

/-- An answer without an envelope needs no backing. -/
theorem backed_plain (response : Response) (plain : response.envelope = none)
    (issued : List PaymentReceipt) : (Phase.answer response).Backed issued := by
  intro envelope answered
  rw [plain] at answered
  cases answered

/-- Every receipt in the treasury was issued. -/
def TreasuryIssued (gate : X402Gate) (issued : List PaymentReceipt) : Prop :=
  ∀ id receipt, gate.receipts.lookup id = some receipt → receipt ∈ issued

theorem treasuryIssued_redeem (gate : X402Gate) (issued : List PaymentReceipt)
    (treasury : TreasuryIssued gate issued) (receiptId intentId : String) :
    TreasuryIssued (gate.redeem receiptId intentId).2 issued :=
  fun id receipt held => treasury id receipt ((X402Gate.lookup_redeem _ _ _ _ _).mp held).2

/-- A step leaves only issued receipts in the treasury. -/
theorem advance_treasury (state : HandoffState) (phase : Phase) (issued : List PaymentReceipt)
    (treasury : TreasuryIssued state.gate issued) (backed : phase.Backed issued) :
    TreasuryIssued (advance framework primitives env state phase).1.gate issued := by
  cases phase with
  | settle request =>
    rcases x402Settle_cases framework env state request with
      ⟨phase, response, -, comes, -⟩ | ⟨req, receipt, -, -, comes⟩
    · rw [advance, comes]
      exact treasury
    · rw [advance, comes]
      exact treasury
  | record recorded now =>
    intro id receipt held
    rcases (X402Gate.lookup_record _ _ _ _ _).mp held with ⟨-, same⟩ | ⟨-, before, -⟩
    · rw [same]
      exact backed
    · exact treasury id receipt before
  | guard request =>
    rcases paymentGuard_cases state request with
      ⟨gate, body, gate_eq, comes⟩ | ⟨receiptId, receipt, -, -, -, comes⟩
    · rw [advance, comes]
      rcases gate_eq with rfl | ⟨receiptId, -, rfl⟩
      · exact treasury
      · exact treasuryIssued_redeem state.gate issued treasury _ _
    · rw [advance, comes]
      exact treasuryIssued_redeem state.gate issued treasury _ _
  | execute request receipt =>
    rwa [(advance_quiet framework primitives env state (.execute request receipt) rfl).1]
  | mint receipt intent =>
    rwa [(advance_quiet framework primitives env state (.mint receipt intent) rfl).1]
  | _ => exact treasury

/-- What a request carries after a step is backed by what was issued by then. -/
theorem advance_backed (state : HandoffState) (phase : Phase) (issued : List PaymentReceipt)
    (treasury : TreasuryIssued state.gate issued) (backed : phase.Backed issued) :
    (advance framework primitives env state phase).2.Backed
      (issued ++ phase.issues (advance framework primitives env state phase).2) := by
  cases phase with
  | feed => exact backed_plain _ rfl _
  | announce request => exact backed_plain _ rfl _
  | settle request =>
    rcases x402Settle_cases framework env state request with
      ⟨phase, response, plain, comes, rfl | ⟨body, rfl⟩⟩ | ⟨req, receipt, -, settled, comes⟩
    · rw [advance, comes]
      exact backed_plain response plain _
    · rw [advance, comes]
      exact backed_plain response plain _
    · rw [advance, comes]
      exact List.mem_append_right _ (List.mem_singleton_self _)
  | record receipt now => exact backed_plain _ rfl _
  | guard request =>
    rcases paymentGuard_cases state request with
      ⟨gate, body, -, comes⟩ | ⟨receiptId, receipt, -, found, -, comes⟩
    · rw [advance, comes]
      exact backed_plain _ rfl _
    · rw [advance, comes]
      exact List.mem_append_left _ (treasury _ receipt found)
  | execute request receipt =>
    rcases execute_cases framework state request receipt with
      ⟨response, plain, comes⟩ | ⟨intent, -, same, comes⟩
    · rw [advance, comes]
      exact backed_plain response plain _
    · rw [advance, comes]
      exact ⟨List.mem_append_left _ backed, same⟩
  | mint receipt intent =>
    have outcome := mintAndPackage_cases primitives env state receipt intent
    rw [advance]
    generalize mintAndPackage primitives env state receipt intent = next at outcome ⊢
    rcases outcome with ⟨refusal, body, response, plain, -, rfl⟩ | ⟨credential, body, -, rfl⟩
    · exact backed_plain response plain _
    · intro envelope answered
      rw [Response.envelope_packaged] at answered
      rw [← Option.some.inj answered]
      exact ⟨receipt, List.mem_append_left _ backed.1, paidBy_package intent _ receipt backed.2⟩
  | narrate sender kind body after => exact Phase.Backed.mono _ after backed
  | push message after => exact Phase.Backed.mono _ after backed
  | send message after => exact Phase.Backed.mono _ after backed
  | answer response => exact Phase.Backed.mono _ (.answer response) backed

end Steps

/-! ### The invariant of the system -/

/-- The receipts are in sound custody, and whatever is held anywhere was issued. -/
structure System.Accounted (system : System) : Prop where
  custody : (receiptAccount system.state.gate system.issued system.tokens).Sound
  treasury : TreasuryIssued system.state.gate system.issued
  backed : ∀ phase ∈ system.tasks, phase.Backed system.issued

theorem accounted_start (backend : SettlementBackend) : (System.start backend).Accounted where
  custody := by
    refine Account.sound_empty.move (.lose rfl le_rfl ?_)
    rintro token ⟨receipt, found⟩
    cases found
  treasury id receipt found := by cases found
  backed phase member := absurd member List.not_mem_nil

/-- A request that has just come in holds nothing. -/
theorem held_handoffRouter (request : Request) : (handoffRouter request).held = none := by
  rw [handoffRouter]
  split_ifs
  all_goals rfl

theorem backed_handoffRouter (request : Request) (issued : List PaymentReceipt) :
    (handoffRouter request).Backed issued := by
  rw [handoffRouter]
  split_ifs
  all_goals first
    | exact trivial
    | exact backed_plain _ rfl _

section Runs

variable (framework : Framework) (primitives : Primitives)

/-- Every step keeps the system accounted. -/
theorem accounted_step (before : System) (action : Action) (after : System)
    (step : before.Step framework primitives action after) (accounted : before.Accounted) :
    after.Accounted := by
  obtain ⟨fresh, rfl⟩ := step
  rcases step_cases framework primitives before action with
    same | ⟨request, arrived⟩ | ⟨index, env, front, phase, back, rfl, found, split, advanced⟩
  · rw [same]
    exact accounted
  · rw [arrived]
    refine ⟨?_, accounted.treasury, ?_⟩
    · have tokens : System.tokens { before with tasks := before.tasks ++ [handoffRouter request] } =
          before.tokens := by
        rw [System.tokens, List.filterMap_append, List.filterMap_cons, held_handoffRouter,
          List.filterMap_nil, List.append_nil]
        rfl
      rw [tokens]
      exact accounted.custody
    · intro phase member
      rcases List.mem_append.mp member with present | new
      · exact accounted.backed phase present
      · rw [List.mem_singleton.mp new]
        exact backed_handoffRouter request before.issued
  · rw [advanced]
    have member : phase ∈ before.tasks := by
      rw [split]
      exact List.mem_append_right _ List.mem_cons_self
    have backed := accounted.backed phase member
    refine ⟨?_, ?_, ?_⟩
    · refine accounted.custody.move ?_
      rw [System.tokens, System.tokens, tokens_split, split, tokens_split]
      refine advance_moves framework primitives env before.state phase before.issued _ ?_
      rintro request rfl
      refine fresh env.ulid.toString ?_
      rw [System.draws, found]
      exact List.mem_singleton_self _
    · intro id receipt held
      exact List.mem_append_left _ (advance_treasury framework primitives env before.state phase
        before.issued accounted.treasury backed id receipt held)
    · intro other present
      rcases List.mem_append.mp present with inFront | inRest
      · refine Phase.Backed.mono _ other (accounted.backed other ?_)
        rw [split]
        exact List.mem_append_left _ inFront
      · rcases List.mem_cons.mp inRest with rfl | inBack
        · exact advance_backed framework primitives env before.state phase before.issued
            accounted.treasury backed
        · refine Phase.Backed.mono _ other (accounted.backed other ?_)
          rw [split]
          exact List.mem_append_right _ (List.mem_cons_of_mem _ inBack)

/-- Wherever a run arrives, the system is accounted. -/
theorem accounted_run (backend : SettlementBackend) (actions : List Action) (final : System)
    (run : Run (System.Step framework primitives) (.start backend) actions final) :
    final.Accounted :=
  run.kept (accounted_step framework primitives) (accounted_start backend)

end Runs

/-! ### What follows for the envelopes -/

/-- A request answered with an envelope holds the receipt it names. -/
theorem held_of_envelope (phase : Phase) (envelope : OneShotEnvelope)
    (answered : phase.envelope = some envelope) :
    phase.held = some envelope.params.receiptId := by
  cases phase with
  | answer response =>
    rw [Phase.envelope, Option.ite_none_right_eq_some] at answered
    rw [Phase.held, answered.2]
    rfl
  | _ => cases answered

/-- The receipts the envelopes name are among those held, each as often. -/
theorem envelopes_sublist (tasks : List Phase) :
    List.Sublist ((tasks.filterMap Phase.envelope).map fun envelope => envelope.params.receiptId)
      (tasks.filterMap Phase.held) := by
  induction tasks with
  | nil => exact List.Sublist.slnil
  | cons phase tasks inductionHypothesis =>
    cases answered : phase.envelope with
    | none =>
      rw [List.filterMap_cons_none answered]
      cases holds : phase.held with
      | none =>
        rw [List.filterMap_cons_none holds]
        exact inductionHypothesis
      | some id =>
        rw [List.filterMap_cons_some holds]
        exact inductionHypothesis.cons id
    | some envelope =>
      rw [List.filterMap_cons_some answered,
        List.filterMap_cons_some (held_of_envelope phase envelope answered)]
      exact inductionHypothesis.cons_cons _

namespace System.Accounted

variable {system : System}

theorem lookup_of_held (accounted : system.Accounted) (phase : Phase)
    (member : phase ∈ system.tasks) (id : String) (holds : phase.held = some id) :
    system.state.gate.receipts.lookup id = none := by
  cases found : system.state.gate.receipts.lookup id with
  | none => rfl
  | some receipt =>
    exact absurd ⟨receipt, found⟩ (accounted.custody.held_not_stored id
      (Multiset.mem_coe.mpr (List.mem_filterMap.mpr ⟨phase, member, holds⟩)))

theorem paidBy (accounted : system.Accounted) (envelope : OneShotEnvelope)
    (answered : envelope ∈ system.envelopes) :
    ∃ receipt ∈ system.issued, envelope.PaidBy receipt := by
  obtain ⟨phase, member, here⟩ := List.mem_filterMap.mp answered
  cases phase with
  | answer response =>
    rw [Phase.envelope, Option.ite_none_right_eq_some] at here
    exact accounted.backed _ member envelope here.2
  | _ => cases here

theorem envelopes_nodup (accounted : system.Accounted) :
    (system.envelopes.map fun envelope => envelope.params.receiptId).Nodup :=
  (envelopes_sublist system.tasks).nodup (Multiset.coe_nodup.mp accounted.custody.held_nodup)

/-- The envelopes for an intent name different receipts, all settled for it. -/
theorem envelopesFor_le (accounted : system.Accounted) (intentId : String) :
    (system.envelopesFor intentId).length ≤ (system.settlementsFor intentId).length := by
  suffices named : List.Subperm
      ((system.envelopesFor intentId).map fun envelope => envelope.params.receiptId)
      ((system.settlementsFor intentId).map PaymentReceipt.receiptId) by
    have lengths := named.length_le
    rwa [List.length_map, List.length_map] at lengths
  refine List.subperm_of_subset ?_ ?_
  · exact (List.filter_sublist.map _).nodup accounted.envelopes_nodup
  · intro id named
    obtain ⟨envelope, chosen, rfl⟩ := List.mem_map.mp named
    obtain ⟨answered, same⟩ := List.mem_filter.mp chosen
    obtain ⟨receipt, issued, paid⟩ := accounted.paidBy envelope answered
    refine List.mem_map.mpr ⟨receipt, List.mem_filter.mpr ⟨issued, ?_⟩, paid.receiptId.symm⟩
    rw [decide_eq_true_iff, paid.intentId] at same
    exact decide_eq_true (Option.some.inj same)

end System.Accounted

/-- Pay before mint: in every state that requests can reach, in whatever order they take their
steps, every envelope is paid for by a receipt issued for its intent, no two envelopes name the
same receipt, nothing that an envelope names or a request holds is in the treasury, and no intent
has more envelopes than settlements. -/
theorem pay_before_mint (framework : Framework) (primitives : Primitives)
    (backend : SettlementBackend) (actions : List Action) (final : System)
    (run : Run (System.Step framework primitives) (.start backend) actions final) :
    (∀ envelope ∈ final.envelopes, ∃ receipt ∈ final.issued, envelope.PaidBy receipt) ∧
    (final.envelopes.map fun envelope => envelope.params.receiptId).Nodup ∧
    (∀ envelope ∈ final.envelopes,
      final.state.gate.receipts.lookup envelope.params.receiptId = none) ∧
    (∀ phase ∈ final.tasks, ∀ id, phase.held = some id →
      final.state.gate.receipts.lookup id = none) ∧
    ∀ intentId,
      (final.envelopesFor intentId).length ≤ (final.settlementsFor intentId).length := by
  have accounted := accounted_run framework primitives backend actions final run
  refine ⟨accounted.paidBy, accounted.envelopes_nodup, ?_, ?_, accounted.envelopesFor_le⟩
  · intro envelope answered
    obtain ⟨phase, member, here⟩ := List.mem_filterMap.mp answered
    exact accounted.lookup_of_held phase member _ (held_of_envelope phase envelope here)
  · intro phase member id holds
    exact accounted.lookup_of_held phase member id holds

/-- A settled mock intent is executed by a request of its own, up to the answer with its
envelope. -/
theorem exists_executedSystem :
    let intent := AgentIntent.mockEthLimitOrder plainEnv.ulid
    let receipt := PaymentReceipt.cleared plainEnv.ulid intent.intentId 7
    ∃ marked actions credential state, Run (System.Step plainFramework (markingPrimitives marked))
      (.start .mock) actions
      ⟨state, (settledSystem receipt).tasks ++
        [.answer ⟨200, .envelope (.package intent.payload credential receipt)⟩], [receipt]⟩ := by
  intro intent receipt
  obtain ⟨marked, ideal⟩ := exists_idealMint intent 7
  obtain ⟨canonical, chaos, minted⟩ := mint_payload (markingPrimitives marked) intent receipt 7
    plainEntropy ideal
  have settled := run_settledSystem plainFramework (markingPrimitives marked)
    plainFramework_readsBack intent.intentId plainEnv (by decide)
  obtain ⟨request, built⟩ := exists_mintingRequest intent receipt.receiptId
    (visible_ulid plainEnv.ulid) (visible_ulid plainEnv.ulid)
  obtain ⟨post, uri, -⟩ := buildRequest_eq_some _ _ _ _ request built
  obtain ⟨header, -, presented⟩ := headerStr?_minting intent receipt.receiptId request built
  have arrives := run_arrival plainFramework (markingPrimitives marked) (settledSystem receipt)
    (.command (.requestExecution intent.payload (some receipt.receiptId))) request built
  rw [handoffRouter_execute request uri] at arrives
  obtain ⟨body, executes⟩ := run_execution plainFramework (markingPrimitives marked)
    { settledSystem receipt with tasks := (settledSystem receipt).tasks ++ [.guard request] } 1
    plainEnv request intent receipt _ rfl post (header (visible_ulid plainEnv.ulid))
    (presented (visible_ulid plainEnv.ulid)) (extractJson_minting plainFramework
      plainFramework_readsBack intent receipt.receiptId request built (by decide +kernel)) rfl rfl
    minted
  have tells := executes.append
    (run_post plainFramework (markingPrimitives marked) _ 1 plainEnv _ _ _ _ rfl)
  have stages := tells.append
    (run_post plainFramework (markingPrimitives marked) _ 1 plainEnv _ _ _ _ rfl)
  exact ⟨marked, _, _, _, (settled.append arrives).append stages⟩

/-- The envelope of the mock intent is paid for by its receipt, which is gone from the treasury. -/
theorem pay_before_mint_executed :
    let intentId := plainEnv.ulid.toString
    ∃ (final : System) (envelope : OneShotEnvelope), final.envelopes = [envelope] ∧
      (∃ receipt ∈ final.issued, envelope.PaidBy receipt) ∧
      final.state.gate.receipts.lookup envelope.params.receiptId = none ∧
      (final.envelopesFor intentId).length ≤ (final.settlementsFor intentId).length ∧
      (final.settlementsFor intentId).length = 1 := by
  intro intentId
  obtain ⟨marked, actions, credential, state, run⟩ := exists_executedSystem
  obtain ⟨paid, -, gone, -, atMost⟩ :=
    pay_before_mint plainFramework (markingPrimitives marked) .mock actions _ run
  exact ⟨_, _, rfl, paid _ List.mem_cons_self, gone _ List.mem_cons_self, atMost intentId, rfl⟩

end Hammurabi
