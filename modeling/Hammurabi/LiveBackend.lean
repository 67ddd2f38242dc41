/-
This file is the live backend of the gate.

The gate's backend settles in one go, with a client that answers each request by the payment
alone. A settlement of the live client is four steps, with any others in between. As long as no
reply is lost and the facilitator answers by the request, what a settlement gives at its end is
what the backend gives in one go. Whatever it is answered, it comes to its end within four steps of
its own.
-/

import Hammurabi.Facilitator

namespace Hammurabi

open Json Outcome Runs

/-! ### A settlement in one go -/

/-- A facilitator whose answers depend on the request alone, as the client of the gate's backend. -/
def FacilitatorConfig.client (config : FacilitatorConfig) (wire : Wire)
    (answers : FacilitatorRequest → FacilitatorReply) : FacilitatorClient where
  verify payment :=
    (answers (config.request .verify payment)).read wire .verify VerifyResponse.fromJson
  settle payment :=
    (answers (config.request .settle payment)).read wire .settle SettleResponse.fromJson

/-- A client that is given the same two replies for every payment. -/
def replying (wire : Wire) (verifyReply settleReply : FacilitatorReply) : FacilitatorClient where
  verify _ := verifyReply.read wire .verify VerifyResponse.fromJson
  settle _ := settleReply.read wire .settle SettleResponse.fromJson

/-- Settling reads what the client answers to the payment, to the second request only once the first
has found it valid. -/
theorem settleIntent_congr (client other : FacilitatorClient) (intentId : String)
    (payment : Value) (now : Int64) (ulid : Ulid)
    (verifies : client.verify payment = other.verify payment)
    (settles : ∀ verify, client.verify payment = .ok verify → verify.isValid = true →
      client.settle payment = other.settle payment) :
    client.settleIntent intentId payment now ulid =
      other.settleIntent intentId payment now ulid := by
  rw [FacilitatorClient.settleIntent, FacilitatorClient.settleIntent, ← verifies]
  cases read : client.verify payment with
  | error refusal => rfl
  | ok verify =>
    cases valid : verify.isValid with
    | false => simp [valid, bind, Except.bind, throw, throwThe, MonadExceptOf.throw]
    | true => rw [settles verify read valid]

/-- What a call has heard is what the facilitator answered it: its stage follows from exchanges for
its payment, and its result is that of settling in one go with the replies they had. -/
def SettleCall.Explained (wire : Wire) (exchanges : List Exchange) (call : SettleCall) : Prop :=
  match call.stage with
  | .verify => True
  | .verifyReply reply => ⟨.verify, call.payment, reply⟩ ∈ exchanges
  | .settle => ∃ reply, ⟨.verify, call.payment, reply⟩ ∈ exchanges ∧
      reply.validates wire = true
  | .settleReply settleReply =>
    (∃ reply, ⟨.verify, call.payment, reply⟩ ∈ exchanges ∧ reply.validates wire = true) ∧
      ⟨.settle, call.payment, settleReply⟩ ∈ exchanges
  | .done result => ∃ ulid verifyReply settleReply,
      ⟨.verify, call.payment, verifyReply⟩ ∈ exchanges ∧
      (verifyReply.validates wire = true → ⟨.settle, call.payment, settleReply⟩ ∈ exchanges) ∧
      result = (replying wire verifyReply settleReply).settleIntent call.intentId call.payment
        call.now ulid

section Refinement

variable (wire : Wire)

/-- Later exchanges take nothing back. -/
theorem explained_mono (exchanges more : List Exchange) (call : SettleCall)
    (explained : call.Explained wire exchanges) : call.Explained wire (exchanges ++ more) := by
  obtain ⟨intentId, payment, now, stage⟩ := call
  cases stage with
  | verify => trivial
  | verifyReply reply => exact List.mem_append_left _ explained
  | settle =>
    obtain ⟨reply, inside, valid⟩ := explained
    exact ⟨reply, List.mem_append_left _ inside, valid⟩
  | settleReply settleReply =>
    obtain ⟨⟨reply, inside, valid⟩, settled⟩ := explained
    exact ⟨⟨reply, List.mem_append_left _ inside, valid⟩, List.mem_append_left _ settled⟩
  | done result =>
    obtain ⟨ulid, verifyReply, settleReply, inside, settled, same⟩ := explained
    exact ⟨ulid, verifyReply, settleReply, List.mem_append_left _ inside,
      fun valid => List.mem_append_left _ (settled valid), same⟩

/-- What was asked for the call is among the exchanges. -/
theorem explained_answered (exchanges : List Exchange) (call : SettleCall) (endpoint : Endpoint)
    (reply : FacilitatorReply) (sends : call.endpoint? = some endpoint)
    (explained : call.Explained wire exchanges) :
    (call.answered reply).Explained wire
      (exchanges ++ [⟨endpoint, call.payment, reply⟩]) := by
  obtain ⟨intentId, payment, now, stage⟩ := call
  cases stage with
  | verify =>
    cases sends
    exact List.mem_append_right _ List.mem_cons_self
  | settle =>
    cases sends
    obtain ⟨verifyReply, inside, valid⟩ := explained
    exact ⟨⟨verifyReply, List.mem_append_left _ inside, valid⟩,
      List.mem_append_right _ List.mem_cons_self⟩
  | _ => cases sends

/-- Settling in one go with replies that refuse the payment. -/
theorem settleIntent_refused (intentId : String) (payment : Value) (now : Int64) (ulid : Ulid)
    (reply settleReply : FacilitatorReply) :
    (∀ refusal, reply.read wire .verify VerifyResponse.fromJson = .error refusal →
      (replying wire reply settleReply).settleIntent intentId payment now ulid =
        .error refusal) ∧
    ∀ verify, reply.read wire .verify VerifyResponse.fromJson = .ok verify →
      verify.isValid = false →
      (replying wire reply settleReply).settleIntent intentId payment now ulid =
        .error (.rejected (verify.invalidReason.getD "payment failed verification")) := by
  constructor
  · intro refusal read
    simp [FacilitatorClient.settleIntent, replying, read, bind, Except.bind]
  · intro verify read valid
    simp [FacilitatorClient.settleIntent, replying, read, valid, bind, Except.bind, throw, throwThe,
      MonadExceptOf.throw]

/-- Settling in one go with a payment found valid does what the second reply says. -/
theorem settleIntent_validated (call : SettleCall) (ulid : Ulid)
    (reply settleReply : FacilitatorReply) (valid : reply.validates wire = true) :
    (replying wire reply settleReply).settleIntent call.intentId call.payment call.now ulid =
      call.concluded ulid (settleReply.read wire .settle SettleResponse.fromJson) := by
  unfold FacilitatorReply.validates at valid
  cases read : reply.read wire .verify VerifyResponse.fromJson with
  | error refusal => simp [read] at valid
  | ok verify =>
    rw [read] at valid
    simp only [FacilitatorClient.settleIntent, replying, read, valid, bind, Except.bind]
    cases settleReply.read wire .settle SettleResponse.fromJson with
    | error refusal => rfl
    | ok settle =>
      obtain ⟨success, transaction, errorReason⟩ := settle
      cases success <;> rfl

/-- A call that reads its reply goes on as settling in one go does. -/
theorem explained_resume (exchanges : List Exchange) (call : SettleCall) (ulid : Ulid)
    (waits : call.reply?.isSome = true) (explained : call.Explained wire exchanges) :
    (call.resume wire ulid).Explained wire exchanges := by
  obtain ⟨intentId, payment, now, stage⟩ := call
  cases stage with
  | verifyReply reply =>
    obtain ⟨fails, rejects⟩ := settleIntent_refused wire intentId payment now ulid reply reply
    cases read : reply.read wire .verify VerifyResponse.fromJson with
    | error refusal =>
      have refused : (SettleCall.mk intentId payment now (.verifyReply reply)).resume wire ulid =
          ⟨intentId, payment, now, .done (.error refusal)⟩ := by simp [SettleCall.resume, read]
      rw [refused]
      refine ⟨ulid, reply, reply, explained, fun valid => ?_, (fails refusal read).symm⟩
      simp [FacilitatorReply.validates, read] at valid
    | ok verify =>
      cases valid : verify.isValid with
      | false =>
        have refused : (SettleCall.mk intentId payment now (.verifyReply reply)).resume wire ulid =
            ⟨intentId, payment, now, .done (.error (.rejected
              (verify.invalidReason.getD "payment failed verification")))⟩ := by
          simp [SettleCall.resume, read, valid]
        rw [refused]
        refine ⟨ulid, reply, reply, explained, fun found => ?_, (rejects verify read valid).symm⟩
        simp [FacilitatorReply.validates, read, valid] at found
      | true =>
        have goesOn : (SettleCall.mk intentId payment now (.verifyReply reply)).resume wire ulid =
            ⟨intentId, payment, now, .settle⟩ := by simp [SettleCall.resume, read, valid]
        rw [goesOn]
        exact ⟨reply, explained, by simp [FacilitatorReply.validates, read, valid]⟩
  | settleReply settleReply =>
    obtain ⟨⟨reply, inside, valid⟩, settled⟩ := explained
    exact ⟨ulid, reply, settleReply, inside, fun _ => settled,
      (settleIntent_validated wire ⟨intentId, payment, now, .settleReply settleReply⟩ ulid reply
        settleReply valid).symm⟩
  | _ => cases waits

/-- A step that loses no reply explains every call by the exchanges there are after it. -/
theorem explained_step (before : Settlements) (action : SettlementAction) (after : Settlements)
    (step : before.Step wire action after) (kept : ∀ index why, action ≠ .lose index why)
    (explained : ∀ call ∈ before.calls, call.Explained wire before.exchanges) :
    ∀ call ∈ after.calls, call.Explained wire after.exchanges := by
  rcases settlements_cases wire before after action step with
    ⟨intentId, payment, now, rfl⟩ |
    ⟨index, front, call, back, next, exchanges, lost, found, calls, rfl, kinds⟩
  · exact forall_mem_added before.calls _ explained trivial
  · have own := explained call (List.mem_of_getElem? found)
    have changed : next.Explained wire (before.exchanges ++ exchanges) := by
      rcases kinds with
        ⟨endpoint, reply, rfl, sends, rfl, rfl, rfl⟩ | ⟨why, rfl, -⟩ |
        ⟨ulid, rfl, waits, rfl, rfl, rfl⟩
      · exact explained_answered wire before.exchanges call endpoint reply sends own
      · exact absurd rfl (kept index why)
      · rw [List.append_nil]
        exact explained_resume wire before.exchanges call ulid waits own
    have still : ∀ other ∈ front ++ call :: back,
        other.Explained wire (before.exchanges ++ exchanges) := fun other member =>
      explained_mono wire _ _ other (explained other (calls ▸ member))
    exact forall_mem_replaced front back call next still changed

/-! ### Settlements come to an end -/

/-- How many steps a call is away from its result, at most. -/
def SettleCall.distance (call : SettleCall) : Nat :=
  match call.stage with
  | .verify => 4
  | .verifyReply _ => 3
  | .settle => 2
  | .settleReply _ => 1
  | .done _ => 0

/-- A step of the call at an index: what it sent is answered, or it reads its reply. -/
def SettlementAction.own (index : Nat) : SettlementAction → Bool
  | .serve other _ => other = index
  | .resume other _ => other = index
  | _ => false

/-- An answer brings a call one step nearer to its result. -/
theorem distance_answered (call : SettleCall) (endpoint : Endpoint) (reply : FacilitatorReply)
    (sends : call.endpoint? = some endpoint) :
    (call.answered reply).distance + 1 = call.distance ∧
      call.answered reply = { call with stage := (call.answered reply).stage } := by
  obtain ⟨intentId, payment, now, stage⟩ := call
  cases stage with
  | verify => exact ⟨rfl, rfl⟩
  | settle => exact ⟨rfl, rfl⟩
  | _ => cases sends

/-- A reply that is lost does not. -/
theorem distance_lose (call : SettleCall) (why : String) :
    (call.lose why).distance = call.distance ∧
      call.lose why = { call with stage := (call.lose why).stage } := by
  obtain ⟨intentId, payment, now, stage⟩ := call
  cases stage <;> exact ⟨rfl, rfl⟩

/-- A call that reads its reply comes nearer to its result, whatever the reply is. -/
theorem distance_resume (call : SettleCall) (ulid : Ulid) (waits : call.reply?.isSome = true) :
    (call.resume wire ulid).distance + 1 ≤ call.distance ∧
      call.resume wire ulid = { call with stage := (call.resume wire ulid).stage } := by
  have away : 1 ≤ call.distance := by
    obtain ⟨intentId, payment, now, stage⟩ := call
    cases stage with
    | verifyReply reply => exact Nat.le_add_left 1 2
    | settleReply reply => exact Nat.le_refl 1
    | _ => cases waits
  rcases resume_cases wire call ulid waits with
    ⟨-, -, refusal, read⟩ | ⟨cleared, -, read⟩ | ⟨-, -, read⟩
  · rw [read]
    exact ⟨away, rfl⟩
  · -- only a call that was told that its payment is valid goes on
    rw [read]
    obtain ⟨intentId, payment, now, stage⟩ := call
    cases stage with
    | verifyReply reply => exact ⟨Nat.le_refl 3, rfl⟩
    | settleReply reply => cases cleared
    | _ => cases waits
  · rw [read]
    exact ⟨away, rfl⟩

/-- What a step does to the call at an index, by what it does to the one it is about. -/
theorem call_set (calls : List SettleCall) (index other : Nat) (call mover next : SettleCall)
    (found : calls[index]? = some call) (moves : calls[other]? = some mover) (own : Bool)
    (mine : own = true → other = index)
    (nearer : next.distance + own.toNat ≤ mover.distance)
    (same : next = { mover with stage := next.stage }) :
    ∃ stage, (calls.set other next)[index]? = some { call with stage := stage } ∧
      SettleCall.distance { call with stage := stage } + own.toNat ≤ call.distance := by
  by_cases here : other = index
  · subst here
    obtain rfl := Option.some.inj (found.symm.trans moves)
    have inside := (List.getElem?_eq_some_iff.mp found).1
    refine ⟨next.stage, ?_, ?_⟩
    · rw [List.getElem?_set_self inside, ← same]
    · rw [← same]
      exact nearer
  · have others : own = false := Bool.eq_false_iff.mpr fun owns => here (mine owns)
    refine ⟨call.stage, ?_, ?_⟩
    · rw [List.getElem?_set_ne here]
      exact found
    · rw [others]
      exact Nat.le_refl _

/-- A step of its own brings a call nearer to its result, whatever it is answered, and no step takes
it further away or changes what it is for. -/
theorem call_distance_step (before : Settlements) (action : SettlementAction) (after : Settlements)
    (step : before.Step wire action after) (index : Nat) (call : SettleCall)
    (found : before.calls[index]? = some call) :
    ∃ stage, after.calls[index]? = some { call with stage := stage } ∧
      SettleCall.distance { call with stage := stage } + (action.own index).toNat ≤
        call.distance := by
  rw [Settlements.Step] at step
  cases action with
  | call intentId payment now =>
    obtain rfl := Option.some.inj step
    have inside := (List.getElem?_eq_some_iff.mp found).1
    exact ⟨call.stage, (List.getElem?_append_left inside).trans found, Nat.le_refl _⟩
  | serve other reply =>
    simp only [Settlements.step, Option.bind_eq_bind, Option.bind_eq_some_iff, Option.pure_def,
      Option.some.injEq] at step
    obtain ⟨mover, moves, endpoint, sends, rfl⟩ := step
    obtain ⟨nearer, same⟩ := distance_answered mover endpoint reply sends
    refine call_set before.calls index other call mover _ found moves _ of_decide_eq_true ?_ same
    have once := Bool.toNat_le (SettlementAction.own index (.serve other reply))
    omega
  | lose other why =>
    simp only [Settlements.step, Option.bind_eq_bind, Option.bind_eq_some_iff, Option.pure_def,
      Option.some.injEq] at step
    obtain ⟨mover, moves, -, -, rfl⟩ := step
    obtain ⟨still, same⟩ := distance_lose mover why
    exact call_set before.calls index other call mover _ found moves false
      (fun own => absurd own Bool.false_ne_true) still.le same
  | resume other ulid =>
    simp only [Settlements.step, Option.bind_eq_bind, Option.bind_eq_some_iff, Option.pure_def,
      Option.some.injEq] at step
    obtain ⟨mover, moves, reply, waits, rfl⟩ := step
    obtain ⟨nearer, same⟩ :=
      distance_resume wire mover ulid (Option.isSome_iff_exists.mpr ⟨reply, waits⟩)
    refine call_set before.calls index other call mover _ found moves _ of_decide_eq_true ?_ same
    have once := Bool.toNat_le (SettlementAction.own index (.resume other ulid))
    omega

/-- So in a run, with each of its own steps. -/
theorem call_distance_run (before : Settlements) (actions : List SettlementAction)
    (after : Settlements) (run : Run (Settlements.Step wire) before actions after) (index : Nat)
    (call : SettleCall) (found : before.calls[index]? = some call) :
    ∃ stage, after.calls[index]? = some { call with stage := stage } ∧
      SettleCall.distance { call with stage := stage } +
        actions.countP (SettlementAction.own index) ≤ call.distance := by
  induction run generalizing call with
  | stop settlements => exact ⟨call.stage, found, Nat.le_refl _⟩
  | @step before middle _ action actions first rest inductionHypothesis =>
    obtain ⟨stage, moved, nearer⟩ :=
      call_distance_step wire before action middle first index call found
    obtain ⟨last, arrived, rest⟩ := inductionHypothesis _ moved
    refine ⟨last, arrived, ?_⟩
    have counted : (action :: actions).countP (SettlementAction.own index) =
        actions.countP (SettlementAction.own index) + (action.own index).toNat := by
      rw [List.countP_cons]
      cases action.own index <;> rfl
    rw [counted]
    dsimp only at rest
    omega

/-- How every call of the settlements comes to its result. -/
structure Settlements.Ends (settlements : Settlements) : Prop where
  /-- It is done, or can be answered by whatever reply there is, or can read the reply it has. -/
  goesOn : ∀ index call, settlements.calls[index]? = some call →
    (∃ result, call.stage = .done result) ∨
      (∀ reply, ∃ after, settlements.Step wire (.serve index reply) after) ∨
      ∀ ulid, ∃ after, settlements.Step wire (.resume index ulid) after
  /-- Once it has taken as many steps as it is away, four at most, it is done, whatever the replies
  are and whatever the other calls do. -/
  ends : ∀ actions after, Run (Settlements.Step wire) settlements actions after →
    ∀ index call, settlements.calls[index]? = some call → call.distance ≤ 4 ∧
      (call.distance ≤ actions.countP (SettlementAction.own index) →
        ∃ result, after.calls[index]? = some { call with stage := .done result })
  /-- A settlement that is confirmed gives the receipt of its call. -/
  confirms : ∀ index call reply ulid, settlements.calls[index]? = some call →
    call.stage = .settleReply reply → reply.confirms wire = true →
      ∃ after, settlements.Step wire (.resume index ulid) after ∧ after.calls[index]? =
        some { call with stage := .done (.ok (.cleared ulid call.intentId call.now)) }

theorem settlements_end (settlements : Settlements) : settlements.Ends wire := by
  have reads : ∀ index call reply ulid, settlements.calls[index]? = some call →
      call.reply? = some reply → settlements.Step wire (.resume index ulid) { settlements with
        calls := settlements.calls.set index (call.resume wire ulid) } := by
    intro index call reply ulid found waits
    simp [Settlements.Step, Settlements.step, found, waits]
  have sends : ∀ index call endpoint, settlements.calls[index]? = some call →
      call.endpoint? = some endpoint →
      ∀ reply, ∃ after, settlements.Step wire (.serve index reply) after := by
    intro index call endpoint found sending reply
    simp [Settlements.Step, Settlements.step, found, sending]
  constructor
  · intro index call found
    cases stage : call.stage with
    | verify =>
      exact .inr (.inl (sends index call .verify found (by rw [SettleCall.endpoint?, stage])))
    | settle =>
      exact .inr (.inl (sends index call .settle found (by rw [SettleCall.endpoint?, stage])))
    | verifyReply reply =>
      exact .inr (.inr fun ulid =>
        ⟨_, reads index call reply ulid found (by rw [SettleCall.reply?, stage])⟩)
    | settleReply reply =>
      exact .inr (.inr fun ulid =>
        ⟨_, reads index call reply ulid found (by rw [SettleCall.reply?, stage])⟩)
    | done result => exact .inl ⟨result, rfl⟩
  · intro actions after run index call found
    refine ⟨?_, fun enough => ?_⟩
    · rw [SettleCall.distance]
      split <;> decide
    · obtain ⟨stage, arrived, nearer⟩ :=
        call_distance_run wire settlements actions after run index call found
      have none : SettleCall.distance { call with stage := stage } = 0 := by omega
      cases stage with
      | done result => exact ⟨result, arrived⟩
      | _ => cases none
  · intro index call reply ulid found stage confirmed
    refine ⟨_, reads index call reply ulid found (by rw [SettleCall.reply?, stage]), ?_⟩
    have inside := (List.getElem?_eq_some_iff.mp found).1
    have unread : call.unread wire = [call.payment] := by
      rw [SettleCall.unread, stage]
      exact if_pos confirmed
    dsimp only
    rw [List.getElem?_set_self inside]
    rcases resume_cases wire call ulid (by rw [SettleCall.reply?, stage]; rfl) with
      ⟨-, none, -⟩ | ⟨-, none, -⟩ | ⟨-, -, read⟩
    · cases none.symm.trans unread
    · cases none.symm.trans unread
    · rw [read]

end Refinement

/-- However settlements run side by side, as long as no reply is lost and the facilitator answers by
the request alone, each call that is done gives what the gate's backend gives in one go, under some
new id. Whatever is answered or lost from then on, a call can always go on, is done after four steps
of its own, and gives its receipt when the settlement is confirmed. -/
theorem settlements_refine (config : FacilitatorConfig) (wire : Wire)
    (answers : FacilitatorRequest → FacilitatorReply) (actions : List SettlementAction)
    (final : Settlements) (run : Run (Settlements.Step wire) .start actions final)
    (kept : ∀ action ∈ actions, ∀ index why, action ≠ .lose index why)
    (answered : ∀ exchange ∈ final.exchanges,
      exchange.reply = answers (config.request exchange.endpoint exchange.payment)) :
    (∀ call ∈ final.calls, ∀ result, call.stage = .done result → ∃ ulid, result =
      (SettlementBackend.facilitator (config.client wire answers)).settle call.intentId
        (some call.payment) call.now ulid) ∧
    final.Ends wire := by
  have explained : ∀ call ∈ final.calls, call.Explained wire final.exchanges :=
    run.kept_of_allowed
      (fun before action after step kept explained =>
        explained_step wire before action after step kept explained)
      kept fun call none => absurd none List.not_mem_nil
  refine ⟨fun call member result done => ?_, settlements_end wire final⟩
  have own := explained call member
  rw [SettleCall.Explained, done] at own
  obtain ⟨ulid, verifyReply, settleReply, verified, settled, rfl⟩ := own
  refine ⟨ulid, ?_⟩
  have first : verifyReply = answers (config.request .verify call.payment) :=
    answered _ verified
  refine settleIntent_congr _ (config.client wire answers) _ _ _ _ ?_ ?_
  · rw [first]
    rfl
  · intro verify read valid
    have second : settleReply = answers (config.request .settle call.payment) := by
      refine answered _ (settled ?_)
      rw [FacilitatorReply.validates, show verifyReply.read wire .verify VerifyResponse.fromJson =
        .ok verify from read]
      exact valid
    rw [second]
    rfl

/-- So for two settlements of one payment with a facilitator that confirms everything: the one that
is done gave its receipt, and the one whose confirmation is on its way gives its own, or is done
without one when the confirmation is lost. -/
theorem settlements_refine_two :
    let config : FacilitatorConfig := ⟨"https://x402/", "net", "usdc", "vault", "exact", "/", none⟩
    (∃ ulid, Except.ok (.cleared .nil "b" 8) =
      (SettlementBackend.facilitator (config.client plainWire generousReply)).settle "b"
        (some .null) 8 ulid) ∧
    (∃ after, (twoSettled (generousReply ⟨"", none, .null⟩)).Step plainWire (.resume 0 .nil) after ∧
      after.calls[0]? = some ⟨"a", .null, 7, .done (.ok (.cleared .nil "a" 7))⟩) ∧
    ∀ after, Run (Settlements.Step plainWire) (twoSettled (generousReply ⟨"", none, .null⟩))
      [.lose 0 "closed", .resume 0 .nil] after →
        ∃ result, after.calls[0]? = some ⟨"a", .null, 7, .done result⟩ := by
  intro config
  obtain ⟨gives, ends⟩ := settlements_refine config plainWire generousReply _ _
    (run_twoSettled ⟨"", none, .null⟩)
    (by simp [twoSettlements]) (by simp [twoSettled, generousReply])
  exact ⟨gives _ (List.mem_cons_of_mem _ List.mem_cons_self) _ rfl,
    ends.confirms 0 _ _ .nil rfl rfl rfl,
    fun after run => (ends.ends _ after run 0 _ rfl).2 (by decide)⟩

end Hammurabi
