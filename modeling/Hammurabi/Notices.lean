/-
This file is about what the lines of the feed say: which receipts they name, and which
lines a request still has to log.

Two texts name a receipt: the notice of its payment, and the notice that it was refused.
An intent's id or an agent's handle that a line quotes is a client's own text and names
none. The first notice comes only of a recording; the second repeats what a client
presented. So if clients present ids of which a payment was told, that is all that the
feed ever names. A request logs one line at most of each kind, and a settlement line only
after its credential line.
-/

import Hammurabi.System

namespace Hammurabi

/-! ### Lines that name a receipt -/

/-- The notice of a payment. -/
def paymentNotice (intentId receiptId : String) : String :=
  s!"x402 payment of 0.50 USDC settled for intent {intentId} — receipt " ++ s!"{receiptId}."

/-- The notice that a receipt was refused. -/
def refusalNotice (receiptId : String) (e : X402Error) : String :=
  s!"Receipt {receiptId} refused: {e.toString}. {x402RestrictionNotice}"

/-- A text names a receipt. -/
def Names (body id : String) : Prop :=
  (∃ intentId, body = paymentNotice intentId id) ∨ ∃ e, body = refusalNotice id e

/-- A line tells of the payment of a receipt. -/
def Tells (kind : MeshEventKind) (body id : String) : Prop :=
  kind = .payment ∧ ∃ intentId, body = paymentNotice intentId id

theorem toList_paymentNotice (intentId receiptId : String) :
    (paymentNotice intentId receiptId).toList =
      "x402 payment of 0.50 USDC settled for intent ".toList ++ (intentId.toList ++
        (" — receipt ".toList ++ (receiptId.toList ++ ".".toList))) := by
  have parts : paymentNotice intentId receiptId =
      "x402 payment of 0.50 USDC settled for intent " ++ intentId ++ " — receipt " ++
        (receiptId ++ ".") := rfl
  simp only [parts, String.toList_append, List.append_assoc]

theorem toList_refusalNotice (receiptId : String) (e : X402Error) :
    (refusalNotice receiptId e).toList =
      "Receipt ".toList ++ (receiptId.toList ++ (" refused: ".toList ++ e.toString.toList) ++
        (". ".toList ++ x402RestrictionNotice.toList)) := by
  have parts : refusalNotice receiptId e =
      "Receipt " ++ receiptId ++ " refused: " ++ e.toString ++ ". " ++ x402RestrictionNotice := rfl
  simp only [parts, String.toList_append, List.append_assoc]

/-- Of ids of one length, a payment notice names one only. -/
theorem paymentNotice_inj (intentId otherIntent id other : String)
    (lengths : id.toList.length = other.toList.length)
    (same : paymentNotice intentId id = paymentNotice otherIntent other) : id = other := by
  have texts := congrArg String.toList same
  rw [toList_paymentNotice, toList_paymentNotice] at texts
  have ends := (List.append_inj' (List.append_cancel_left texts) (by simp [lengths])).2
  exact String.toList_inj.mp (List.append_cancel_right (List.append_cancel_left ends))

/-- How a refusal ends tells its reason. -/
theorem reason_inj (id other : List Char) (e refusal : X402Error)
    (same : id ++ (" refused: ".toList ++ e.toString.toList) =
      other ++ (" refused: ".toList ++ refusal.toString.toList)) : e = refusal := by
  have ends := congrArg (fun text => text.reverse.take 2) same
  simp only [List.reverse_append] at ends
  cases e with
  | unknownReceipt =>
    cases refusal with
    | unknownReceipt => rfl
    | intentMismatch => exact absurd (show ['t', 'p'] = ['t', 'n'] from ends) (by decide)
  | intentMismatch =>
    cases refusal with
    | unknownReceipt => exact absurd (show ['t', 'n'] = ['t', 'p'] from ends) (by decide)
    | intentMismatch => rfl

theorem refusalNotice_inj (id other : String) (e refusal : X402Error)
    (same : refusalNotice id e = refusalNotice other refusal) : id = other := by
  have texts := congrArg String.toList same
  rw [toList_refusalNotice, toList_refusalNotice] at texts
  have middles := List.append_cancel_right (List.append_cancel_left texts)
  obtain rfl := reason_inj id.toList other.toList e refusal middles
  exact String.toList_inj.mp (List.append_cancel_right middles)

/-- How a text begins. -/
def opening (body : String) : List Char := body.toList.take 6

theorem opening_paymentNotice (intentId id : String) :
    opening (paymentNotice intentId id) = ['x', '4', '0', '2', ' ', 'p'] := by
  rw [opening, toList_paymentNotice]
  rfl

theorem opening_refusalNotice (id : String) (e : X402Error) :
    opening (refusalNotice id e) = ['R', 'e', 'c', 'e', 'i', 'p'] := by
  rw [opening, toList_refusalNotice]
  rfl

/-- A refusal names what was presented, and nothing else. -/
theorem names_refusalNotice (id other : String) (e : X402Error)
    (names : Names (refusalNotice id e) other) : other = id := by
  rcases names with ⟨intentId, same⟩ | ⟨refusal, same⟩
  · have openings := congrArg opening same
    rw [opening_refusalNotice, opening_paymentNotice] at openings
    exact absurd openings (by decide)
  · exact (refusalNotice_inj id other e refusal same).symm

/-- A payment notice that names a receipt is the notice of its payment. -/
theorem names_paymentNotice (intentId id other : String)
    (names : Names (paymentNotice intentId id) other) :
    Tells .payment (paymentNotice intentId id) other := by
  rcases names with notice | ⟨refusal, same⟩
  · exact ⟨rfl, notice⟩
  · have openings := congrArg opening same
    rw [opening_refusalNotice, opening_paymentNotice] at openings
    exact absurd openings (by decide)

/-- A text that begins otherwise names no receipt. -/
theorem not_names (body id : String) (start : List Char) (begins : opening body = start)
    (neither : start ≠ ['x', '4', '0', '2', ' ', 'p'] ∧ start ≠ ['R', 'e', 'c', 'e', 'i', 'p']) :
    ¬ Names body id := by
  rintro (⟨intentId, rfl⟩ | ⟨e, rfl⟩)
  · exact neither.1 (begins.symm.trans (opening_paymentNotice intentId id))
  · exact neither.2 (begins.symm.trans (opening_refusalNotice id e))

/-- A text is judged by its first part when that is long enough. -/
theorem not_names_append (front back id : String)
    (otherwise : 6 ≤ front.toList.length ∧
      front.toList.take 6 ≠ ['x', '4', '0', '2', ' ', 'p'] ∧
      front.toList.take 6 ≠ ['R', 'e', 'c', 'e', 'i', 'p']) :
    ¬ Names (front ++ back) id := by
  refine not_names _ id (front.toList.take 6) ?_ otherwise.2
  rw [opening, String.toList_append, List.take_append_of_le_length otherwise.1]

/-! ### What a request still has to log -/

/-- The line a request is about to push. -/
def Phase.pushes : Phase → List MeshMessage
  | .push message _ => [message]
  | _ => []

theorem exists_push (phase : Phase) (message : MeshMessage) (pushed : message ∈ phase.pushes) :
    ∃ after, phase = .push message after := by
  cases phase with
  | push other after =>
    obtain rfl := List.mem_singleton.mp pushed
    exact ⟨after, rfl⟩
  | _ => exact absurd pushed List.not_mem_nil

/-- The kinds of the lines a request may still log, in their order: one list for each course it may
take. -/
def Phase.scripts : Phase → List (List MeshEventKind)
  | .feed => [[]]
  | .announce _ => [[.intent]]
  | .settle _ => [[], [.restriction], [.payment]]
  | .record _ _ => [[.payment]]
  | .guard _ => [[], [.restriction], [.info], [.credential, .settlement]]
  | .execute _ _ => [[], [.info], [.credential, .settlement]]
  | .mint _ _ => [[.info], [.credential, .settlement]]
  | .narrate _ kind _ after => after.scripts.map (List.cons kind)
  | .push message after => after.scripts.map (List.cons message.kind)
  | .send _ after => after.scripts
  | .answer _ => [[]]

/-- Some course is open to every request. -/
theorem exists_script (phase : Phase) : ∃ script, script ∈ phase.scripts := by
  induction phase with
  | narrate sender kind body after inductionHypothesis =>
    obtain ⟨script, open'⟩ := inductionHypothesis
    exact ⟨_, List.mem_map_of_mem open'⟩
  | push message after inductionHypothesis =>
    obtain ⟨script, open'⟩ := inductionHypothesis
    exact ⟨_, List.mem_map_of_mem open'⟩
  | send message after inductionHypothesis => exact inductionHypothesis
  | _ => exact ⟨_, List.mem_cons_self⟩

/-- What requests may log that announce nothing. -/
def plainScripts : List (List MeshEventKind) :=
  [[], [.restriction], [.payment], [.info], [.credential, .settlement]]

/-- A request logs one line at most of each kind, a settlement line only after its credential
line, and for an announcement nothing but its intent. -/
theorem script_handoffRouter (request : Request) (script : List MeshEventKind)
    (inside : script ∈ (handoffRouter request).scripts) :
    script.Nodup ∧ (.settlement ∈ script → script = [.credential, .settlement]) ∧
      (request.uri = "/agent/announce" → ∀ kind ∈ script, kind = .intent) := by
  have courses : script ∈ plainScripts ∧ request.uri ≠ "/agent/announce" ∨
      script = [] ∨ script = [.intent] := by
    revert inside
    rw [handoffRouter]
    split_ifs with feed get head announce post settle posted execution
    all_goals
      intro inside
      simp only [Phase.scripts, plainScripts, List.mem_cons, List.not_mem_nil, or_false] at inside ⊢
      grind
  have distinct : ∀ script ∈ plainScripts, script.Nodup := by decide
  have settles : ∀ script ∈ plainScripts, .settlement ∈ script →
      script = [.credential, .settlement] := by decide
  rcases courses with ⟨inside, elsewhere⟩ | rfl | rfl
  · exact ⟨distinct script inside, settles script inside,
      fun announced => absurd announced elsewhere⟩
  · exact ⟨by decide, by decide, fun announced kind member => absurd member List.not_mem_nil⟩
  · exact ⟨by decide, by decide, fun announced kind member => List.mem_singleton.mp member⟩

section Steps

variable (framework : Framework) (primitives : Primitives) (env : Env) (state : HandoffState)

/-- A step keeps to the courses that were open, and logs what it pushes. -/
theorem advance_scripts (phase : Phase) (rest : List MeshEventKind)
    (inside : rest ∈ (advance framework primitives env state phase).2.scripts) :
    phase.pushes.map MeshMessage.kind ++ rest ∈ phase.scripts := by
  cases phase with
  | settle request =>
    rcases x402Settle_cases framework env state request with
      ⟨phase, response, -, comes, rfl | ⟨body, rfl⟩⟩ | ⟨req, receipt, -, -, comes⟩
    · rw [advance, comes] at inside
      obtain rfl := List.mem_singleton.mp inside
      exact List.mem_cons_self
    · rw [advance, comes] at inside
      obtain rfl := List.mem_singleton.mp inside
      exact List.mem_cons_of_mem _ List.mem_cons_self
    · rw [advance, comes] at inside
      obtain rfl := List.mem_singleton.mp inside
      exact List.mem_cons_of_mem _ (List.mem_cons_of_mem _ List.mem_cons_self)
  | guard request =>
    rcases paymentGuard_cases state request with
      ⟨gate, body, -, comes⟩ | ⟨receiptId, receipt, -, -, -, comes⟩
    · rw [advance, comes] at inside
      obtain rfl := List.mem_singleton.mp inside
      exact List.mem_cons_of_mem _ List.mem_cons_self
    · rw [advance, comes] at inside
      exact List.cons_subset_cons [] (List.subset_cons_self [.restriction] _) inside
  | execute request receipt =>
    rcases execute_cases framework state request receipt with
      ⟨response, -, comes⟩ | ⟨intent, -, -, comes⟩
    · rw [advance, comes] at inside
      obtain rfl := List.mem_singleton.mp inside
      exact List.mem_cons_self
    · rw [advance, comes] at inside
      exact List.mem_cons_of_mem _ inside
  | mint receipt intent =>
    rcases mintAndPackage_cases primitives env state receipt intent with
      ⟨refusal, body, response, -, -, comes⟩ | ⟨credential, body, -, comes⟩
    · rw [advance, comes] at inside
      obtain rfl := List.mem_singleton.mp inside
      exact List.mem_cons_self
    · rw [advance, comes] at inside
      obtain rfl := List.mem_singleton.mp inside
      exact List.mem_cons_of_mem _ List.mem_cons_self
  | push message after => exact List.mem_map_of_mem inside
  | _ => exact inside

end Steps

/-! ### What a request will tell -/

/-- The receipt whose envelope a request is going to be answered with. -/
def Phase.minted : Phase → Option String
  | .narrate _ _ _ after => after.minted
  | .push _ after => after.minted
  | .send _ after => after.minted
  | .answer response => response.envelope.map fun envelope => envelope.params.receiptId
  | _ => none

/-- Whether a request is in the hands of a handler or of the guard: it neither posts nor is
answered yet. -/
def Phase.handles : Phase → Bool
  | .narrate _ _ _ _ => false
  | .push _ _ => false
  | .send _ _ => false
  | .answer _ => false
  | _ => true

/-- What a request's next step does to the mesh. -/
def Phase.posts (env : Env) (mesh : MeshBus) : Phase → MeshBus
  | .narrate sender kind body _ => (mesh.next sender kind body env.at_).2
  | .push message _ => mesh.push message
  | .send message _ => mesh.send message
  | _ => mesh

/-- A step adds to the log only the line that it pushes. -/
theorem mem_log_posts (env : Env) (mesh : MeshBus) (phase : Phase) (message : MeshMessage)
    (member : message ∈ (phase.posts env mesh).log) :
    message ∈ mesh.log ∨ message ∈ phase.pushes := by
  cases phase with
  | push line after => exact List.mem_append.mp (List.mem_of_mem_drop member)
  | _ => exact .inl member

/-- What follows a line: more lines, and an answer. -/
def Phase.Plain : Phase → Prop
  | .narrate _ _ _ after => after.Plain
  | .answer _ => True
  | _ => False

/-- A line may be logged when some ids have been told: it names those only, or tells of a payment
itself, and a credential line is for one of them. -/
structure Phase.Speaks (told : String → Prop) (kind : MeshEventKind) (body : String)
    (after : Phase) : Prop where
  plain : after.Plain
  names : ∀ id, Names body id → told id ∨ Tells kind body id
  minted : kind = .credential → ∃ id, after.minted = some id ∧ told id

/-- A request is honest when some ids have been told: those are the only ones it presents, spends
or names, but that it tells of a payment before it answers with its receipt. -/
def Phase.Honest (told : String → Prop) : Phase → Prop
  | .guard request => ∀ id, request.headerStr? receiptHeader = some id → told id
  | .execute _ receipt => told receipt.receiptId
  | .mint receipt _ => told receipt.receiptId
  | .narrate _ kind body after =>
    Phase.Speaks told kind body after ∧ after.Honest fun id => told id ∨ Tells kind body id
  | .push message after =>
    Phase.Speaks told message.kind message.body after ∧
      after.Honest fun id => told id ∨ Tells message.kind message.body id
  | .send _ after => after.Plain ∧ after.Honest told
  | .answer response => ∀ receipt, response.body = .receipt receipt → told receipt.receiptId
  | _ => True

theorem Phase.Speaks.mono {told other : String → Prop} (more : ∀ id, told id → other id)
    {kind : MeshEventKind} {body : String} {after : Phase}
    (speaks : Phase.Speaks told kind body after) :
    Phase.Speaks other kind body after where
  plain := speaks.plain
  names id named := (speaks.names id named).imp_left (more id)
  minted isCredential :=
    (speaks.minted isCredential).imp fun id both => ⟨both.1, more id both.2⟩

/-- When more has been told, no request becomes dishonest. -/
theorem Phase.Honest.mono {told other : String → Prop} (more : ∀ id, told id → other id)
    {phase : Phase} (honest : phase.Honest told) : phase.Honest other := by
  induction phase generalizing told other with
  | guard request => exact fun id presented => more id (honest id presented)
  | execute request receipt => exact more receipt.receiptId honest
  | mint receipt intent => exact more receipt.receiptId honest
  | narrate sender kind body after inductionHypothesis =>
    exact ⟨honest.1.mono more, inductionHypothesis (fun id => Or.imp_left (more id)) honest.2⟩
  | push message after inductionHypothesis =>
    exact ⟨honest.1.mono more, inductionHypothesis (fun id => Or.imp_left (more id)) honest.2⟩
  | send message after inductionHypothesis =>
    exact ⟨honest.1, inductionHypothesis more honest.2⟩
  | answer response => exact fun receipt same => more receipt.receiptId (honest receipt same)
  | _ => exact trivial

/-- One line that names no receipt, and then an answer that carries none. -/
theorem honest_line (told : String → Prop) (sender : String) (kind : MeshEventKind)
    (body : String) (response : Response) (ordinary : kind ≠ .credential)
    (unnamed : ∀ id, ¬ Names body id) (plain : ∀ receipt, response.body ≠ .receipt receipt) :
    (Phase.narrate sender kind body (.answer response)).Honest told :=
  ⟨⟨trivial, fun id named => absurd named (unnamed id), fun same => absurd same ordinary⟩,
    fun receipt same => absurd same (plain receipt)⟩

section Steps

variable (framework : Framework) (primitives : Primitives) (env : Env) (state : HandoffState)
variable (told : String → Prop)

theorem honest_agentAnnounce (request : Request) :
    (agentAnnounce framework env state request).2.Honest told := by
  refine honest_line told _ _ _ _ (by decide) ?_ (fun receipt => nofun)
  exact fun id => not_names _ id ['O', 'p', 'p', 'o', 'r', 't'] (by decide +kernel) (by decide)

theorem honest_x402Settle (request : Request) :
    (x402Settle framework env state request).2.Honest told := by
  unfold x402Settle
  cases framework.extractJson SettleRequest.fromJson request with
  | none => exact fun receipt => nofun
  | some req =>
    dsimp only
    cases state.gate.backend.settle req.intentId req.payment env.now env.ulid with
    | ok receipt => exact trivial
    | error e =>
      refine honest_line told _ _ _ _ (by decide) (fun id => ?_) (fun receipt => nofun)
      rw [String.append_assoc, String.append_assoc]
      exact not_names_append "x402 settlement failed for intent " _ id (by decide)

/-- The notice of the payment tells of the receipt that is answered next. -/
theorem honest_recordReceipt (receipt : PaymentReceipt) (now : Int64) :
    (recordReceipt state receipt now).2.Honest told := by
  refine ⟨⟨trivial, fun id named => ?_, nofun⟩, ?_⟩
  · exact .inr (names_paymentNotice receipt.intentId receipt.receiptId id named)
  · rintro other ⟨⟩
    exact .inr ⟨rfl, receipt.intentId, rfl⟩

/-- A guard that refuses repeats an id it was presented; one that lets pass spends it. -/
theorem honest_paymentGuard (request : Request) (honest : (Phase.guard request).Honest told) :
    (paymentGuard state request).2.Honest told := by
  unfold paymentGuard
  cases presented : request.headerStr? receiptHeader with
  | none =>
    refine honest_line told _ _ _ _ (by decide) (fun id => ?_) (fun receipt => nofun)
    exact not_names _ id ['A', 'c', 't', 'i', 'o', 'n'] (by decide +kernel) (by decide)
  | some receiptId =>
    have known := honest receiptId presented
    dsimp only
    cases answer : (state.gate.redeem receiptId
      ((request.headerStr? intentHeader).getD "")).1 with
    | error refusal =>
      refine ⟨⟨trivial, fun id named => ?_, nofun⟩, fun receipt => nofun⟩
      rw [names_refusalNotice receiptId id refusal named]
      exact .inl known
    | ok receipt =>
      have found := ((X402Gate.redeem_fst_eq_ok _ _ _ _).mp answer).1
      have named : receipt.receiptId = receiptId := Treasury.receiptId_of_lookup _ _ _ found
      change told receipt.receiptId
      rwa [named]

theorem honest_execute (request : Request) (receipt : PaymentReceipt)
    (honest : told receipt.receiptId) :
    (execute framework state request receipt).2.Honest told := by
  unfold execute
  split_ifs
  · exact fun receipt => nofun
  · cases framework.extractJson AgentIntent.fromJson request with
    | none => exact fun receipt => nofun
    | some intent =>
      dsimp only
      split_ifs
      · exact fun receipt => nofun
      · exact honest

theorem honest_mintAndPackage (receipt : PaymentReceipt) (intent : AgentIntent)
    (honest : told receipt.receiptId) :
    (mintAndPackage primitives env state receipt intent).2.Honest told := by
  unfold mintAndPackage
  cases mint primitives intent.payload receipt env.now env.entropy with
  | error e =>
    refine honest_line told _ _ _ _ (by decide) (fun id => ?_) (fun receipt => nofun)
    exact not_names_append "Mint refused: " _ id (by decide)
  | ok credential =>
    have minted : ∀ id, ¬ Names credentialMintedNotice id :=
      fun id => not_names _ id ['P', 'a', 'y', 'm', 'e', 'n'] (by decide +kernel) (by decide)
    refine ⟨⟨trivial, fun id named => absurd named (minted id), fun _ => ⟨_, rfl, honest⟩⟩, ?_⟩
    refine honest_line _ _ _ _ _ (by decide) (fun id => ?_) (fun receipt => nofun)
    rw [String.append_assoc, String.append_assoc]
    exact not_names_append "Settlement envelope " _ id (by decide)

attribute [local irreducible] mint in
/-- A step of an honest request leaves it honest, when what it pushes has been told. -/
theorem advance_honest (phase : Phase) (honest : phase.Honest told) :
    (advance framework primitives env state phase).2.Honest fun id =>
      told id ∨ ∃ message ∈ phase.pushes, Tells message.kind message.body id := by
  cases phase with
  | push message after =>
    refine ⟨honest.1.plain, honest.2.mono fun id => Or.imp_right fun tells => ?_⟩
    exact ⟨message, List.mem_singleton_self _, tells⟩
  | feed => exact fun receipt => nofun
  | announce request => exact honest_agentAnnounce framework env state _ request
  | settle request => exact honest_x402Settle framework env state _ request
  | record receipt now => exact honest_recordReceipt state _ receipt now
  | guard request =>
    exact honest_paymentGuard state _ request fun id presented => .inl (honest id presented)
  | execute request receipt =>
    exact honest_execute framework state _ request receipt (.inl honest)
  | mint receipt intent =>
    have minted := honest_mintAndPackage primitives env state told receipt intent honest
    rw [advance]
    exact minted.mono fun id => Or.inl
  | narrate sender kind body after => exact Phase.Honest.mono (fun id => Or.inl) honest
  | send message after => exact Phase.Honest.mono (fun id => Or.inl) honest.2
  | answer response => exact Phase.Honest.mono (fun id => Or.inl) honest

/-- A handler leaves the mesh alone and does not push. -/
theorem advance_of_handles (phase : Phase) (handles : phase.handles = true) :
    (advance framework primitives env state phase).1.mesh = state.mesh ∧
      (advance framework primitives env state phase).2.pushes = [] := by
  cases phase with
  | feed => exact ⟨rfl, rfl⟩
  | announce request => exact ⟨rfl, rfl⟩
  | settle request =>
    rcases x402Settle_cases framework env state request with
      ⟨phase, response, -, comes, rfl | ⟨body, rfl⟩⟩ | ⟨req, receipt, -, -, comes⟩
    all_goals
      rw [advance, comes]
      exact ⟨rfl, rfl⟩
  | record receipt now => exact ⟨rfl, rfl⟩
  | guard request =>
    rcases paymentGuard_cases state request with
      ⟨gate, body, -, comes⟩ | ⟨receiptId, receipt, -, -, -, comes⟩
    all_goals
      rw [advance, comes]
      exact ⟨rfl, rfl⟩
  | execute request receipt =>
    rcases execute_cases framework state request receipt with
      ⟨response, -, comes⟩ | ⟨intent, -, -, comes⟩
    all_goals
      rw [advance, comes]
      exact ⟨rfl, rfl⟩
  | mint receipt intent =>
    rcases mintAndPackage_cases primitives env state receipt intent with
      ⟨refusal, body, response, -, -, comes⟩ | ⟨credential, body, -, comes⟩
    all_goals
      rw [advance, comes]
      exact ⟨rfl, rfl⟩
  | _ => cases handles

/-- A line is pushed only under the number that was taken for it. -/
theorem narrates_of_push (phase : Phase) (honest : phase.Honest told) (message : MeshMessage)
    (after : Phase) (comes : (advance framework primitives env state phase).2 =
      .push message after) :
    ∃ sender kind body, phase = .narrate sender kind body after ∧
      message = (state.mesh.next sender kind body env.at_).1 := by
  cases handles : phase.handles with
  | true =>
    have quiet := (advance_of_handles framework primitives env state phase handles).2
    rw [comes] at quiet
    cases quiet
  | false =>
    cases phase with
    | narrate sender kind body rest =>
      cases comes
      exact ⟨sender, kind, body, rfl, rfl⟩
    | push other rest => cases comes
    | send other rest =>
      have plain := honest.1
      rw [show rest = .push _ after from comes] at plain
      exact plain.elim
    | answer response => cases comes
    | _ => cases handles

/-- A credential stays with the request that mints it. -/
theorem minted_advance (phase : Phase) (id : String) (minted : phase.minted = some id) :
    (advance framework primitives env state phase).2.minted = some id := by
  cases phase with
  | narrate sender kind body after => exact minted
  | push message after => exact minted
  | send message after => exact minted
  | answer response => exact minted
  | _ => cases minted

/-- The mesh after a step: only the steps of a post touch it. -/
theorem advance_mesh (phase : Phase) :
    (advance framework primitives env state phase).1.mesh = phase.posts env state.mesh := by
  cases phase with
  | narrate sender kind body after => rfl
  | push message after => rfl
  | send message after => rfl
  | answer response => rfl
  | _ => exact (advance_of_handles framework primitives env state _ rfl).1

end Steps

/-! ### A settlement and an announcement -/

open Runs

/-- What happens when the shell settles an intent, up to the push of the line. -/
def tellingActions (intentId : String) : List Action :=
  .arrive (.command (.x402Settle intentId)) :: List.replicate 4 (.advance 0 plainEnv)

/-- The line of the payment. -/
def tellingMessage (intentId : String) : MeshMessage :=
  ⟨0, opsChannel, gateHandle, .payment, paymentNotice intentId plainEnv.ulid.toString,
    plainEnv.at_⟩

/-- The system in which it has been pushed. -/
def toldSystem (intentId : String) : System :=
  let receipt := PaymentReceipt.cleared plainEnv.ulid intentId plainEnv.now
  { state := { (settledSystem receipt).state with
      mesh := (MeshBus.mk 1 [] []).push (tellingMessage intentId) }
    tasks := [.send (tellingMessage intentId) (.answer ⟨200, .receipt receipt⟩)]
    issued := [receipt] }

/-- What happens when another request then announces the mock intent, up to its number. -/
def beforePushActions (intentId : String) : List Action :=
  tellingActions intentId ++ [.arrive (.command .agentAnnounce), .advance 1 plainEnv,
    .advance 1 plainEnv]

/-- The line of the announcement. -/
def announcedMessage : MeshMessage :=
  ⟨1, opsChannel, mockAgentHandle, .intent, intentAnnouncement, plainEnv.at_⟩

/-- The system in which it is about to be pushed. -/
def beforePushSystem (intentId : String) : System :=
  { toldSystem intentId with
    state := { (toldSystem intentId).state with
      mesh := { (toldSystem intentId).state.mesh with seq := 2 } }
    tasks := (toldSystem intentId).tasks ++ [.push announcedMessage
      (.answer ⟨200, .intent (.mockEthLimitOrder plainEnv.ulid)⟩)] }

/-- What happens up to its push. -/
def announcedActions (intentId : String) : List Action :=
  beforePushActions intentId ++ [.advance 1 plainEnv]

/-- The system in which both lines have been pushed. -/
def announcedSystem (intentId : String) : System :=
  { beforePushSystem intentId with
    state := { (beforePushSystem intentId).state with
      mesh := (beforePushSystem intentId).state.mesh.push announcedMessage }
    tasks := (toldSystem intentId).tasks ++ [.send announcedMessage
      (.answer ⟨200, .intent (.mockEthLimitOrder plainEnv.ulid)⟩)] }

section Told

variable (primitives : Primitives) (intentId : String)
  (small : (Json.Value.object [("intent_id", .string intentId)]).byteLength ≤ maxRequestBodyBytes)

include small

theorem run_toldSystem : Run (System.Step plainFramework primitives) (.start .mock)
    (tellingActions intentId) (toldSystem intentId) := by
  have settled := run_settledSystem plainFramework primitives plainFramework_readsBack intentId
    plainEnv small
  exact settled.append (.step ⟨fun _ drawn => absurd drawn List.not_mem_nil, rfl⟩
    (.step ⟨fun _ drawn => absurd drawn List.not_mem_nil, rfl⟩ (.stop _)))

theorem run_beforePushSystem : Run (System.Step plainFramework primitives) (.start .mock)
    (beforePushActions intentId) (beforePushSystem intentId) :=
  (run_toldSystem primitives intentId small).append
    (.step ⟨fun _ drawn => absurd drawn List.not_mem_nil, rfl⟩
      (.step ⟨fun _ drawn => absurd drawn List.not_mem_nil, rfl⟩
        (.step ⟨fun _ drawn => absurd drawn List.not_mem_nil, rfl⟩ (.stop _))))

theorem run_announcedSystem : Run (System.Step plainFramework primitives) (.start .mock)
    (announcedActions intentId) (announcedSystem intentId) :=
  (run_beforePushSystem primitives intentId small).append
    (.step ⟨fun _ drawn => absurd drawn List.not_mem_nil, rfl⟩ (.stop _))

end Told

theorem feed_toldSystem (intentId : String) :
    (toldSystem intentId).state.mesh.feed = [tellingMessage intentId] :=
  MeshBus.push_log_of_room ⟨1, [], []⟩ (tellingMessage intentId) (by simp [maxLogLen])

theorem feed_announcedSystem (intentId : String) :
    (announcedSystem intentId).state.mesh.feed = [tellingMessage intentId, announcedMessage] := by
  have first : (beforePushSystem intentId).state.mesh.log = [tellingMessage intentId] :=
    feed_toldSystem intentId
  have room : (beforePushSystem intentId).state.mesh.log.length < maxLogLen := by
    rw [first]
    simp [maxLogLen]
  exact (MeshBus.push_log_of_room _ announcedMessage room).trans (by rw [first]; rfl)

end Hammurabi
