/-
This file settles which refusals of an execution are priced and narrated.

The guard refuses with one quote, for the intent id it reads from the header, and with
one restriction line. But the status of a refusal is used once more, when the body is
for another intent than the burned receipt: that answer carries no terms and posts no
line. And a header that does not read as text is taken for the empty id, so the quote
is then for an intent nobody named.
-/

import Hammurabi.Execution

namespace Hammurabi

open Json Runs Unicode

/-! ### Priced refusals -/

/-- The intent id in the header of a request; none is the empty id. -/
def NamesIntent (request : Request) (id : String) : Prop :=
  match request.headers.lookup intentHeader with
  | none => id = ""
  | some value => value.1 = utf8 id.toList

/-- The intent header, if there is one, is visible ASCII and tabs. -/
def ReadableHeader (request : Request) : Prop :=
  ∀ value, request.headers.lookup intentHeader = some value → value.1.all isVisibleByte = true

/-- A response that accepts exactly one payment: the whole fee, for the intent of the header. -/
def Priced (request : Request) (response : Response) : Prop :=
  ∃ document terms, response.body.document = some document ∧
    document.get "accepts" = some (.array [PaymentTerms.toJson terms]) ∧
    NamesIntent request terms.intentId ∧ terms.amountMicro = executionFeeMicroUsdc

/-- Lines of which exactly one is a restriction. -/
def NarratedOnce (kinds : List MeshEventKind) : Prop := kinds.count .restriction = 1

/-- The statuses a JSON extractor refuses a body with. -/
def Framework.RefusesBodies (framework : Framework) : Prop :=
  ∀ request, (framework.refusal request).1 ∈ [400, 413, 415, 422]

/-- The id the guard reads is the one the header names when the header is readable. -/
theorem namesIntent_iff (request : Request) :
    NamesIntent request ((request.headerStr? intentHeader).getD "") ↔ ReadableHeader request := by
  rw [NamesIntent, ReadableHeader, Request.headerStr?]
  cases request.headers.lookup intentHeader with
  | none =>
    refine iff_of_true rfl ?_
    intro value found
    cases found
  | some value =>
    simp only [Option.bind_some, Option.some.injEq, forall_eq', HeaderValue.toStr?]
    by_cases visible : value.1.all isVisibleByte = true
    · have ascii : ∀ byte ∈ value.1, byte < 0x80 := fun byte member =>
        ascii_of_visible byte (List.all_eq_true.mp visible byte member)
      rw [if_pos visible, Option.getD_some, String.toList_ofList, utf8_decodeAscii _ ascii]
      exact iff_of_true rfl visible
    · rw [if_neg visible, Option.getD_none]
      refine iff_of_false (fun empty => visible ?_) visible
      rw [empty]
      rfl

/-- A refusal of the guard is priced when the header is readable. -/
theorem priced_refusal_iff (request : Request) (status : Nat) :
    Priced request
      ⟨status, .paymentRequired (.quote ((request.headerStr? intentHeader).getD ""))⟩ ↔
      ReadableHeader request := by
  rw [← namesIntent_iff]
  constructor
  · rintro ⟨document, terms, shown, accepts, named, -⟩
    cases shown
    have same : PaymentTerms.toJson terms = (PaymentTerms.quote _).toJson :=
      (List.cons.inj (Value.array.inj (Option.some.inj accepts))).1.symm
    have ids : terms.intentId = (request.headerStr? intentHeader).getD "" := by
      simp only [PaymentTerms.toJson, PaymentTerms.quote, Value.object.injEq, List.cons.injEq,
        Prod.mk.injEq, Value.string.injEq, true_and, and_true] at same
      exact same.2.2.2.2.2.2.2.1
    rwa [ids] at named
  · exact fun named => ⟨_, _, rfl, rfl, named, rfl⟩

/-- An answer without a list of terms is not priced. -/
theorem not_priced_error (request : Request) (status : Nat) (name detail : String) :
    ¬ Priced request ⟨status, .error name detail⟩ := by
  rintro ⟨document, terms, shown, accepts, -⟩
  cases shown
  cases accepts

/-! ### Every way an execution ends -/

section Executions

variable (framework : Framework) (primitives : Primitives) (envs : Nat → Env)
  (state : HandoffState) (request : Request)

/-- One receipt is presented and one intent extracted, so when they match, all do. -/
theorem matching_of_same (receipt : PaymentReceipt) (presents : Presents state request receipt)
    (intent : AgentIntent)
    (extracted : framework.extractJson AgentIntent.fromJson request = some intent)
    (same : receipt.intentId = intent.intentId) :
    ∀ other, Presents state request other →
      ∀ body, framework.extractJson AgentIntent.fromJson request = some body →
        body.intentId = other.intentId := by
  intro other presentsOther body extractedBody
  cases presents_unique state request receipt other presents presentsOther
  cases extracted.symm.trans extractedBody
  exact same.symm

/-- Of an end of an execution: if it is a refusal for payment, it is priced and narrated once,
exactly when its body is not for another intent, and its header is readable where the guard is who
refuses. -/
theorem ends_priced_iff (bodies : framework.RefusesBodies) (env : Env) (response : Response)
    (kinds : List MeshEventKind)
    (ends : ExecutionEnds framework primitives env state request response kinds) :
    (response.status = 402 → Priced request response ∧ NarratedOnce kinds) ↔
      (∀ receipt, Presents state request receipt →
        ∀ intent, framework.extractJson AgentIntent.fromJson request = some intent →
          intent.intentId = receipt.intentId) ∧
      ((¬ ∃ receipt, Presents state request receipt) → ReadableHeader request) := by
  cases ends with
  | refused unpresented =>
    rw [priced_refusal_iff]
    constructor
    · intro priced
      exact ⟨fun receipt presents => absurd ⟨receipt, presents⟩ unpresented,
        fun _ => (priced rfl).1⟩
    · exact fun both _ => ⟨both.2 unpresented, rfl⟩
  | unread receipt presents unread =>
    refine iff_of_true (fun refused => ?_) ⟨fun _ _ intent extracted => ?_,
      fun none => absurd ⟨receipt, presents⟩ none⟩
    · have status := bodies request
      rw [show (framework.refusal request).1 = 402 from refused] at status
      exact absurd status (by decide)
    · cases unread.symm.trans extracted
  | mismatched receipt presents intent extracted different =>
    refine iff_of_false (fun priced => not_priced_error request 402 _ _ (priced rfl).1) ?_
    rintro ⟨matching, -⟩
    exact different (matching receipt presents intent extracted).symm
  | unminted receipt presents intent extracted same =>
    exact iff_of_true (fun refused => nomatch refused)
      ⟨matching_of_same framework state request receipt presents intent extracted same,
        fun none => absurd ⟨receipt, presents⟩ none⟩
  | released receipt presents intent extracted same =>
    exact iff_of_true (fun refused => nomatch refused)
      ⟨matching_of_same framework state request receipt presents intent extracted same,
        fun none => absurd ⟨receipt, presents⟩ none⟩

end Executions

/-- Whenever an execution is refused for payment, the refusal is priced and narrated once: exactly
when the body is not for another intent than the receipt presented, and the header is readable if
no receipt is presented for its intent. -/
theorem refusal_priced_iff (framework : Framework) (bodies : framework.RefusesBodies)
    (primitives : Primitives) (envs : Nat → Env) (state : HandoffState) (request : Request)
    (post : request.method = "POST") (execution : request.uri = "/execute") :
    (∀ response, (handle framework primitives envs state request).phase = .answer response →
      response.status = 402 → Priced request response ∧
        NarratedOnce ((handle framework primitives envs state request).lines.map
          MeshMessage.kind)) ↔
    (∀ receipt, Presents state request receipt →
      ∀ intent, framework.extractJson AgentIntent.fromJson request = some intent →
        intent.intentId = receipt.intentId) ∧
    ((¬ ∃ receipt, Presents state request receipt) → ReadableHeader request) := by
  obtain ⟨response, kinds, ends, answered, same⟩ :=
    handle_ends framework primitives envs state request post execution
  rw [← ends_priced_iff framework primitives state request bodies (envs 2) response kinds ends,
    answered, same]
  simp only [Phase.answer.injEq, forall_eq']

/-- At the start nothing is paid, and a posted intent is refused, priced and narrated once. -/
theorem refusal_priced_iff_unpaid :
    let request := executionOf (AgentIntent.mockEthLimitOrder plainEnv.ulid).payload
    let handled := handle plainFramework (markingPrimitives []) (fun _ => plainEnv) .new request
    ∃ response, handled.phase = .answer response ∧ response.status = 402 ∧
      Priced request response ∧ NarratedOnce (handled.lines.map MeshMessage.kind) := by
  intro request handled
  have unpresented : ¬ ∃ receipt, Presents .new request receipt := by
    rintro ⟨receipt, receiptId, -, found, -⟩
    cases found
  have bodies : plainFramework.RefusesBodies := fun _ => List.mem_cons_self
  have readable : ReadableHeader request := by
    intro value held
    cases held
    decide
  have priced := (refusal_priced_iff plainFramework bodies (markingPrimitives [])
    (fun _ => plainEnv) .new request rfl rfl).mpr
    ⟨fun receipt presents => absurd ⟨receipt, presents⟩ unpresented, fun _ => readable⟩
  obtain ⟨response, kinds, ends, answered, -⟩ := handle_ends plainFramework (markingPrimitives [])
    (fun _ => plainEnv) .new request rfl rfl
  have refused : response.status = 402 := by
    cases ends with
    | refused _ => rfl
    | unread receipt presents => exact absurd ⟨receipt, presents⟩ unpresented
    | mismatched receipt presents => exact absurd ⟨receipt, presents⟩ unpresented
    | unminted receipt presents => exact absurd ⟨receipt, presents⟩ unpresented
    | released receipt presents => exact absurd ⟨receipt, presents⟩ unpresented
  exact ⟨response, answered, refused, priced response answered refused⟩

/-- The receipt of intent `a`, under the body of another intent: refused, without terms or a
line. -/
theorem mismatch_unpriced :
    ¬ ∀ (framework : Framework) (primitives : Primitives) (envs : Nat → Env)
      (actions : List Action) (final : System) (request : Request) (response : Response),
      framework.ReadsBack → framework.RefusesBodies →
      Run (System.Step framework primitives) (.start .mock) actions final →
      request.method = "POST" → request.uri = "/execute" →
      (handle framework primitives envs final.state request).phase = .answer response →
      response.status = 402 → Priced request response ∧
        NarratedOnce ((handle framework primitives envs final.state request).lines.map
          MeshMessage.kind) := by
  intro priced
  let intent := AgentIntent.mockEthLimitOrder plainEnv.ulid
  have bodies : plainFramework.RefusesBodies := fun _ => List.mem_cons_self
  have extracted := (executionOf_extracts intent.payload intent.payload_uniqueKeys
    intent.payload_integerOnly intent.payload_depth (by decide +kernel)).trans
    intent.fromJson_payload
  have presents := executionOf_presents intent.payload
  have reached := run_settledSystem plainFramework (markingPrimitives []) plainFramework_readsBack
    "a" plainEnv (by decide)
  obtain ⟨response, kinds, ends, answered, same⟩ := handle_ends plainFramework
    (markingPrimitives []) (fun _ => plainEnv) _ (executionOf intent.payload) rfl rfl
  have wrong : ¬ intent.intentId = "a" := by decide
  refine wrong (((ends_priced_iff plainFramework (markingPrimitives []) _ _ bodies plainEnv
    response kinds ends).mp fun refused => ?_).1 _ presents intent extracted)
  rw [← same]
  exact priced plainFramework _ _ _ _ (executionOf intent.payload) response
    plainFramework_readsBack bodies reached rfl rfl answered refused

end Hammurabi
