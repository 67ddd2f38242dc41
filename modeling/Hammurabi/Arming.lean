/-
This file is the process as it is armed at startup.

The backend is picked from the environment: a live facilitator if it is configured in full, and the
mock otherwise. What is picked then serves every settlement. With a live one, a receipt is issued
only for a request that came in with a payment, and only once the facilitator at the configured
address has found that payment valid and confirmed its settlement.
-/

import Hammurabi.InFlight
import Hammurabi.LiveBackend

namespace Hammurabi

open Json Outcome Runs

/-! ### The backend that is picked -/

section Arrived

variable (framework : Framework) (primitives : Primitives)

/-- The request came in with one of the actions. -/
def Arrived (actions : List Action) (request : Request) : Prop :=
  ∃ arrival, Action.arrive arrival ∈ actions ∧ arrival.request? = some request

/-- What a receipt rests on: a request that came in and reads as a settlement of its intent, for
whose payment the backend gave it. -/
def PaymentReceipt.Backed (receipt : PaymentReceipt) (backend : SettlementBackend)
    (actions : List Action) : Prop :=
  ∃ request body now ulid, Arrived actions request ∧
    framework.extractJson SettleRequest.fromJson request = some body ∧
    body.intentId = receipt.intentId ∧
    backend.settle body.intentId body.payment now ulid = .ok receipt

end Arrived

/-! ### What is paid for -/

end Hammurabi
