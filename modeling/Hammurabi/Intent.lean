/-
This file is the intent of an agent: the structured payload that is announced, paid
for and signed.

An intent carries no floats, so its payload always has a canonical form. It is read
from any object with the right fields, unknown ones ignored, and reads back from
its own payload.
-/

import Hammurabi.Jcs
import Hammurabi.Library.Derive
import Hammurabi.Library.Ulid

namespace Hammurabi

open Json

/-- The announcement line. -/
def intentAnnouncement : String :=
  "Opportunity found: ETH limit order at $3,100. Requesting execution."

/-- The mock agent's IRC handle. -/
def mockAgentHandle : String := "agent/scout-1"

/-! ### Orders -/

inductive OrderSide where
  | buy
  | sell
  deriving DecidableEq, Repr

namespace OrderSide

def name : OrderSide → String
  | .buy => "buy"
  | .sell => "sell"

def ofName : String → Option OrderSide
  | "buy" => some .buy
  | "sell" => some .sell
  | _ => none

def toJson (side : OrderSide) : Value := .string side.name

/-- A side is its name, or an object with the name as only key and null under it. -/
def fromJson : Value → Option OrderSide
  | .string name => ofName name
  | .object [(name, .null)] => ofName name
  | _ => none

@[simp] theorem fromJson_toJson (side : OrderSide) : fromJson side.toJson = some side := by
  cases side with
  | buy => rfl
  | sell => rfl

end OrderSide

/-- A limit order. -/
structure LimitOrder where
  pair : String
  side : OrderSide
  limitPriceUsdCents : UInt64
  quantityWei : String
  venue : String
  deriving DecidableEq, Repr

namespace LimitOrder

def toJson (order : LimitOrder) : Value := .object [
  ("pair", .string order.pair),
  ("side", order.side.toJson),
  ("limit_price_usd_cents", .ofUInt64 order.limitPriceUsdCents),
  ("quantity_wei", .string order.quantityWei),
  ("venue", .string order.venue)]

def fields : List Field := [.required "pair", .required "side",
  .required "limit_price_usd_cents", .required "quantity_wei", .required "venue"]

def fromJson (value : Value) : Option LimitOrder := do
  let [pair, side, price, quantity, venue] ← readRecord fields value | none
  return {
    pair := ← pair.asStr
    side := ← OrderSide.fromJson side
    limitPriceUsdCents := ← readUInt64 price
    quantityWei := ← quantity.asStr
    venue := ← venue.asStr }

theorem fields_unique : (fields.map Field.name).Nodup := by decide

@[simp] theorem fromJson_toJson (order : LimitOrder) : fromJson order.toJson = some order := by
  rw [fromJson, toJson, readRecord_object fields _ fields_unique rfl]
  simp only [List.map_cons, List.map_nil, Option.bind_eq_bind, Option.bind_some,
    Value.asStr_string, readUInt64_ofUInt64, OrderSide.fromJson_toJson, Option.pure_def]

end LimitOrder

/-! ### Intents -/

/-- A structured agent intent. -/
structure AgentIntent where
  intentId : String
  agentHandle : String
  action : String
  order : LimitOrder
  deriving DecidableEq, Repr

namespace AgentIntent

/-- The mock: one ETH limit order at $3,100, under a new id. -/
def mockEthLimitOrder (ulid : Ulid) : AgentIntent where
  intentId := ulid.toString
  agentHandle := mockAgentHandle
  action := "execute_limit_order"
  order := {
    pair := "ETH/USDC"
    side := .buy
    limitPriceUsdCents := 310000
    quantityWei := "1000000000000000000"
    venue := "local-simulated" }

/-- The canonical signing payload. -/
def payload (intent : AgentIntent) : Value := .object [
  ("intent_id", .string intent.intentId),
  ("agent_handle", .string intent.agentHandle),
  ("action", .string intent.action),
  ("order", intent.order.toJson)]

def fields : List Field := [.required "intent_id", .required "agent_handle", .required "action",
  .required "order"]

def fromJson (value : Value) : Option AgentIntent := do
  let [intentId, agentHandle, action, order] ← readRecord fields value | none
  return {
    intentId := ← intentId.asStr
    agentHandle := ← agentHandle.asStr
    action := ← action.asStr
    order := ← LimitOrder.fromJson order }

theorem fields_unique : (fields.map Field.name).Nodup := by decide

/-- An intent reads back from its payload. -/
@[simp] theorem fromJson_payload (intent : AgentIntent) :
    fromJson intent.payload = some intent := by
  rw [fromJson, payload, readRecord_object fields _ fields_unique rfl]
  simp only [List.map_cons, List.map_nil, Option.bind_eq_bind, Option.bind_some,
    Value.asStr_string, LimitOrder.fromJson_toJson, Option.pure_def]

/-! ### The payload as a document -/

@[simp] theorem payload_get_intentId (intent : AgentIntent) :
    intent.payload.get "intent_id" = some (.string intent.intentId) := rfl

theorem payload_uniqueKeys (intent : AgentIntent) : intent.payload.UniqueKeys := by
  simp [payload, LimitOrder.toJson, OrderSide.toJson, Value.ofUInt64]

/-- An intent has no floats. -/
theorem payload_integerOnly (intent : AgentIntent) : intent.payload.IntegerOnly := by
  simp [payload, LimitOrder.toJson, OrderSide.toJson, Value.ofUInt64]

theorem payload_depth (intent : AgentIntent) : intent.payload.depth < 128 := by
  simp [payload, LimitOrder.toJson, OrderSide.toJson, Value.ofUInt64, Value.depth,
    Value.depthMembers]

/-- So its payload has a canonical form. -/
theorem canonicalize_payload (intent : AgentIntent) :
    ∃ canonical, canonicalize intent.payload = .ok canonical :=
  ⟨_, canonicalize_of_integerOnly _ intent.payload_uniqueKeys intent.payload_integerOnly⟩

end AgentIntent

end Hammurabi
