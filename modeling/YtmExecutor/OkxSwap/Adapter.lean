/-
The two OKX adapters: validate an order, or place it.

Placing runs in three stages.  `placementPreparation` asks OKX for everything the order
depends on and sets the leverage; `enterOrder` looks for an order that is already there
under the client order id and places one only if there is none; then the protection is
verified and the result reported.
-/
import YtmExecutor.OkxSwap.Protection

namespace YtmExecutor

open Python Decimal Interaction

/-! ### What is shown of an order -/

/-- The entries whose text is not empty. -/
def nonEmptyEntries : List (String × String) → Dict
  | [] => []
  | (key, text) :: rest =>
      if text = "" then nonEmptyEntries rest
      else (.str key, .str text) :: nonEmptyEntries rest

/-- How the execution price of a trigger is shown. -/
def shownOrderPrice (orderPrice : String) : String :=
  if orderPrice = "-1" then "market" else orderPrice

def publicAttachedStopLoss (item : AttachedTpSl) : Option Dict :=
  match nonBlank item.slTriggerPx, nonBlank item.slOrdPx with
  | some triggerPrice, some orderPrice =>
      some (nonEmptyEntries
        [("attachAlgoClOrdId", (nonBlank item.attachAlgoClOrdId).getD ""),
          ("orderPrice", shownOrderPrice orderPrice), ("slOrdPx", orderPrice),
          ("slTriggerPx", triggerPrice),
          ("slTriggerPxType", (nonBlank item.slTriggerPxType).getD "last")])
  | _, _ => none

def publicAttachedTakeProfit (item : AttachedTpSl) : Option Dict :=
  match item.takeProfit with
  | none => none
  | some tp =>
      match nonBlank tp.tpTriggerPx, nonBlank tp.tpOrdPx with
      | some triggerPrice, some orderPrice =>
          some (nonEmptyEntries
            [("attachAlgoClOrdId", (nonBlank item.attachAlgoClOrdId).getD ""),
              ("orderPrice", shownOrderPrice orderPrice), ("tpOrdPx", orderPrice),
              ("tpTriggerPx", triggerPrice),
              ("tpTriggerPxType", (nonBlank tp.tpTriggerPxType).getD "last")])
      | _, _ => none

/-- An entry for a dict that is there. -/
def dictEntry (key : String) : Option Dict → Dict
  | some entries => [(.str key, .dict entries)]
  | none => []

/-- What is shown of an order's parameters. -/
def normalizedOrderEntries (params : OrderParams) : Dict :=
  ([("instId", params.instId), ("ordType", params.ordType.text), ("posSide", params.posSide),
    ("side", params.side.text), ("sz", params.sz), ("tdMode", params.tdMode)] : Dict)
  ++ optionalEntry "px" params.px ++ optionalEntry "reduceOnly" params.reduceOnly
  ++ dictEntry "attachedStopLoss" (params.attachAlgoOrds.bind publicAttachedStopLoss)
  ++ dictEntry "attachedTakeProfit" (params.attachAlgoOrds.bind publicAttachedTakeProfit)

section Adapters

variable [Runtime]

def publicNormalizedOrder (params : OrderParams) : Except PyError Dict := do
  rejectSecretFields [] (.dict (normalizedOrderEntries params))
  return normalizedOrderEntries params

variable (ctx : Context) {C : Type} (api : OkxCall → Prog C Value PyError Value)

/-! ### Queries -/

/-- Ask for a precheck, unless the account's mode has none. -/
def orderPrecheckPayload (params : OrderParams) (accountConfig : AccountConfig) :
    Prog C Value PyError Dict := do
  if accountConfig.acctLv = "2" then
    return [("reason",
        "OKX order-precheck is only available for Multi-currency and Portfolio margin modes"),
      ("reasonCode", "unsupported_for_futures_mode"), ("status", "skipped")]
  let _ ← okxQuery api (.orderPrecheck params) "order_precheck"
  return [("status", "passed")]

/-- The order OKX reports under the client order id; every `ValueError` reads as no order. -/
def lookupOrderByClientId (params : OrderParams) : Prog C Value PyError (Option Dict) := do
  let items ← (okxQuery api (.getOrder params.instId params.clOrdId) "get_order").handle
    (takeValueError fun _ => .done [])
  match items with
  | [] => return none
  | response :: _ =>
      if okxOptionalText (response.get "ordId") = none then return none
      rejectSecretFields [] (.dict response)
      return some response

/-- The account's mode and the rules of the instrument. -/
def accountAndRules (request : BrokerOrderRequest) :
    Prog C Value PyError (AccountConfig × OkxSwapInstrumentRules) := do
  let instId := okxSwapInstrumentId request.symbol
  let accountConfig ← validatedAccountConfig
    (← okxQuery api .getAccountConfig "get_account_config")
  let rules ← okxSwapInstrumentRules
    (← okxQuery api (.getInstruments "SWAP" instId) "get_instruments") instId
  return (accountConfig, rules)

/-! ### Validating -/

/-- `prepare_order` of the precheck adapter. -/
def okxPrecheckPrepareOrder (request : BrokerOrderRequest) :
    Prog C Value PyError BrokerAdapterResult := do
  raiseIf (request.provider ≠ "okx") "OKX adapter received a non-OKX request"
  let (accountConfig, rules) ← accountAndRules api request
  let params ← okxSwapOrderPrecheckParams ctx request rules
  let precheck ← orderPrecheckPayload api params accountConfig
  let payload : Dict :=
    [("adapter", okxSwapMainnetOrderPrecheckAdapter),
      ("accountConfig", .dict accountConfig.toDict), ("clientOrderId", params.clOrdId),
      ("executorAction", if (precheck.get "status").isText "passed" then "order_precheck_validated"
        else "order_precheck_skipped"),
      ("mainnet", .bool true), ("market", "okx_swap"),
      ("normalizedOrder", .dict (← publicNormalizedOrder params)), ("precheck", .dict precheck),
      ("provider", "okx")]
  rejectSecretFields [] (.dict payload)
  return ⟨payload⟩

/-! ### Placing -/

/-- What is known when the order is about to be looked up. -/
structure Preparation where
  accountConfig : AccountConfig
  rules : OkxSwapInstrumentRules
  leverage : Option Dict
  params : OrderParams
  precheck : Dict

/-- Set the leverage the request asks for, and see it confirmed. -/
def setRequestedLeverage (request : BrokerOrderRequest) (rules : OkxSwapInstrumentRules) :
    Prog C Value PyError (Option Dict) := do
  match ← okxSwapSetLeverageParams request rules with
  | none => return none
  | some leverageParams =>
      let items ← okxQuery api (.setLeverage leverageParams) "set_leverage"
      return some (← verifiedSetLeveragePayload items leverageParams)

/-- Everything before the order is looked up. -/
def placementPreparation (request : BrokerOrderRequest) : Prog C Value PyError Preparation := do
  let (accountConfig, rules) ← accountAndRules api request
  let leverage ← setRequestedLeverage api request rules
  let params ← okxSwapOrderParams ctx request rules
  let precheck ← orderPrecheckPayload api params accountConfig
  return { accountConfig, rules, leverage, params, precheck }

/-- An order that OKX has: whether it was there before, its reply, and its id. -/
structure EnteredOrder where
  recovered : Bool
  response : Dict
  providerOrderId : String

/-- The order a reply names. -/
def enteredOrder (recovered : Bool) (response : Dict) : Except PyError EnteredOrder :=
  match okxOptionalText (response.get "ordId") with
  | some providerOrderId => .ok ⟨recovered, response, providerOrderId⟩
  | none => .error (.valueError "OKX place_order response missing ordId")

/-- Find the order, or else place it. -/
def enterOrder (params : OrderParams) : Prog C Value PyError EnteredOrder := do
  match ← lookupOrderByClientId api params with
  | some existing => enteredOrder true existing
  | none =>
      let items ← okxQuery api (.placeOrder params) "place_order"
      let response ← singleOrderResponse items "place_order"
      enteredOrder false response

/-- What is reported of an accepted order. -/
def placementEntries (preparation : Preparation) (entered : EnteredOrder) (protection : Dict)
    (normalizedOrder : Dict) : Dict :=
  ([("adapter", okxSwapMainnetOrderAdapter),
    ("accountConfig", .dict preparation.accountConfig.toDict),
    ("clientOrderId", preparation.params.clOrdId), ("executorAction", "order_submitted"),
    ("idempotencyRecovery", .bool entered.recovered), ("mainnet", .bool true),
    ("market", "okx_swap"), ("leverage", (preparation.leverage.map .dict).getD .none),
    ("normalizedOrder", .dict normalizedOrder), ("precheck", .dict preparation.precheck),
    ("protection", .dict protection), ("protectionStatus", protection.get "status"),
    ("provider", "okx"), ("providerOrderId", entered.providerOrderId),
    ("providerStatus", "accepted")] : Dict)
  ++ optionalEntry "providerResultCode" (okxOptionalText (entered.response.get "sCode"))
  ++ optionalEntry "providerMessage" (okxOptionalText (entered.response.get "sMsg"))

/-- The result of an accepted order. -/
def placementPayload (preparation : Preparation) (entered : EnteredOrder) (protection : Dict) :
    Except PyError Dict := do
  let normalizedOrder ← publicNormalizedOrder preparation.params
  let payload := placementEntries preparation entered protection normalizedOrder
  rejectSecretFields [] (.dict payload)
  return payload

/-- `prepare_order` of the placement adapter. -/
def okxPlacementPrepareOrder (request : BrokerOrderRequest) :
    Prog C Value PyError BrokerAdapterResult := do
  raiseIf (request.provider ≠ "okx") "OKX adapter received a non-OKX request"
  raiseIf (request.executionMode ≠ .real) "OKX SWAP order placement requires executionMode=real"
  let preparation ← placementPreparation ctx api request
  let entered ← enterOrder api preparation.params
  let protection ← safeVerifyOrRemediateProtection ctx api request preparation.params
    entered.response entered.providerOrderId preparation.rules
  let payload ← placementPayload preparation entered protection
  return ⟨payload⟩

end Adapters

end YtmExecutor
