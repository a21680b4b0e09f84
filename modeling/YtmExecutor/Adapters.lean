/-
The broker adapter boundary: from a command to an order request.

What comes out of `buildOrderRequest` is a `BrokerOrderRequest`, whose sides, effects and
order types are the supported ones and whose numbers are positive decimal fractions, by
its type.
-/
import YtmExecutor.Command
import YtmExecutor.Guards
import YtmExecutor.Python.Hashlib

namespace YtmExecutor

open Python Decimal

inductive Side where
  | long
  | short
  deriving DecidableEq

inductive PositionEffect where
  | opening
  | reduce
  | close
  deriving DecidableEq

inductive OrderType where
  | limit
  | market
  | stop
  | stopLimit
  | stopMarket
  deriving DecidableEq

/-! The words of the wire. -/

def Side.text : Side → String
  | .long => "long"
  | .short => "short"

def PositionEffect.text : PositionEffect → String
  | .opening => "open"
  | .reduce => "reduce"
  | .close => "close"

def OrderType.text : OrderType → String
  | .limit => "limit"
  | .market => "market"
  | .stop => "stop"
  | .stopLimit => "stop_limit"
  | .stopMarket => "stop_market"

def supportedSides : List Side := [.long, .short]

def supportedPositionEffects : List PositionEffect := [.opening, .reduce, .close]

def supportedOrderTypes : List OrderType := [.limit, .market, .stop, .stopLimit, .stopMarket]

structure BrokerOrderRequest where
  provider : String
  executionMode : ExecutionMode
  symbol : String
  side : Side
  positionEffect : PositionEffect
  orderType : OrderType
  clientOrderId : String
  quantity : Option Positive
  notional : Option Positive
  limitPrice : Option Positive
  stopPrice : Option Positive
  stopLoss : Option Positive
  takeProfitTargets : List Positive
  priceReference : Option Positive
  timeInForce : Option String
  maxSlippageBps : Option Positive
  market : Option String
  marginMode : Option String
  leverage : Option Positive

/-! ### Reading fields -/

/-- `text.strip() or None`. -/
def nonBlank (s : String) : Option String := if strip s = "" then none else some (strip s)

section Texts

variable [Runtime]

def optionalText : Value → Option String
  | .none => none
  | v => nonBlank v.toText

def requiredText (v : Value) (fieldName : String) : Except PyError String :=
  match optionalText v with
  | some text => .ok text
  | none => .error (.valueError (fieldName ++ " is required"))

/-- `strip().lower().replace("-", "_")` of a text, and nothing of anything else. -/
def normalizedOrderType : Value → String
  | .str s => replaceChar '-' "_" (lower (strip s))
  | _ => ""

def optionalDecimal : Value → Except PyError (Option Positive)
  | .none => .ok none
  | .bool _ => .error (.valueError "numeric fields must not be boolean")
  | v =>
    if v.isText "" then .ok none
    else
      match decimalOfText v.toText with
      | .ok (.finite d) =>
          if h : 0 < d.val then .ok (some ⟨d, h⟩)
          else .error (.valueError "numeric fields must be finite and positive")
      | .ok _ => .error (.valueError "numeric fields must be finite and positive")
      | .error _ => .error (.valueError "numeric fields must be numeric")

/-- Every item a positive number. -/
def targetsOf : List Value → Except PyError (List Positive)
  | [] => .ok []
  | item :: rest => do
      match ← optionalDecimal item with
      | some target => return target :: (← targetsOf rest)
      | none => throw (.valueError "takeProfit targets must be positive")

def takeProfitTargets (value : Value) : Except PyError (List Positive) :=
  if value.isNoneOrEmpty then .ok []
  else
    let rawTargets := match value with
      | .dict entries => Dict.get entries "targets"
      | v => v
    match rawTargets with
    | .list items => targetsOf items
    | _ => .error (.valueError "takeProfit targets must be a list")

/-- One of the supported words. -/
def oneOf {α : Type} (word : α → String) (supported : List α) (text message : String) :
    Except PyError α :=
  match supported.find? fun a => word a = text with
  | some a => .ok a
  | none => .error (.valueError message)

/-! ### The request -/

def deterministicClientOrderId (command : Dict) : Except PyError String :=
  match optionalText (command.get "clientOrderId") with
  | some existing => .ok existing
  | none => do
      let commandId ← requiredText (command.get "id") "id"
      let provider := (optionalText (command.get "provider")).getD "unknown"
      let digest := sha256Hex (provider ++ ":" ++ commandId)
      return "ytm_" ++ String.ofList (digest.toList.take 32)

def validateOrderRequest (request : BrokerOrderRequest) : Except PyError Unit := do
  raiseIf ((request.orderType = .limit ∨ request.orderType = .stopLimit) ∧
      request.limitPrice = none)
    "limit order price is required"
  raiseIf ((request.orderType = .stop ∨ request.orderType = .stopLimit ∨
      request.orderType = .stopMarket) ∧ request.stopPrice = none)
    "stop order trigger price is required"
  raiseIf (request.quantity = none ∧ request.notional = none) "quantity or notional is required"

def buildOrderRequest (command : Dict) (executionMode : ExecutionMode) :
    Except PyError BrokerOrderRequest := do
  rejectSecretFields [] (.dict command)
  let field := commandField command
  let provider ← requiredText (command.get "provider") "provider"
  let symbol ← requiredText (field ["symbol", "instrumentId", "instrument", "figi", "ticker"])
    "symbol"
  let sideText ← requiredText (field ["side", "direction"]) "side"
  let side ← oneOf Side.text supportedSides (lower sideText) "side is unsupported"
  let effectText ← requiredText (field ["positionEffect", "effect"]) "positionEffect"
  let positionEffect ← oneOf PositionEffect.text supportedPositionEffects (lower effectText)
    "positionEffect is unsupported"
  let orderType ← oneOf OrderType.text supportedOrderTypes
    (normalizedOrderType (field ["orderType", "type"])) "orderType is unsupported"
  let clientOrderId ← deterministicClientOrderId command
  let quantity ← optionalDecimal (field ["quantity", "qty", "baseQuantity"])
  let notional ← optionalDecimal (field ["orderNotional", "notional", "quoteQuantity"])
  let limitPrice ← optionalDecimal (field ["price", "limitPrice"])
  let stopPrice ← optionalDecimal (field ["stopPrice", "triggerPrice"])
  let stopLoss ← optionalDecimal (field ["stopLoss", "stopLossTriggerPrice", "slTriggerPx"])
  let targets ← takeProfitTargets (field ["takeProfit"])
  let priceReference ← optionalDecimal
    (field ["priceReference", "entryPriceReference", "markPrice"])
  let maxSlippageBps ← optionalDecimal (field ["maxSlippageBps"])
  let leverage ← optionalDecimal (field ["leverage"])
  let request : BrokerOrderRequest :=
    { provider, executionMode, symbol := upper symbol, side, positionEffect, orderType,
      clientOrderId, quantity, notional, limitPrice, stopPrice, stopLoss,
      takeProfitTargets := targets, priceReference,
      timeInForce := optionalText (field ["timeInForce"]), maxSlippageBps,
      market := optionalText (field ["market", "brokerMarket", "exchangeMarket"]),
      marginMode := optionalText (field ["marginMode", "mgnMode", "tdMode"]), leverage }
  validateOrderRequest request
  return request

end Texts

/-! ### What is shown of a request -/

/-- `format(value.normalize(), "f")`. -/
def decimalText (ctx : Context) (q : ℚ) : Except PyError String :=
  raiseSignal ((ctx.fix q).map plainText)

/-- An entry for a number that is present. -/
def decimalEntry (ctx : Context) (key : String) : Option Positive → Except PyError Dict
  | some d => do return [(.str key, .str (← decimalText ctx d.val))]
  | none => return []

/-- An entry for a text that is present and not empty. -/
def textEntry (key : String) : Option String → Dict
  | some text => if text = "" then [] else [(.str key, .str text)]
  | none => []

/-- An entry for texts, if there are any. -/
def listEntry (key : String) (texts : List String) : Dict :=
  if texts = [] then [] else [(.str key, .list (texts.map .str))]

section Payload

variable [Runtime] (ctx : Context)

def orderRequestPublicPayload (request : BrokerOrderRequest) : Except PyError Value := do
  let head : Dict :=
    [("clientOrderId", request.clientOrderId), ("executionMode", request.executionMode.text),
      ("orderType", request.orderType.text), ("positionEffect", request.positionEffect.text),
      ("provider", request.provider), ("side", request.side.text), ("symbol", request.symbol)]
  let quantity ← decimalEntry ctx "quantity" request.quantity
  let notional ← decimalEntry ctx "notional" request.notional
  let limitPrice ← decimalEntry ctx "limitPrice" request.limitPrice
  let stopPrice ← decimalEntry ctx "stopPrice" request.stopPrice
  let stopLoss ← decimalEntry ctx "stopLoss" request.stopLoss
  let targets ← request.takeProfitTargets.mapM fun d => decimalText ctx d.val
  let priceReference ← decimalEntry ctx "priceReference" request.priceReference
  let maxSlippageBps ← decimalEntry ctx "maxSlippageBps" request.maxSlippageBps
  let leverage ← decimalEntry ctx "leverage" request.leverage
  let payload : Value := .dict (head ++ quantity ++ notional ++ limitPrice ++ stopPrice ++ stopLoss
    ++ listEntry "takeProfitTargets" targets
    ++ priceReference ++ maxSlippageBps ++ textEntry "timeInForce" request.timeInForce
    ++ textEntry "market" request.market ++ textEntry "marginMode" request.marginMode ++ leverage)
  rejectSecretFields [] payload
  return payload

/-- The result of an adapter's `prepare_order`; its status is always `acknowledged`. -/
structure BrokerAdapterResult where
  payload : Dict

/-- The adapter used before real broker placement is enabled. -/
def disabledPrepareOrder (request : BrokerOrderRequest) : Except PyError BrokerAdapterResult := do
  let orderRequest ← orderRequestPublicPayload ctx request
  let payload : Dict :=
    [("adapter", "disabled"), ("clientOrderId", request.clientOrderId),
      ("executorAction", "order_placement_skipped"), ("orderRequest", orderRequest),
      ("reason", "broker adapters are not enabled in this foundation build")]
  rejectSecretFields [] (.dict payload)
  return ⟨payload⟩

end Payload

end YtmExecutor
