/-
The Binance USD-M Futures adapter, which validates an order and never places one.

The symbol's rules come from the exchange information.  Quantities are rounded down to
the step and prices to the tick, both are held against the symbol's bounds, and the test
order is sent with the numbers as floats.
-/
import YtmExecutor.OkxSwap.Protection

namespace YtmExecutor

open Python Decimal Interaction

def binanceUsdmFuturesMainnetOrderTestAdapter : String := "binance_usdm_futures_mainnet_order_test"

/-- What the broker's SDK knows: the values of its time-in-force enumeration. -/
class BinanceSdk where
  isTimeInForce : String → Bool

namespace Binance

structure SymbolRules where
  symbol : String
  status : String
  orderTypes : List String
  timeInForce : List String
  minPrice : Option Finite
  maxPrice : Option Finite
  tickSize : Positive
  minQty : Positive
  maxQty : Positive
  stepSize : Positive
  marketMinQty : Option Finite
  marketMaxQty : Option Finite
  marketStepSize : Option Finite
  minNotional : Option Finite

/-- The parameters of a test order, numbers as the texts of their floats. -/
structure TestOrderParams where
  newClientOrderId : String
  side : String
  symbol : String
  type : String
  reduceOnly : Option String
  quantity : Option String
  price : Option String
  timeInForce : Option String
  stopPrice : Option String

inductive BinanceCall where
  | exchangeInformation
  | testOrder (params : TestOrderParams)

/-! ### The rules of a symbol -/

section Rules

variable [Runtime]

def requiredText (v : Value) (fieldName : String) : Except PyError String :=
  match okxOptionalText v with
  | some text => .ok text
  | none => .error (.valueError ("Binance " ++ fieldName ++ " is required"))

def optionalDecimal (v : Value) (fieldName : String) : Except PyError (Option Finite) :=
  if v.isNoneOrEmpty then .ok none
  else do return some (← v.toFinite ("Binance " ++ fieldName))

def requiredPositiveDecimal (v : Value) (fieldName : String) : Except PyError Positive :=
  v.toPositive ("Binance " ++ fieldName)

/-- The texts of a list, if it holds nothing else. -/
def texts : List Value → Option (List String)
  | [] => some []
  | .str s :: rest => (texts rest).map (s :: ·)
  | _ => none

def stringList (v : Value) (fieldName : String) : Except PyError (List String) :=
  match v.list?.bind texts with
  | some items =>
      .ok ((items.filter fun item => strip item ≠ "").map fun item => upper (strip item))
  | none => .error (.valueError ("Binance " ++ fieldName ++ " must be a string array"))

def filterOf (filters : List Value) (filterType : String) : Except PyError Dict :=
  match (filters.filterMap Value.dict?).find? fun item =>
      (item.get "filterType").isText filterType with
  | some item => .ok item
  | none => .error (.valueError ("Binance symbol filter is missing: " ++ filterType))

def symbolRulesFromPayload (payload : Dict) : Except PyError SymbolRules :=
  match payload.get "filters" with
  | .list filters => do
      let priceFilter ← filterOf filters "PRICE_FILTER"
      let lotSize ← filterOf filters "LOT_SIZE"
      let marketLotSize ← filterOf filters "MARKET_LOT_SIZE"
      let minNotional ← filterOf filters "MIN_NOTIONAL"
      return {
        symbol := upper (← requiredText (payload.get "symbol") "symbol")
        status := upper (← requiredText (payload.get "status") "status")
        orderTypes := ← stringList (payload.get "orderTypes") "orderTypes"
        timeInForce := ← stringList (payload.get "timeInForce") "timeInForce"
        minPrice := ← optionalDecimal (priceFilter.get "minPrice") "minPrice"
        maxPrice := ← optionalDecimal (priceFilter.get "maxPrice") "maxPrice"
        tickSize := ← requiredPositiveDecimal (priceFilter.get "tickSize") "tickSize"
        minQty := ← requiredPositiveDecimal (lotSize.get "minQty") "minQty"
        maxQty := ← requiredPositiveDecimal (lotSize.get "maxQty") "maxQty"
        stepSize := ← requiredPositiveDecimal (lotSize.get "stepSize") "stepSize"
        marketMinQty := ← optionalDecimal (marketLotSize.get "minQty") "marketMinQty"
        marketMaxQty := ← optionalDecimal (marketLotSize.get "maxQty") "marketMaxQty"
        marketStepSize := ← optionalDecimal (marketLotSize.get "stepSize") "marketStepSize"
        minNotional := ← optionalDecimal (minNotional.get "notional") "minNotional" }
  | _ => .error (.valueError "Binance symbol filters are missing")

def symbolRules (exchangeInfo : Dict) (symbol : String) : Except PyError SymbolRules :=
  match exchangeInfo.get "symbols" with
  | .list symbols =>
      let normalizedSymbol := upper symbol
      match (symbols.filterMap Value.dict?).find? fun item =>
          upper ((item.get "symbol").pyOr "").toText = normalizedSymbol with
      | some item => symbolRulesFromPayload item
      | none => .error (.valueError
          ("Binance Futures symbol is not found in exchangeInfo: " ++ normalizedSymbol))
  | _ => .error (.valueError "Binance exchangeInfo symbols are missing")

def exchangeInformationPayload : Value → Except PyError Dict
  | .dict response => do
      rejectSecretFields [] (.dict response)
      return response
  | _ => .error (.valueError "Binance exchangeInfo response is invalid")

end Rules

/-! ### The test order -/

def binanceOrderType : OrderType → String
  | .limit => "LIMIT"
  | .market => "MARKET"
  | .stop => "STOP_MARKET"
  | .stopLimit => "STOP"
  | .stopMarket => "STOP_MARKET"

def binanceSide (side : OkxSide) : String :=
  match side with
  | .buy => "BUY"
  | .sell => "SELL"

/-- `text or "GTC"`, as the exchange spells it. -/
def timeInForceOf [Runtime] (request : BrokerOrderRequest) : String :=
  let text := request.timeInForce.getD ""
  upper (strip (if text = "" then "GTC" else text))

/-- `value or other`: a market bound of zero gives way to the general one. -/
def boundOr (value : Option Finite) (other : Positive) : ℚ :=
  match value with
  | some d => if d.val = 0 then other.val else d.val
  | none => other.val

section Order

variable [Runtime] [sdk : BinanceSdk] (ctx : Context)

def validateRulesCompatibility (request : BrokerOrderRequest) (orderType : String)
    (rules : SymbolRules) : Except PyError Unit := do
  raiseIf (rules.status ≠ "TRADING") "Binance Futures symbol is not trading"
  raiseIf (orderType ∉ rules.orderTypes) "Binance Futures order type is not allowed for symbol"
  raiseIf (request.timeInForce.getD "" ≠ "" ∧ timeInForceOf request ∉ rules.timeInForce)
    "Binance Futures timeInForce is not allowed for symbol"

def normalizedQuantity (request : BrokerOrderRequest) (rules : SymbolRules) :
    Except PyError (Option ℚ) :=
  match request.quantity with
  | none => .ok none
  | some requested => do
      let isMarket := request.orderType = .market
      let minQty := if isMarket then boundOr rules.marketMinQty rules.minQty else rules.minQty.val
      let maxQty := if isMarket then boundOr rules.marketMaxQty rules.maxQty else rules.maxQty.val
      let stepSize :=
        if isMarket then boundOr rules.marketStepSize rules.stepSize else rules.stepSize.val
      let quantity ← roundDownToStep ctx requested.val stepSize
      raiseIf (quantity ≤ 0) "Binance Futures quantity rounds to zero"
      raiseIf (quantity < minQty) "Binance Futures quantity is below minQty after normalization"
      raiseIf (maxQty < quantity) "Binance Futures quantity exceeds maxQty"
      return some quantity

/-- Below or above a bound that is there. -/
def outside (below : ℚ → ℚ → Bool) (price : ℚ) : Option Finite → Bool
  | some bound => below price bound.val
  | none => false

def normalizedPrice (value : Option Positive) (side : OkxSide) (rules : SymbolRules) :
    Except PyError (Option ℚ) :=
  match value with
  | none => .ok none
  | some value => do
      let price ← roundToTick ctx value.val rules.tickSize.val side
      raiseIf (outside (fun p b => decide (p < b)) price rules.minPrice)
        "Binance Futures price is below minPrice after normalization"
      raiseIf (outside (fun p b => decide (b < p)) price rules.maxPrice)
        "Binance Futures price exceeds maxPrice after normalization"
      return some price

/-- The notional a minimum is held against. -/
def orderNotional (request : BrokerOrderRequest) (price quantity : Option ℚ) : Except PyError ℚ :=
  match price, quantity, request.notional with
  | some price, some quantity, _ => contextMul ctx price quantity
  | _, _, some notional => .ok notional.val
  | _, _, none => .error (.valueError
      "Binance Futures order notional is required for minNotional preflight")

def validateMinNotional (request : BrokerOrderRequest) (price quantity : Option ℚ)
    (rules : SymbolRules) : Except PyError Unit :=
  match rules.minNotional with
  | none => .ok ()
  | some minNotional => do
      let notional ← orderNotional ctx request price quantity
      raiseIf (notional < minNotional.val) "Binance Futures order notional is below minNotional"

/-- A number that has to be there, as the text of its float. -/
def requiredFloat (value : Option ℚ) (message : String) : Except PyError String :=
  match value with
  | some q => .ok (Runtime.floatText q)
  | none => .error (.valueError message)

/-- The SDK's member for a time in force. -/
def timeInForceMember (text : String) : Except PyError String :=
  if sdk.isTimeInForce text then .ok text
  else .error (.valueError (reprText text ++ " is not a valid TestOrderTimeInForceEnum"))

/-- The stop price of a stop-limit order. -/
def stopLimitPrice (request : BrokerOrderRequest) (stopPrice : Option ℚ) :
    Except PyError (Option String) :=
  if request.orderType = .stopLimit then
    (requiredFloat stopPrice "Binance Futures stop-limit orders require stop price").map some
  else .ok none

/-- The fields that depend on the order type. -/
def typedFields (request : BrokerOrderRequest) (params : TestOrderParams)
    (quantity price stopPrice : Option ℚ) : Except PyError TestOrderParams :=
  match request.orderType with
  | .limit | .stopLimit => do
      let quantity ← requiredFloat quantity "Binance Futures limit orders require quantity"
      let price ← requiredFloat price "Binance Futures limit orders require price"
      let timeInForce ← timeInForceMember (timeInForceOf request)
      let stop ← stopLimitPrice request stopPrice
      return { params with
        quantity := some quantity, price := some price, timeInForce := some timeInForce,
        stopPrice := stop }
  | .market => do
      let quantity ← requiredFloat quantity "Binance Futures market orders require quantity"
      return { params with quantity := some quantity }
  | .stop | .stopMarket => do
      let quantity ← requiredFloat quantity "Binance Futures stop-market orders require quantity"
      let stop ← requiredFloat stopPrice
        "Binance Futures stop-market orders require stop price"
      return { params with quantity := some quantity, stopPrice := some stop }

def TestOrderParams.toDict (params : TestOrderParams) : Dict :=
  ([("new_client_order_id", params.newClientOrderId), ("position_side", "BOTH"),
    ("side", params.side), ("symbol", params.symbol), ("type", params.type)] : Dict)
  ++ optionalEntry "reduce_only" params.reduceOnly ++ optionalEntry "quantity" params.quantity
  ++ optionalEntry "price" params.price ++ optionalEntry "time_in_force" params.timeInForce
  ++ optionalEntry "stop_price" params.stopPrice

def orderTestParams (request : BrokerOrderRequest) (rules : SymbolRules) :
    Except PyError TestOrderParams := do
  let side := okxSide request
  let orderType := binanceOrderType request.orderType
  validateRulesCompatibility request orderType rules
  let quantity ← normalizedQuantity ctx request rules
  let price ← normalizedPrice ctx request.limitPrice side rules
  let stopPrice ← normalizedPrice ctx request.stopPrice side rules
  validateMinNotional ctx request price quantity rules
  let head : TestOrderParams := {
    newClientOrderId := request.clientOrderId
    side := binanceSide side
    symbol := request.symbol
    type := orderType
    reduceOnly := if request.positionEffect = .opening then none else some "true"
    quantity := none
    price := none
    timeInForce := none
    stopPrice := none }
  let params ← typedFields request head quantity price stopPrice
  rejectSecretFields [] (.dict params.toDict)
  return params

/-- An entry for a float that is there. -/
def floatEntry (key : String) : Option String → Dict
  | some text => [(.str key, .float text)]
  | none => []

def publicNormalizedOrder (params : TestOrderParams) : Except PyError Dict := do
  let payload : Dict :=
    ([("symbol", params.symbol), ("side", params.side), ("type", params.type),
      ("positionSide", "BOTH")] : Dict)
    ++ floatEntry "quantity" params.quantity ++ floatEntry "price" params.price
    ++ floatEntry "stopPrice" params.stopPrice ++ optionalEntry "timeInForce" params.timeInForce
    ++ optionalEntry "reduceOnly" params.reduceOnly
  rejectSecretFields [] (.dict payload)
  return payload

variable {C : Type} (api : BinanceCall → Prog C Value PyError Value)

/-- `prepare_order` of the order-test adapter. -/
def prepareOrder (request : BrokerOrderRequest) : Prog C Value PyError BrokerAdapterResult := do
  raiseIf (request.provider ≠ "binance") "Binance adapter received a non-Binance request"
  raiseIf (request.executionMode ≠ .real)
    "Binance Futures mainnet order test requires executionMode=real"
  let exchangeInfo ← exchangeInformationPayload (← api .exchangeInformation)
  let rules ← symbolRules exchangeInfo request.symbol
  let params ← orderTestParams ctx request rules
  let _ ← api (.testOrder params)
  let payload : Dict :=
    [("adapter", binanceUsdmFuturesMainnetOrderTestAdapter),
      ("clientOrderId", request.clientOrderId), ("executorAction", "order_test_validated"),
      ("mainnet", .bool true), ("market", "usdm_futures"),
      ("normalizedOrder", .dict (← publicNormalizedOrder params)), ("provider", "binance")]
  rejectSecretFields [] (.dict payload)
  return ⟨payload⟩

end Order

end Binance

end YtmExecutor
