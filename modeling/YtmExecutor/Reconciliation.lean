/-
Snapshots of what OKX has: balances, positions, orders, algo orders and fills.

A capture makes eight kinds of reads, one after the other, and turns every record into a
small entry of texts under YTM's own names.  The four required lists must be readable;
an algo list that is not is left out, and the snapshot says so in its warnings.

An order may say where a close came from, or its kind and its client id may imply it
(`inferCloseSource`).  A fill that says nothing itself takes over what the last record
says that shares an id with it.
-/
import YtmExecutor.OkxSwap.Protection
import YtmExecutor.Python.Datetime
import YtmExecutor.Python.Fields
import YtmExecutor.Stores

namespace YtmExecutor

open Python Interaction

namespace Reconciliation

def okxReconciliationAlgoOrderTypes : List String :=
  ["conditional", "oco", "trigger", "move_order_stop"]

def ytmOkxClientOrderPrefix : String := "ytm"

/-- The reads of a capture. -/
inductive OkxRead where
  | getAccountBalance
  | getPositions (instType : String)
  | getOrderList (instType : String)
  | getOrdersHistory (instType limit : String)
  | getFillsHistory (instType limit : String)
  | orderAlgosList (ordType instType limit : String)
  | orderAlgosHistory (ordType instType limit : String)

section Records

variable [Runtime]

/-! ### Texts of a record -/

/-- `_text(value)`. -/
def valueText : Value → String
  | .none => ""
  | v => strip v.toText

/-- `_text(item.get(key))`. -/
def fieldText (item : Dict) (key : String) : String := valueText (item.get key)

/-- `_bool_text`: the truth value a text names, or the text. -/
def boolText (v : Value) : Value :=
  let text := valueText v
  if lower text = "true" then .bool true
  else if lower text = "false" then .bool false
  else .str text

def normalizedToken (v : Value) : String :=
  let text := replaceChar ' ' "_" (replaceChar '-' "_" (lower (valueText v)))
  String.ofList (text.toList.filter fun c => isAlnum c || decide (c = '_'))

/-- The fields that are not blank. -/
def compact (payload : List (String × Value)) : Dict :=
  (payload.filter fun field => !field.2.isNoneOrEmpty).map fun field => (.str field.1, field.2)

def plainSwapSymbol (instId : String) : String :=
  let normalized := okxSwapInstrumentId instId
  let cs := normalized.toList
  if "-SWAP".toList.isSuffixOf cs then
    match (cs.take (cs.length - 5)).splitOn '-' with
    | [base, quote] => if base ≠ [] ∧ quote ≠ [] then String.ofList (base ++ quote) else normalized
    | _ => normalized
  else normalized

def positionSide (posSide quantity : String) : String :=
  let normalized := lower posSide
  if normalized ∈ ["long", "short"] then normalized
  else if quantity.toList.head? = some '-' then "short"
  else "long"

/-! ### Close sources -/

/-- The close source a token names. -/
def namedCloseSource (token : String) : Option String :=
  if token ∈ ["tp", "takeprofit", "take_profit"] then some "take_profit"
  else if token ∈ ["sl", "stoploss", "stop_loss"] then some "stop_loss"
  else if token ∈ ["manual", "provider_manual", "external_manual"] then some "provider_manual"
  else none

/-- The close source a kind of order implies. -/
def orderTypeCloseSource (token : String) : Option String :=
  if token ∈ ["takeprofit", "take_profit", "tp"] then some "take_profit"
  else if token ∈ ["stoploss", "stop_loss", "sl"] then some "stop_loss"
  else none

def closeSourceKeys : List String := ["closeSource", "actualSide", "orderRole", "triggerSource"]

/-- `text.startswith(YTM_OKX_CLIENT_ORDER_PREFIX)`. -/
def hasYtmPrefix (text : String) : Bool := ytmOkxClientOrderPrefix.toList.isPrefixOf text.toList

def inferCloseSource (item : Dict) : String :=
  match closeSourceKeys.findSome? fun key => namedCloseSource (normalizedToken (item.get key)) with
  | some source => source
  | none =>
    match orderTypeCloseSource (normalizedToken (item.get "ordType")) with
    | some source => source
    | none =>
        if (boolText (item.get "reduceOnly")).isTrue && !hasYtmPrefix (fieldText item "clOrdId") then
          "provider_manual"
        else ""

/-- The ids of an order, an algo order or a fill. -/
def refKeys : List String := ["ordId", "algoId", "clOrdId", "algoClOrdId"]

def putRefs (sources : List (String × String)) (item : Dict) (closeSource : String) :
    List String → List (String × String)
  | [] => sources
  | key :: rest =>
      let value := fieldText item key
      putRefs (if value = "" then sources else setField sources value closeSource) item closeSource
        rest

def closeSourcesByOrderRef (items : List Dict) : List (String × String) :=
  items.foldl (fun sources item =>
    let closeSource := inferCloseSource item
    if closeSource = "" then sources else putRefs sources item closeSource refKeys) []

def fillRefKeys : List String := ["ordId", "clOrdId", "algoId", "algoClOrdId"]

def fillCloseSource (item : Dict) (closeSources : List (String × String)) : String :=
  let explicit := inferCloseSource item
  if explicit ≠ "" then explicit
  else (fillRefKeys.findSome? fun key => closeSources.lookup (fieldText item key)).getD ""

/-! ### Entries -/

/-- Sorted by the texts under these keys. -/
def sortByKeys (keys : List String) (entries : List Dict) : List Dict :=
  entries.insertionSort fun a b =>
    keys.map (SecretStore.keyText a) ≤ keys.map (SecretStore.keyText b)

/-- Sorted entries that pass the guard. -/
def publicEntries (keys : List String) (entries : List Dict) : Except PyError (List Dict) := do
  let sorted := sortByKeys keys entries
  rejectSecretFields [] (.list (sorted.map .dict))
  return sorted

def balanceEntry (detail : Dict) : Dict :=
  compact
    [("availableBalance", fieldText detail "availBal"),
      ("cashBalance", fieldText detail "cashBal"),
      ("currency", fieldText detail "ccy"),
      ("equity", fieldText detail "eq"),
      ("frozenBalance", fieldText detail "frozenBal"),
      ("isolatedEquity", fieldText detail "isoEq"),
      ("usdEquity", fieldText detail "eqUsd")]

/-- The details of an account that are dicts. -/
def accountDetails (account : Dict) : List Dict :=
  match account.get "details" with
  | .list details => details.filterMap Value.dict?
  | _ => []

def sanitizeBalances (items : List Dict) : Except PyError (List Dict) :=
  publicEntries ["currency"] ((items.flatMap accountDetails).map balanceEntry)

def positionEntry (item : Dict) : Dict :=
  let instId := fieldText item "instId"
  let quantity := fieldText item "pos"
  compact
    [("averageEntryPrice", fieldText item "avgPx"),
      ("instrumentId", instId),
      ("leverage", fieldText item "lever"),
      ("margin", fieldText item "margin"),
      ("marginMode", fieldText item "mgnMode"),
      ("markPrice", fieldText item "markPx"),
      ("notionalUsd", fieldText item "notionalUsd"),
      ("positionId", fieldText item "posId"),
      ("positionSide", fieldText item "posSide"),
      ("quantity", quantity),
      ("side", positionSide (fieldText item "posSide") quantity),
      ("symbol", plainSwapSymbol instId),
      ("unrealizedPnl", fieldText item "upl")]

def sanitizePositions (items : List Dict) : Except PyError (List Dict) :=
  publicEntries ["instrumentId", "positionSide", "positionId"] (items.map positionEntry)

def orderEntry (item : Dict) : Dict :=
  let instId := fieldText item "instId"
  compact
    [("actualSide", fieldText item "actualSide"),
      ("algoClientOrderId", fieldText item "algoClOrdId"),
      ("algoOrderId", fieldText item "algoId"),
      ("averageFillPrice", fieldText item "avgPx"),
      ("clientOrderId", fieldText item "clOrdId"),
      ("closeSource", inferCloseSource item),
      ("filledQuantity", fieldText item "accFillSz"),
      ("instrumentId", instId),
      ("orderType", fieldText item "ordType"),
      ("positionSide", fieldText item "posSide"),
      ("price", fieldText item "px"),
      ("providerOrderId", fieldText item "ordId"),
      ("quantity", fieldText item "sz"),
      ("reduceOnly", boolText (item.get "reduceOnly")),
      ("side", fieldText item "side"),
      ("state", fieldText item "state"),
      ("symbol", plainSwapSymbol instId),
      ("timeInForce", fieldText item "tif")]

def sanitizeOrders (items : List Dict) : Except PyError (List Dict) :=
  publicEntries ["instrumentId", "providerOrderId", "clientOrderId"] (items.map orderEntry)

def algoOrderEntry (item : Dict) : Dict :=
  let instId := fieldText item "instId"
  compact
    [("actualSide", fieldText item "actualSide"),
      ("algoClientOrderId", fieldText item "algoClOrdId"),
      ("algoOrderId", fieldText item "algoId"),
      ("closeSource", inferCloseSource item),
      ("instrumentId", instId),
      ("linkedClientOrderId", fieldText item "clOrdId"),
      ("linkedOrderId", fieldText item "ordId"),
      ("orderPrice", valueText ((item.get "orderPx").pyOr (item.get "ordPx"))),
      ("orderType", fieldText item "ordType"),
      ("positionSide", fieldText item "posSide"),
      ("side", fieldText item "side"),
      ("state", fieldText item "state"),
      ("stopLossOrderPrice", fieldText item "slOrdPx"),
      ("stopLossTriggerPrice", fieldText item "slTriggerPx"),
      ("symbol", plainSwapSymbol instId),
      ("takeProfitOrderPrice", fieldText item "tpOrdPx"),
      ("takeProfitTriggerPrice", fieldText item "tpTriggerPx"),
      ("triggerPrice", fieldText item "triggerPx")]

def sanitizeAlgoOrders (items : List Dict) : Except PyError (List Dict) :=
  publicEntries ["instrumentId", "algoOrderId", "linkedOrderId"] (items.map algoOrderEntry)

def fillEntry (closeSources : List (String × String)) (item : Dict) : Dict :=
  let instId := fieldText item "instId"
  compact
    [("actualSide", fieldText item "actualSide"),
      ("clientOrderId", fieldText item "clOrdId"),
      ("closeSource", fillCloseSource item closeSources),
      ("execType", fieldText item "execType"),
      ("feeAmount", fieldText item "fee"),
      ("feeCurrency", fieldText item "feeCcy"),
      ("fillId", valueText ((item.get "billId").pyOr (item.get "tradeId"))),
      ("fillPrice", fieldText item "fillPx"),
      ("fillQuantity", fieldText item "fillSz"),
      ("fillTime", valueText ((item.get "fillTime").pyOr (item.get "ts"))),
      ("instrumentId", instId),
      ("orderType", fieldText item "ordType"),
      ("positionSide", fieldText item "posSide"),
      ("providerOrderId", fieldText item "ordId"),
      ("realizedPnl", valueText (((item.get "fillPnl").pyOr (item.get "pnl")).pyOr
        (item.get "realizedPnl"))),
      ("side", fieldText item "side"),
      ("symbol", plainSwapSymbol instId)]

def sanitizeFills (items : List Dict) (closeSources : List (String × String)) :
    Except PyError (List Dict) :=
  publicEntries ["fillTime", "providerOrderId", "fillId"] (items.map (fillEntry closeSources))

/-! ### Captures -/

/-- The records of a capture. -/
structure OkxRecords where
  balances : List Dict
  positions : List Dict
  orders : List Dict
  orderHistory : List Dict
  algoOrders : List Dict
  fills : List Dict
  warnings : List String

/-- The orders that may say where a fill came from. -/
def OkxRecords.closing (records : OkxRecords) : List Dict :=
  records.orders ++ records.orderHistory ++ records.algoOrders

def OkxRecords.closeSources (records : OkxRecords) : List (String × String) :=
  closeSourcesByOrderRef records.closing

/-- `_iso_z`: the timestamp without a fraction. -/
def isoZ (t : Instant) : String := utcTimestamp (t - t % microsecondsPerSecond)

def warningsEntry : List String → Dict
  | [] => []
  | warnings => [("warnings", .list (warnings.map .str))]

def snapshotOf (records : OkxRecords) (capturedAt : Instant) : Except PyError Dict := do
  let algoOrders ← sanitizeAlgoOrders records.algoOrders
  let balances ← sanitizeBalances records.balances
  let fills ← sanitizeFills records.fills records.closeSources
  let orderHistory ← sanitizeOrders records.orderHistory
  let openOrders ← sanitizeOrders records.orders
  let positions ← sanitizePositions records.positions
  let snapshot : Dict :=
    ([("algoOrders", .list (algoOrders.map .dict)),
      ("balances", .list (balances.map .dict)),
      ("capturedAt", isoZ capturedAt),
      ("fills", .list (fills.map .dict)),
      ("market", "okx_swap"),
      ("orderHistory", .list (orderHistory.map .dict)),
      ("openOrders", .list (openOrders.map .dict)),
      ("positions", .list (positions.map .dict)),
      ("provider", "okx"),
      ("source", "executor_okx_reconciliation"),
      ("zeroSecret", .bool true)] : Dict)
    ++ warningsEntry records.warnings
  rejectSecretFields [] (.dict snapshot)
  return snapshot

variable {C : Type} (api : OkxRead → Prog C Value PyError Value)

def okxData (read : OkxRead) (endpoint : String) : Prog C Value PyError (List Dict) := do
  okxResponseData (← api read) endpoint

/-- A read that may fail: its records, or a warning. -/
def optionalOkxResponseData (read : OkxRead) (endpoint : String) :
    Prog C Value PyError (List Dict × List String) :=
  Prog.handle (fun _ => some (.done ([], [endpoint ++ "_unavailable"]))) do
    return (← okxData api read endpoint, [])

def captureAlgoOrders : List String → Prog C Value PyError (List Dict × List String)
  | [] => return ([], [])
  | ordType :: rest => do
      let pending ← optionalOkxResponseData api (.orderAlgosList ordType "SWAP" "100")
        ("algo_orders_pending_" ++ ordType)
      let history ← optionalOkxResponseData api (.orderAlgosHistory ordType "SWAP" "100")
        ("algo_orders_history_" ++ ordType)
      let others ← captureAlgoOrders rest
      return (pending.1 ++ (history.1 ++ others.1), pending.2 ++ (history.2 ++ others.2))

def captureRecords : Prog C Value PyError OkxRecords := do
  let balances ← okxData api .getAccountBalance "account_balance"
  let positions ← okxData api (.getPositions "SWAP") "positions"
  let orders ← okxData api (.getOrderList "SWAP") "orders_pending"
  let orderHistory ← okxData api (.getOrdersHistory "SWAP" "100") "orders_history"
  let algoOrders ← captureAlgoOrders api okxReconciliationAlgoOrderTypes
  let fills ← okxData api (.getFillsHistory "SWAP" "100") "fills_history"
  return ⟨balances, positions, orders, orderHistory, algoOrders.1, fills, algoOrders.2⟩

def captureSnapshot (now : Instant) : Prog C Value PyError Dict := do
  let records ← captureRecords api
  snapshotOf records now

end Records

end Reconciliation

end YtmExecutor
