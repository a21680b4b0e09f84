/-
The protection of an accepted OKX order.

Once the entry order is accepted, its attached stop-loss is looked for among the pending
algo orders.  Where it is missing and a position is open, a reduce-only stop is placed
for the position.  Nothing here may make an accepted order look rejected, so
`safeVerifyOrRemediateProtection` turns every `ValueError` into a status.

The programs take the API as a parameter: `api op` makes the call `op`.
-/
import YtmExecutor.Interaction.Prog
import YtmExecutor.OkxSwap.Replies

namespace YtmExecutor

open Python Decimal Interaction

/-! ### What is expected -/

def expectedTakeProfit : Option AttachedTakeProfit → Option AttachedTakeProfit
  | some tp =>
      match nonBlank tp.tpTriggerPx, nonBlank tp.tpOrdPx with
      | some trigger, some order =>
          some ⟨order, trigger, (nonBlank tp.tpTriggerPxType).getD "last"⟩
      | _, _ => none
  | none => none

/-- The protection an order was sent with. -/
def expectedProtection (orderParams : OrderParams) : Option AttachedTpSl :=
  match orderParams.attachAlgoOrds with
  | none => none
  | some item =>
      match nonBlank item.slTriggerPx, nonBlank item.slOrdPx, nonBlank item.attachAlgoClOrdId with
      | some trigger, some order, some clientOrderId =>
          some ⟨clientOrderId, order, trigger, (nonBlank item.slTriggerPxType).getD "last",
            expectedTakeProfit item.takeProfit⟩
      | _, _, _ => none

/-- The stop-loss and the take-profit that were expected, as they are reported. -/
def expectedTriggers (expected : AttachedTpSl) : Dict :=
  ([("slOrdPx", expected.slOrdPx), ("slTriggerPx", expected.slTriggerPx),
    ("slTriggerPxType", expected.slTriggerPxType)] : Dict)
  ++ AttachedTakeProfit.entries expected.takeProfit

def expectedProtectionPublic : Option AttachedTpSl → Dict
  | none => []
  | some expected =>
      (("algoClientOrderId", .str expected.attachAlgoClOrdId) : Key × Value)
        :: expectedTriggers expected

/-- A text that may be missing, as JSON. -/
def optionValue : Option String → Value
  | some text => .str text
  | none => .none

/-! ### Looking for it -/

section Search

variable [Runtime]

def attachedProtectionResponse (value : Value) (expected : AttachedTpSl) : Option Dict :=
  match value with
  | .list items =>
      (items.filterMap Value.dict?).find? fun item =>
        okxOptionalText (item.get "attachAlgoClOrdId") = some expected.attachAlgoClOrdId
  | _ => none

/-- The take-profit of an algo order is the expected one, if one was expected. -/
def matchesTakeProfit (item : Dict) : Option AttachedTakeProfit → Bool
  | some tp =>
      decide (okxOptionalText (item.get "tpTriggerPx") = some tp.tpTriggerPx
        ∧ okxOptionalText (item.get "tpOrdPx") = some tp.tpOrdPx)
  | none => true

/-- An algo order that is the expected protection. -/
def matchesProtection (expected : AttachedTpSl) (providerOrderId : String) (item : Dict) : Bool :=
  let state := lower ((okxOptionalText (item.get "state")).getD "")
  decide ((state = "" ∨ state ∈ ["live", "effective", "partially_effective"])
    ∧ okxOptionalText (item.get "slTriggerPx") = some expected.slTriggerPx
    ∧ okxOptionalText (item.get "slOrdPx") = some expected.slOrdPx
    ∧ matchesTakeProfit item expected.takeProfit
    ∧ (okxOptionalText (item.get "algoClOrdId") = some expected.attachAlgoClOrdId
      ∨ okxOptionalText (item.get "ordId") = some providerOrderId))

def matchingPendingProtection (items : List Dict) (expected : AttachedTpSl)
    (providerOrderId : String) : Option Dict :=
  items.find? (matchesProtection expected providerOrderId)

variable (ctx : Context)

/-- The first row of the instrument whose size is not zero. -/
def matchingOpenPosition (rules : OkxSwapInstrumentRules) :
    List Dict → Except PyError (Option Dict)
  | [] => .ok none
  | item :: rest => do
      if upper ((item.get "instId").pyOr "").toText ≠ rules.instId then
        matchingOpenPosition rules rest
      else
        match ← okxOptionalAbsDecimal ctx (item.get "pos") "pos" with
        | some size =>
            if 0 < size then
              return some (item.set "normalizedSize" (.str (← decimalText ctx size)))
            else matchingOpenPosition rules rest
        | none => matchingOpenPosition rules rest

/-! ### The remediation stop -/

def okxPositionCloseSide (position : Dict) (request : BrokerOrderRequest) :
    Except PyError OkxSide := do
  match ← okxOptionalDecimal (position.get "pos") "pos" with
  | some rawPos =>
      if rawPos.val < 0 then return .buy
      if 0 < rawPos.val then return .sell
      return triggerSide request.side
  | none => return triggerSide request.side

def remediationStopLossParams (request : BrokerOrderRequest) (providerOrderId : String)
    (position : Dict) (rules : OkxSwapInstrumentRules) (expected : AttachedTpSl) :
    Except PyError AlgoParams := do
  let size := (← okxOptionalAbsDecimal ctx (position.get "pos") "pos").getD 0
  raiseIf (size ≤ 0) "OKX open position size is missing for stop-loss remediation"
  let positionSide ← okxPositionCloseSide position request
  let rounded ← roundDownToStep ctx size rules.lotSize.val
  let sz ← decimalText ctx rounded
  let tdMode ← okxTdMode request.marginMode
  return {
    algoClOrdId := okxAttachedAlgoClientOrderId (request.clientOrderId ++ ":" ++ providerOrderId)
      "sr"
    instId := rules.instId
    ordType := "conditional"
    posSide := "net"
    reduceOnly := "true"
    side := positionSide
    slOrdPx := expected.slOrdPx
    slTriggerPx := expected.slTriggerPx
    slTriggerPxType := expected.slTriggerPxType
    sz := sz
    tdMode := tdMode }

end Search

/-! ### The programs -/

section Programs

variable [Runtime] (ctx : Context) {C : Type} (api : OkxCall → Prog C Value PyError Value)

/-- One call, and the data of its reply. -/
def okxQuery (op : OkxCall) (endpoint : String) : Prog C Value PyError (List Dict) := do
  okxResponseData (← api op) endpoint

def takeValueError {α : Type} (handler : String → Prog C Value PyError α) (e : PyError) :
    Option (Prog C Value PyError α) :=
  match e with
  | .valueError message => some (handler message)
  | _ => none

/-- Build the stop, place it, and read the reply. -/
def placeRemediation (request : BrokerOrderRequest) (providerOrderId : String) (position : Dict)
    (rules : OkxSwapInstrumentRules) (expected : AttachedTpSl) (reasonCode : String) :
    Prog C Value PyError Dict := do
  let remediationParams ←
    remediationStopLossParams ctx request providerOrderId position rules expected
  let items ← okxQuery api (.placeAlgoOrder remediationParams) "place_algo_order"
  let response ← singleOrderResponse items "place_algo_order"
  return ([("algoClientOrderId", remediationParams.algoClOrdId),
      ("algoOrderId", optionValue (okxOptionalText (response.get "algoId"))),
      ("remediated", .bool true), ("remediationReasonCode", reasonCode)] : Dict)
    ++ expectedTriggers expected
    ++ ([("status", "protected_remediated"),
      ("verification", "standalone_stop_loss_algo_order")] : Dict)

/-- What is reported when the stop could not be placed. -/
def unprotected (expected : AttachedTpSl) (reasonCode message : String) : Dict :=
  ([("actionRequired", "manual_intervention"), ("reason", message),
    ("reasonCode", "stop_loss_remediation_failed")] : Dict)
  ++ expectedTriggers expected
  ++ ([("status", "unprotected"), ("verification", reasonCode)] : Dict)

/-- Place the stop for a position that is open. -/
def remediatePosition (request : BrokerOrderRequest) (providerOrderId : String) (position : Dict)
    (rules : OkxSwapInstrumentRules) (expected : AttachedTpSl) (reasonCode : String) :
    Prog C Value PyError Dict :=
  (placeRemediation ctx api request providerOrderId position rules expected reasonCode).handle
    (takeValueError fun message => .done (unprotected expected reasonCode message))

def queryOpenPosition (rules : OkxSwapInstrumentRules) : Prog C Value PyError (Option Dict) := do
  let items ← okxQuery api (.getPositions "SWAP" rules.instId) "get_positions"
  matchingOpenPosition ctx rules items

/-- The attached protection was rejected: close the gap if a position is open. -/
def remediateRejectedAttachment (request : BrokerOrderRequest) (providerOrderId : String)
    (rules : OkxSwapInstrumentRules) (expected : AttachedTpSl) (reasonCode reason : String) :
    Prog C Value PyError Dict := do
  match ← queryOpenPosition ctx api rules with
  | some position =>
      remediatePosition ctx api request providerOrderId position rules expected reasonCode
  | none =>
      return expectedProtectionPublic (some expected)
        ++ ([("reason", reason), ("reasonCode", reasonCode), ("status", "pending_activation"),
          ("verification", "no_open_position_after_attach_failure")] : Dict)

def matchingPendingProtectionFromApi (rules : OkxSwapInstrumentRules) (expected : AttachedTpSl)
    (providerOrderId : String) : List String → Prog C Value PyError (Option Dict)
  | [] => return none
  | orderType :: rest => do
      let items ← okxQuery api (.orderAlgosPending "SWAP" rules.instId orderType)
        ("order_algos_pending_" ++ orderType)
      match matchingPendingProtection items expected providerOrderId with
      | some found => return some found
      | none => matchingPendingProtectionFromApi rules expected providerOrderId rest

/-- What is reported of a pending algo order that protects the position. -/
def protectedBy (expected : AttachedTpSl) (pendingMatch : Dict) : Dict :=
  ([("algoClientOrderId", optionValue (okxOptionalText (pendingMatch.get "algoClOrdId"))),
    ("algoOrderId", optionValue (okxOptionalText (pendingMatch.get "algoId")))] : Dict)
  ++ expectedTriggers expected
  ++ ([("status", "protected"), ("verification", "pending_algo_order")] : Dict)

/-- The attached protection was not rejected: look for it, and act if it is missing. -/
def verifyPendingProtection (request : BrokerOrderRequest) (providerOrderId : String)
    (rules : OkxSwapInstrumentRules) (expected : AttachedTpSl) : Prog C Value PyError Dict := do
  match ← matchingPendingProtectionFromApi api rules expected providerOrderId
      okxAlgoOrderTypes with
  | some pendingMatch => return protectedBy expected pendingMatch
  | none =>
      match ← queryOpenPosition ctx api rules with
      | some position =>
          remediatePosition ctx api request providerOrderId position rules expected
            "active_protection_not_found"
      | none =>
          return expectedProtectionPublic (some expected)
            ++ ([("reasonCode", "parent_order_not_filled"), ("status", "pending_activation"),
              ("verification", "no_open_position")] : Dict)

def verifyOrRemediateProtection (request : BrokerOrderRequest) (orderParams : OrderParams)
    (orderResponse : Dict) (providerOrderId : String) (rules : OkxSwapInstrumentRules) :
    Prog C Value PyError Dict :=
  match expectedProtection orderParams with
  | none =>
      return [("reasonCode", "protection_not_required"), ("status", "not_required")]
  | some expected =>
      let attachResponse :=
        attachedProtectionResponse (orderResponse.get "attachAlgoOrds") expected
      match attachResponse.bind fun item => (okxOptionalText (item.get "failCode")).map (item, ·) with
      | some (item, failCode) =>
          remediateRejectedAttachment ctx api request providerOrderId rules expected
            "attached_protection_rejected"
            ((okxOptionalText (item.get "failReason")).getD
              ("OKX attached TP/SL failed with code " ++ failCode))
      | none => verifyPendingProtection ctx api request providerOrderId rules expected

def safeVerifyOrRemediateProtection (request : BrokerOrderRequest) (orderParams : OrderParams)
    (orderResponse : Dict) (providerOrderId : String) (rules : OkxSwapInstrumentRules) :
    Prog C Value PyError Dict :=
  (verifyOrRemediateProtection ctx api request orderParams orderResponse providerOrderId
    rules).handle (takeValueError fun message => .done
      (([("actionRequired", "verify_provider_position_and_protection"), ("reason", message),
          ("reasonCode", "protection_verification_failed")] : Dict)
        ++ expectedProtectionPublic (expectedProtection orderParams)
        ++ ([("status", "verification_failed"),
          ("verification", "post_placement_verification_failed")] : Dict)))

end Programs

end YtmExecutor
