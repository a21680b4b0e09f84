/-
OKX SWAP orders: from a request and the instrument's rules to the parameters on the wire.

Every number on the wire is a text.  The size is rounded down to the lot, a price to the
tick away from the better side, and the triggers of the attached protection to the tick
as well; `okxSwapOrderParams` puts them together and raises on whatever does not fit.

Arithmetic runs in a decimal context, which is a parameter: the executor's own context
has 28 digits, and `Context.exact` reads the same code over exact numbers.
-/
import YtmExecutor.Adapters

namespace YtmExecutor

open Python Decimal

def okxSwapMainnetOrderPrecheckAdapter : String := "okx_swap_mainnet_order_precheck"

def okxSwapMainnetOrderAdapter : String := "okx_swap_mainnet_order"

structure OkxSwapInstrumentRules where
  instId : String
  instType : String
  state : String
  contractValue : Positive
  lotSize : Positive
  tickSize : Positive
  minSize : Positive

/-- The side of an order on the wire. -/
inductive OkxSide where
  | buy
  | sell
  deriving DecidableEq

def OkxSide.text : OkxSide → String
  | .buy => "buy"
  | .sell => "sell"

inductive OkxOrdType where
  | limit
  | market
  | ioc
  deriving DecidableEq

def OkxOrdType.text : OkxOrdType → String
  | .limit => "limit"
  | .market => "market"
  | .ioc => "ioc"

/-! ### Parameters -/

structure AttachedTakeProfit where
  tpOrdPx : String
  tpTriggerPx : String
  tpTriggerPxType : String

structure AttachedTpSl where
  attachAlgoClOrdId : String
  slOrdPx : String
  slTriggerPx : String
  slTriggerPxType : String
  takeProfit : Option AttachedTakeProfit

/-- The parameters of an order; a key that is not sent is `none`. -/
structure OrderParams where
  clOrdId : String
  instId : String
  ordType : OkxOrdType
  posSide : String
  side : OkxSide
  sz : String
  tdMode : String
  reduceOnly : Option String
  px : Option String
  attachAlgoOrds : Option AttachedTpSl

structure LeverageParams where
  instId : String
  lever : String
  mgnMode : String

structure AlgoParams where
  algoClOrdId : String
  instId : String
  ordType : String
  posSide : String
  reduceOnly : String
  side : OkxSide
  slOrdPx : String
  slTriggerPx : String
  slTriggerPxType : String
  sz : String
  tdMode : String

def AttachedTakeProfit.entries (takeProfit : Option AttachedTakeProfit) : Dict :=
  match takeProfit with
  | some tp =>
      [("tpOrdPx", tp.tpOrdPx), ("tpTriggerPx", tp.tpTriggerPx),
        ("tpTriggerPxType", tp.tpTriggerPxType)]
  | none => []

/-- An entry that is only there when the value is. -/
def optionalEntry (key : String) : Option String → Dict
  | some text => [(.str key, .str text)]
  | none => []

def AttachedTpSl.toDict (attached : AttachedTpSl) : Dict :=
  ([("attachAlgoClOrdId", attached.attachAlgoClOrdId), ("slOrdPx", attached.slOrdPx),
    ("slTriggerPx", attached.slTriggerPx), ("slTriggerPxType", attached.slTriggerPxType)] : Dict)
  ++ AttachedTakeProfit.entries attached.takeProfit

/-- The list of attached orders, which holds one at most. -/
def attachmentEntry : Option AttachedTpSl → Dict
  | some attached => [("attachAlgoOrds", .list [.dict attached.toDict])]
  | none => []

def OrderParams.toDict (params : OrderParams) : Dict :=
  ([("clOrdId", params.clOrdId), ("instId", params.instId), ("ordType", params.ordType.text),
    ("posSide", params.posSide), ("side", params.side.text), ("sz", params.sz),
    ("tdMode", params.tdMode)] : Dict)
  ++ optionalEntry "reduceOnly" params.reduceOnly ++ optionalEntry "px" params.px
  ++ attachmentEntry params.attachAlgoOrds

/-- No key of the parameters is a secret's. -/
theorem isPublic_toDict (params : OrderParams) : isPublic (.dict params.toDict) = true := by
  have hreduce : isPublicEntries (optionalEntry "reduceOnly" params.reduceOnly) = true := by
    rcases params.reduceOnly with _ | _ <;> rfl
  have hpx : isPublicEntries (optionalEntry "px" params.px) = true := by
    rcases params.px with _ | _ <;> rfl
  have hattach : isPublicEntries (attachmentEntry params.attachAlgoOrds) = true := by
    rcases params.attachAlgoOrds with _ | ⟨_, _, _, _, takeProfit⟩
    · rfl
    · rcases takeProfit with _ | _ <;> rfl
  rw [isPublic, OrderParams.toDict, isPublicEntries_append, isPublicEntries_append,
    isPublicEntries_append, hreduce, hpx, hattach]
  rfl

/-! ### Identifiers -/

def okxSwapInstrumentId [Runtime] (symbol : String) : String :=
  let normalized := upper (strip symbol)
  let cs := normalized.toList
  if cs.contains '-' then normalized
  else if "USDT".toList.isSuffixOf cs && decide (4 < cs.length) then
    String.ofList (cs.take (cs.length - 4)) ++ "-USDT-SWAP"
  else normalized

def okxClientOrderId (clientOrderId : String) : String :=
  "ytm" ++ String.ofList ((sha256Hex clientOrderId).toList.take 29)

def okxAttachedAlgoClientOrderId (clientOrderId suffix : String) : String :=
  "ytm" ++ suffix
    ++ String.ofList ((sha256Hex (clientOrderId ++ ":" ++ suffix)).toList.take 27)

/-! ### Rounding -/

section Rounding

variable (ctx : Context)

def contextDiv (a b : ℚ) : Except PyError ℚ := raiseSignal (ctx.div a b)

def contextMul (a b : ℚ) : Except PyError ℚ := raiseSignal (ctx.mul a b)

def contextAdd (a b : ℚ) : Except PyError ℚ := raiseSignal (ctx.add a b)

def contextSub (a b : ℚ) : Except PyError ℚ := raiseSignal (ctx.sub a b)

def roundDownToStep (value step : ℚ) : Except PyError ℚ := do
  let steps ← contextDiv ctx value step
  contextMul ctx ⌊steps⌋ step

/-- To the tick: down for a buy, up for a sell. -/
def roundToTick (value tickSize : ℚ) (side : OkxSide) : Except PyError ℚ := do
  let ticks ← contextDiv ctx value tickSize
  contextMul ctx (match side with | .buy => (⌊ticks⌋ : ℚ) | .sell => (⌈ticks⌉ : ℚ)) tickSize

end Rounding

theorem contextDiv_eq_ok {a b r : ℚ} (h : contextDiv defaultContext a b = .ok r) :
    b ≠ 0 ∧ r = rounded28 (a / b) := by
  unfold contextDiv at h
  rw [raiseSignal_eq_ok] at h
  unfold Context.div at h
  split at h
  · cases h
  · rename_i hb
    exact ⟨hb, (rounded28_of_fix h).symm⟩

theorem contextMul_eq_ok {a b r : ℚ} (h : contextMul defaultContext a b = .ok r) :
    r = rounded28 (a * b) ∧ defaultContext.Holds r := by
  unfold contextMul at h
  rw [raiseSignal_eq_ok] at h
  exact ⟨(rounded28_of_fix h).symm, fix_fix (by norm_num) h⟩

theorem isDecimal_rounded28 (q : ℚ) : IsDecimal (rounded28 q) :=
  (isDecimal_intCast _).mul (isDecimal_zpow _)

/-- What the context holds can be written out. -/
theorem decimalText_of_holds {r : ℚ} (h : defaultContext.Holds r) :
    decimalText defaultContext r = .ok (plainText r) := by
  unfold Context.Holds at h
  rw [decimalText, h]
  rfl

/-- What is rounded down at 28 digits. -/
theorem roundDownToStep_eq_ok {value step r : ℚ}
    (h : roundDownToStep defaultContext value step = .ok r) :
    r = rounded28 (⌊rounded28 (value / step)⌋ * step) ∧ defaultContext.Holds r := by
  obtain ⟨steps, hsteps, hproduct⟩ := bind_eq_ok.mp h
  obtain ⟨_, rfl⟩ := contextDiv_eq_ok hsteps
  exact contextMul_eq_ok hproduct

/-- The digits of the leverage, in whole numbers and at least one. -/
def leverageDigits (value : Positive) : String := plainText (max 1 ⌈value.val⌉ : ℤ)

/-- Unlike any other text of a number, this one is written without rounding, so that only the
memory bounds it. -/
def integerLeverageText [Runtime] (value : Positive) : Except PyError String :=
  if Runtime.memoryFor (leverageDigits value).length then .ok (leverageDigits value)
  else .error (.other "MemoryError" "")

theorem integerLeverageText_eq_ok [Runtime] {value : Positive} {text : String} :
    integerLeverageText value = .ok text ↔
      Runtime.memoryFor (leverageDigits value).length = true ∧ leverageDigits value = text := by
  unfold integerLeverageText
  split
  · rename_i h
    rw [Except.ok.injEq, and_iff_right h]
  · rename_i h
    exact iff_of_false (fun h => by cases h) fun hmemory => h hmemory.1

/-! ### The fields of an order -/

def okxSide (request : BrokerOrderRequest) : OkxSide :=
  match request.side, request.positionEffect with
  | .long, .opening => .buy
  | .long, _ => .sell
  | .short, .opening => .sell
  | .short, _ => .buy

def okxTdMode [Runtime] (value : Option String) : Except PyError String :=
  let normalized := lower (strip (value.getD ""))
  if normalized ∈ ["cross", "isolated"] then .ok normalized
  else .error (.valueError "OKX SWAP tdMode must be cross or isolated")

def okxOrderType : OrderType → Except PyError OkxOrdType
  | .limit => .ok .limit
  | .market => .ok .market
  | _ => .error (.valueError "OKX SWAP order type is unsupported")

section Fields

variable (ctx : Context)

/-- The worst price a market entry may be filled at. -/
def boundedMarketLimitPrice (request : BrokerOrderRequest) (side : OkxSide) : Except PyError ℚ :=
  match request.priceReference, request.maxSlippageBps with
  | none, _ =>
      .error (.valueError "OKX real market orders require priceReference for slippage cap")
  | _, none => .error (.valueError "OKX real market orders require maxSlippageBps")
  | some reference, some bps => do
      let multiplier ← contextDiv ctx bps.val 10000
      match side with
      | .buy => contextMul ctx reference.val (← contextAdd ctx 1 multiplier)
      | .sell => contextMul ctx reference.val (← contextSub ctx 1 multiplier)

def effectiveOkxOrderType (request : BrokerOrderRequest) (side : OkxSide) :
    Except PyError OkxOrdType := do
  let orderType ← okxOrderType request.orderType
  if request.executionMode = .real ∧ request.positionEffect = .opening ∧ orderType = .market then
    let _ ← boundedMarketLimitPrice ctx request side
    return .ioc
  return orderType

def contractsFromNotional (request : BrokerOrderRequest) (rules : OkxSwapInstrumentRules) :
    Except PyError ℚ :=
  match request.notional with
  | none => .error (.valueError "OKX SWAP orders require contract quantity or notional")
  | some notional =>
      let price :=
        if request.orderType = .limit ∨ request.orderType = .stopLimit then
          request.limitPrice.or request.priceReference
        else request.priceReference
      match price with
      | none => .error (.valueError "OKX SWAP notional conversion requires priceReference")
      | some price => do
          contextDiv ctx notional.val (← contextMul ctx price.val rules.contractValue.val)

/-- The quantity asked for, in contracts. -/
def requestedQuantity (request : BrokerOrderRequest) (rules : OkxSwapInstrumentRules) :
    Except PyError ℚ :=
  match request.quantity with
  | some quantity => .ok quantity.val
  | none => contractsFromNotional ctx request rules

def normalizedSize (request : BrokerOrderRequest) (rules : OkxSwapInstrumentRules) :
    Except PyError ℚ := do
  let quantity ← requestedQuantity ctx request rules
  let size ← roundDownToStep ctx quantity rules.lotSize.val
  raiseIf (size ≤ 0) "OKX SWAP size rounds to zero"
  raiseIf (size < rules.minSize.val) "OKX SWAP size is below minSz after normalization"
  return size

/-! ### The attached protection -/

/-- The side a trigger is rounded as: the side that would close the position. -/
def triggerSide : Side → OkxSide
  | .long => .sell
  | .short => .buy

def normalizedTriggerPrice (value : ℚ) (request : BrokerOrderRequest)
    (rules : OkxSwapInstrumentRules) : Except PyError ℚ :=
  roundToTick ctx value rules.tickSize.val (triggerSide request.side)

def normalizedStopLossTriggerPrice (value : ℚ) (request : BrokerOrderRequest)
    (rules : OkxSwapInstrumentRules) : Except PyError ℚ :=
  normalizedTriggerPrice ctx value request rules

def normalizedTakeProfitTriggerPrice (value : ℚ) (request : BrokerOrderRequest)
    (rules : OkxSwapInstrumentRules) : Except PyError ℚ :=
  normalizedTriggerPrice ctx value request rules

/-- The price the triggers are checked against. -/
def entryReference (request : BrokerOrderRequest) : Option Positive :=
  request.limitPrice.or request.priceReference

def validateStopLossSide (value : ℚ) (request : BrokerOrderRequest) : Except PyError Unit :=
  match entryReference request with
  | none => .ok ()
  | some reference =>
      if request.side = .long ∧ reference.val ≤ value then
        .error (.valueError "OKX long stopLoss must be below entry price")
      else if request.side = .short ∧ value ≤ reference.val then
        .error (.valueError "OKX short stopLoss must be above entry price")
      else .ok ()

def validateTakeProfitSide (value : ℚ) (request : BrokerOrderRequest) : Except PyError Unit :=
  match entryReference request with
  | none => .ok ()
  | some reference =>
      if request.side = .long ∧ value ≤ reference.val then
        .error (.valueError "OKX long takeProfit must be above entry price")
      else if request.side = .short ∧ reference.val ≤ value then
        .error (.valueError "OKX short takeProfit must be below entry price")
      else .ok ()

def okxAttachedTakeProfit (request : BrokerOrderRequest) (rules : OkxSwapInstrumentRules) :
    Except PyError (Option AttachedTakeProfit) :=
  match request.takeProfitTargets with
  | [] => .ok none
  | target :: _ => do
      let takeProfit ← normalizedTakeProfitTriggerPrice ctx target.val request rules
      validateTakeProfitSide takeProfit request
      return some
        { tpOrdPx := "-1", tpTriggerPx := ← decimalText ctx takeProfit, tpTriggerPxType := "last" }

def okxAttachedTpSl (request : BrokerOrderRequest) (stopLoss : Positive)
    (rules : OkxSwapInstrumentRules) : Except PyError AttachedTpSl := do
  let triggerPrice ← normalizedStopLossTriggerPrice ctx stopLoss.val request rules
  validateStopLossSide triggerPrice request
  let slTriggerPx ← decimalText ctx triggerPrice
  return {
    attachAlgoClOrdId := okxAttachedAlgoClientOrderId request.clientOrderId "ps"
    slOrdPx := "-1"
    slTriggerPx := slTriggerPx
    slTriggerPxType := "last"
    takeProfit := ← okxAttachedTakeProfit ctx request rules }

end Fields

/-! ### The whole order -/

section Order

variable [Runtime] (ctx : Context)

/-- The price an order of this type is sent with, before it is rounded to the tick. -/
def orderPrice (request : BrokerOrderRequest) (orderType : OkxOrdType) (side : OkxSide) :
    Except PyError ℚ :=
  if orderType = .ioc ∧ request.orderType = .market then
    boundedMarketLimitPrice ctx request side
  else
    match request.limitPrice with
    | some price => .ok price.val
    | none => .error (.valueError "OKX SWAP limit orders require price")

def orderPx (request : BrokerOrderRequest) (orderType : OkxOrdType) (side : OkxSide)
    (rules : OkxSwapInstrumentRules) : Except PyError (Option String) :=
  match orderType with
  | .market => .ok none
  | _ => do
      let price ← orderPrice ctx request orderType side
      let rounded ← roundToTick ctx price rules.tickSize.val side
      return some (← decimalText ctx rounded)

def orderAttachment (request : BrokerOrderRequest) (rules : OkxSwapInstrumentRules) :
    Except PyError (Option AttachedTpSl) := do
  if request.positionEffect ≠ .opening then return none
  raiseIf (request.executionMode = .real ∧ request.stopLoss = none)
    "OKX real open orders require exchange-side stopLoss"
  raiseIf (request.executionMode = .real ∧ request.takeProfitTargets = [])
    "OKX real open orders require exchange-side takeProfit"
  match request.stopLoss with
  | none => return none
  | some stopLoss => return some (← okxAttachedTpSl ctx request stopLoss rules)

def okxSwapOrderParams (request : BrokerOrderRequest) (rules : OkxSwapInstrumentRules) :
    Except PyError OrderParams := do
  let side := okxSide request
  let orderType ← effectiveOkxOrderType ctx request side
  let size ← normalizedSize ctx request rules
  let sz ← decimalText ctx size
  let tdMode ← okxTdMode request.marginMode
  let px ← orderPx ctx request orderType side rules
  let attachAlgoOrds ← orderAttachment ctx request rules
  let params : OrderParams := {
    clOrdId := okxClientOrderId request.clientOrderId
    instId := rules.instId
    ordType := orderType
    posSide := "net"
    side := side
    sz := sz
    tdMode := tdMode
    reduceOnly := if request.positionEffect = .opening then none else some "true"
    px := px
    attachAlgoOrds := attachAlgoOrds }
  rejectSecretFields [] (.dict params.toDict)
  return params

/-- What is known of the parameters of an order that was built. -/
structure OrderBuilt (request : BrokerOrderRequest) (rules : OkxSwapInstrumentRules)
    (params : OrderParams) : Prop where
  clOrdId : params.clOrdId = okxClientOrderId request.clientOrderId
  instId : params.instId = rules.instId
  side : params.side = okxSide request
  ordType : effectiveOkxOrderType ctx request (okxSide request) = .ok params.ordType
  size : ∃ size, normalizedSize ctx request rules = .ok size ∧
    decimalText ctx size = .ok params.sz
  tdMode : okxTdMode request.marginMode = .ok params.tdMode
  px : orderPx ctx request params.ordType (okxSide request) rules = .ok params.px
  attachment : orderAttachment ctx request rules = .ok params.attachAlgoOrds

variable {ctx} in
theorem okxSwapOrderParams_built {request : BrokerOrderRequest} {rules : OkxSwapInstrumentRules}
    {params : OrderParams} (h : okxSwapOrderParams ctx request rules = .ok params) :
    OrderBuilt ctx request rules params := by
  unfold okxSwapOrderParams at h
  simp only [bind_eq_ok] at h
  obtain ⟨orderType, hordType, size, hsize, sz, hsz, tdMode, htdMode, px, hpx, attachment,
    hattachment, _, _, h⟩ := h
  cases h
  exact ⟨rfl, rfl, rfl, hordType, ⟨size, hsize, hsz⟩, htdMode, hpx, hattachment⟩

/-- What is known of an attached protection that was built. -/
structure AttachmentBuilt (request : BrokerOrderRequest) (rules : OkxSwapInstrumentRules)
    (attached : AttachedTpSl) : Prop where
  attachAlgoClOrdId :
    attached.attachAlgoClOrdId = okxAttachedAlgoClientOrderId request.clientOrderId "ps"
  slOrdPx : attached.slOrdPx = "-1"
  slTriggerPx : ∃ stopLoss trigger, request.stopLoss = some stopLoss ∧
    normalizedStopLossTriggerPrice ctx stopLoss.val request rules = .ok trigger ∧
    decimalText ctx trigger = .ok attached.slTriggerPx
  takeProfit : okxAttachedTakeProfit ctx request rules = .ok attached.takeProfit

omit [Runtime] in
variable {ctx} in
theorem orderAttachment_built {request : BrokerOrderRequest} {rules : OkxSwapInstrumentRules}
    {attached : AttachedTpSl} (h : orderAttachment ctx request rules = .ok (some attached)) :
    AttachmentBuilt ctx request rules attached := by
  unfold orderAttachment at h
  split at h
  · cases h
  · obtain ⟨_, _, h⟩ := bind_eq_ok.mp h
    obtain ⟨_, _, h⟩ := bind_eq_ok.mp h
    split at h
    · cases h
    · rename_i stopLoss hstop
      obtain ⟨_, hattached, h⟩ := bind_eq_ok.mp h
      cases h
      unfold okxAttachedTpSl at hattached
      obtain ⟨trigger, htrigger, hattached⟩ := bind_eq_ok.mp hattached
      obtain ⟨_, _, hattached⟩ := bind_eq_ok.mp hattached
      obtain ⟨_, htext, hattached⟩ := bind_eq_ok.mp hattached
      obtain ⟨_, htp, hattached⟩ := bind_eq_ok.mp hattached
      cases hattached
      exact ⟨rfl, rfl, ⟨stopLoss, trigger, hstop, htrigger, htext⟩, htp⟩

def okxSwapOrderPrecheckParams (request : BrokerOrderRequest) (rules : OkxSwapInstrumentRules) :
    Except PyError OrderParams := okxSwapOrderParams ctx request rules

def okxSwapSetLeverageParams (request : BrokerOrderRequest) (rules : OkxSwapInstrumentRules) :
    Except PyError (Option LeverageParams) :=
  match request.leverage with
  | none => .ok none
  | some leverage => do
      let lever ← integerLeverageText leverage
      let mgnMode ← okxTdMode request.marginMode
      return some { instId := rules.instId, lever := lever, mgnMode := mgnMode }

end Order

end YtmExecutor
