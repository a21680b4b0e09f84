/-
The parameters of a Binance test order obey the rules of the symbol.

Quantities and prices are rounded first, and the rounded numbers are held against the
bounds, so what is sent is what was checked.  The time in force is the exception: the
check looks at the one that was requested, and an order that has to carry one and names
none goes out with a default the symbol need not list.  `obeysRules_iff` says that this
is the only way to break a rule.  Arithmetic is exact here.
-/
import YtmExecutor.BinanceFutures
import YtmExecutor.OkxSwap.Prices

namespace YtmExecutor

open Python Decimal

theorem roundDownToStep_exact {step : ℚ} (h : step ≠ 0) (value : ℚ) :
    roundDownToStep Context.exact value step = .ok (floorTo step value) := by
  have hdiv : contextDiv Context.exact value step = .ok (value / step) := by
    rw [contextDiv, Context.div, if_neg h]
    rfl
  rw [roundDownToStep, hdiv]
  rfl

namespace Binance

/-! ### The rules -/

/-- The step of the lot filter that applies to an order. -/
def appliedStep (request : BrokerOrderRequest) (rules : SymbolRules) : ℚ :=
  if request.orderType = .market then boundOr rules.marketStepSize rules.stepSize
  else rules.stepSize.val

def appliedMinQty (request : BrokerOrderRequest) (rules : SymbolRules) : ℚ :=
  if request.orderType = .market then boundOr rules.marketMinQty rules.minQty
  else rules.minQty.val

def appliedMaxQty (request : BrokerOrderRequest) (rules : SymbolRules) : ℚ :=
  if request.orderType = .market then boundOr rules.marketMaxQty rules.maxQty
  else rules.maxQty.val

/-- A quantity passes the lot filter and is no more than what was requested. -/
structure QuantityObeys (request : BrokerOrderRequest) (rules : SymbolRules) (quantity : ℚ) :
    Prop where
  positive : 0 < quantity
  multiple : ∃ n : ℤ, quantity = n * appliedStep request rules
  requested : ∃ requested, request.quantity = some requested ∧ quantity ≤ requested.val
  minQty : appliedMinQty request rules ≤ quantity
  maxQty : quantity ≤ appliedMaxQty request rules

/-- A price passes the price filter and is no worse than what was requested. -/
structure PriceObeys (requested : Option Positive) (side : String) (rules : SymbolRules)
    (price : ℚ) : Prop where
  multiple : ∃ n : ℤ, price = n * rules.tickSize.val
  minPrice : ∀ bound, rules.minPrice = some bound → bound.val ≤ price
  maxPrice : ∀ bound, rules.maxPrice = some bound → price ≤ bound.val
  requested : ∃ value, requested = some value ∧
    (side = "BUY" → price ≤ value.val) ∧ (side = "SELL" → value.val ≤ price)

/-- The numbers of a test order before they become floats. -/
structure OrderNumbers where
  quantity : ℚ
  price : Option ℚ
  stopPrice : Option ℚ

/-- The numbers of a test order obey the filters of the symbol. -/
structure NumbersObey (request : BrokerOrderRequest) (rules : SymbolRules)
    (params : TestOrderParams) (numbers : OrderNumbers) : Prop where
  quantity : QuantityObeys request rules numbers.quantity
  price : ∀ p, numbers.price = some p → PriceObeys request.limitPrice params.side rules p
  stopPrice : ∀ p, numbers.stopPrice = some p → PriceObeys request.stopPrice params.side rules p
  minNotional : ∀ p bound, numbers.price = some p → rules.minNotional = some bound →
    bound.val ≤ p * numbers.quantity

section Sent

variable [Runtime]

/-- What was computed for each of the numbers that are sent. -/
structure SentNumbers (request : BrokerOrderRequest) (rules : SymbolRules)
    (params : TestOrderParams) (numbers : OrderNumbers) : Prop where
  quantity : normalizedQuantity Context.exact request rules = .ok (some numbers.quantity)
  price : ∀ p, numbers.price = some p →
    normalizedPrice Context.exact request.limitPrice (okxSide request) rules = .ok (some p)
  stopPrice : ∀ p, numbers.stopPrice = some p →
    normalizedPrice Context.exact request.stopPrice (okxSide request) rules = .ok (some p)
  quantityText : params.quantity = some (Runtime.floatText numbers.quantity)
  priceText : params.price = numbers.price.map Runtime.floatText
  stopPriceText : params.stopPrice = numbers.stopPrice.map Runtime.floatText

/-- A test order obeys the rules of its symbol. -/
structure ObeysRules (request : BrokerOrderRequest) (rules : SymbolRules)
    (params : TestOrderParams) : Prop where
  trading : rules.status = "TRADING"
  orderType : params.type ∈ rules.orderTypes
  numbers : ∃ numbers, SentNumbers request rules params numbers ∧
    NumbersObey request rules params numbers
  timeInForce : ∀ text, params.timeInForce = some text → text ∈ rules.timeInForce
  reduceOnly : params.reduceOnly =
    if request.positionEffect = .reduce ∨ request.positionEffect = .close then some "true" else none

end Sent

/-- An order that has to carry a time in force. -/
def CarriesTimeInForce (orderType : OrderType) : Prop :=
  orderType = .limit ∨ orderType = .stopLimit

instance (orderType : OrderType) : Decidable (CarriesTimeInForce orderType) :=
  inferInstanceAs (Decidable (orderType = .limit ∨ orderType = .stopLimit))

/-- The symbol lists the default, where an order carries it. -/
def DefaultTimeInForceListed (request : BrokerOrderRequest) (rules : SymbolRules) : Prop :=
  CarriesTimeInForce request.orderType → request.timeInForce.getD "" = "" →
    "GTC" ∈ rules.timeInForce

/-! ### The numbers that are computed -/

section Numbers

variable [Runtime] {request : BrokerOrderRequest} {rules : SymbolRules}

omit [Runtime] in
/-- A normalized quantity obeys the lot filter. -/
theorem quantityObeys_of_normalized {quantity : ℚ} (hstep : 0 < appliedStep request rules)
    (h : normalizedQuantity Context.exact request rules = .ok (some quantity)) :
    QuantityObeys request rules quantity := by
  unfold normalizedQuantity at h
  split at h
  · cases h
  · rename_i requested hrequested
    change (roundDownToStep Context.exact requested.val (appliedStep request rules) >>= _) = _ at h
    rw [roundDownToStep_exact hstep.ne'] at h
    obtain ⟨_, hrounded, h⟩ := bind_eq_ok.mp h
    obtain ⟨_, hpositive, h⟩ := bind_eq_ok.mp h
    obtain ⟨_, hmin, h⟩ := bind_eq_ok.mp h
    obtain ⟨_, hmax, h⟩ := bind_eq_ok.mp h
    cases hrounded
    cases h
    rw [raiseIf_eq_ok, not_le] at hpositive
    rw [raiseIf_eq_ok, not_lt] at hmin hmax
    exact {
      positive := hpositive
      multiple := ⟨_, rfl⟩
      requested := ⟨requested, hrequested, floorTo_le hstep _⟩
      minQty := hmin
      maxQty := hmax }

omit [Runtime] in
/-- A normalized price obeys the price filter. -/
theorem priceObeys_of_normalized {requested : Option Positive} {price : ℚ} {side : OkxSide}
    (h : normalizedPrice Context.exact requested side rules = .ok (some price)) :
    PriceObeys requested (binanceSide side) rules price := by
  unfold normalizedPrice at h
  split at h
  · cases h
  · rename_i value
    rw [roundToTick_exact] at h
    obtain ⟨_, hrounded, h⟩ := bind_eq_ok.mp h
    obtain ⟨_, hmin, h⟩ := bind_eq_ok.mp h
    obtain ⟨_, hmax, h⟩ := bind_eq_ok.mp h
    cases hrounded
    cases h
    rw [raiseIf_eq_ok] at hmin hmax
    have htick : 0 < rules.tickSize.val := rules.tickSize.pos
    refine ⟨?_, ?_, ?_, value, rfl, ?_, ?_⟩
    · cases side
      · exact ⟨_, rfl⟩
      · exact ⟨_, rfl⟩
    · intro bound hbound
      rw [hbound] at hmin
      simpa [outside] using hmin
    · intro bound hbound
      rw [hbound] at hmax
      simpa [outside] using hmax
    · intro hside
      cases side with
      | buy => exact floorTo_le htick _
      | sell => exact absurd hside (by decide)
    · intro hside
      cases side with
      | buy => exact absurd hside (by decide)
      | sell => exact le_ceilTo htick _

omit [Runtime] in
theorem minNotional_le_of_validated {price quantity : ℚ}
    (h : validateMinNotional Context.exact request (some price) (some quantity) rules = .ok ())
    {bound : Finite} (hbound : rules.minNotional = some bound) :
    bound.val ≤ price * quantity := by
  unfold validateMinNotional at h
  rw [hbound] at h
  obtain ⟨notional, hnotional, h⟩ := bind_eq_ok.mp h
  cases hnotional
  rw [raiseIf_eq_ok, not_lt] at h
  exact h

end Numbers

/-! ### The parameters that are built -/

section Params

variable [Runtime] [sdk : BinanceSdk] {request : BrokerOrderRequest} {rules : SymbolRules}
variable {params : TestOrderParams}

/-- The parameters every order has. -/
def paramsHead (request : BrokerOrderRequest) : TestOrderParams where
  newClientOrderId := request.clientOrderId
  side := binanceSide (okxSide request)
  symbol := request.symbol
  type := binanceOrderType request.orderType
  reduceOnly := if request.positionEffect = .opening then none else some "true"
  quantity := none
  price := none
  timeInForce := none
  stopPrice := none

/-- The price that is sent of the one that was computed. -/
def sentPrice (orderType : OrderType) (price : Option ℚ) : Option ℚ :=
  match orderType with
  | .limit | .stopLimit => price
  | _ => none

def sentStopPrice (orderType : OrderType) (stopPrice : Option ℚ) : Option ℚ :=
  match orderType with
  | .limit | .market => none
  | _ => stopPrice

omit [Runtime] sdk in
theorem eq_some_of_sentPrice {orderType : OrderType} {price : Option ℚ} {p : ℚ}
    (h : sentPrice orderType price = some p) : price = some p := by
  cases orderType
  case limit | stopLimit => exact h
  all_goals cases h

omit [Runtime] sdk in
theorem eq_some_of_sentStopPrice {orderType : OrderType} {stopPrice : Option ℚ} {p : ℚ}
    (h : sentStopPrice orderType stopPrice = some p) : stopPrice = some p := by
  cases orderType
  case limit | market => cases h
  all_goals exact h

omit sdk in
theorem requiredFloat_eq_ok {value : Option ℚ} {message text : String}
    (h : requiredFloat value message = .ok text) :
    ∃ q, value = some q ∧ Runtime.floatText q = text := by
  cases value with
  | none => cases h
  | some q => exact ⟨q, rfl, Except.ok.inj h⟩

theorem timeInForceMember_eq_ok {text member : String}
    (h : timeInForceMember text = .ok member) : text = member := by
  unfold timeInForceMember at h
  split at h
  · exact Except.ok.inj h
  · cases h

omit sdk in
theorem stopLimitPrice_eq_ok {stopPrice : Option ℚ} {stop : Option String}
    (hcarries : CarriesTimeInForce request.orderType)
    (h : stopLimitPrice request stopPrice = .ok stop) :
    stop = (sentStopPrice request.orderType stopPrice).map Runtime.floatText := by
  unfold stopLimitPrice at h
  rcases hcarries with hlimit | hstop
  · rw [hlimit, if_neg (by decide)] at h
    rw [hlimit]
    exact (Except.ok.inj h).symm
  · rw [hstop, if_pos rfl] at h
    rw [hstop]
    cases stopPrice with
    | none => cases h
    | some s => exact (Except.ok.inj h).symm

/-- The fields of an order depend on its type. -/
theorem typedFields_eq_ok {quantity price stopPrice : Option ℚ}
    (h : typedFields request (paramsHead request) quantity price stopPrice = .ok params) :
    ∃ q, quantity = some q ∧ params = { paramsHead request with
      quantity := some (Runtime.floatText q)
      price := (sentPrice request.orderType price).map Runtime.floatText
      stopPrice := (sentStopPrice request.orderType stopPrice).map Runtime.floatText
      timeInForce :=
        if CarriesTimeInForce request.orderType then some (timeInForceOf request) else none } := by
  have hlimit (hcarries : CarriesTimeInForce request.orderType)
      (h : (requiredFloat quantity "Binance Futures limit orders require quantity" >>= fun q =>
        requiredFloat price "Binance Futures limit orders require price" >>= fun p =>
        timeInForceMember (timeInForceOf request) >>= fun timeInForce =>
        stopLimitPrice request stopPrice >>= fun stop =>
        (.ok { paramsHead request with
          quantity := some q, price := some p, timeInForce := some timeInForce,
          stopPrice := stop } : Except PyError TestOrderParams)) = .ok params) :
      ∃ q, quantity = some q ∧ params = { paramsHead request with
        quantity := some (Runtime.floatText q)
        price := (sentPrice request.orderType price).map Runtime.floatText
        stopPrice := (sentStopPrice request.orderType stopPrice).map Runtime.floatText
        timeInForce :=
          if CarriesTimeInForce request.orderType then some (timeInForceOf request) else none } := by
    obtain ⟨_, hquantity, h⟩ := bind_eq_ok.mp h
    obtain ⟨_, hprice, h⟩ := bind_eq_ok.mp h
    obtain ⟨_, hmember, h⟩ := bind_eq_ok.mp h
    obtain ⟨_, hstop, h⟩ := bind_eq_ok.mp h
    obtain ⟨q, rfl, rfl⟩ := requiredFloat_eq_ok hquantity
    obtain ⟨p, rfl, rfl⟩ := requiredFloat_eq_ok hprice
    obtain rfl := timeInForceMember_eq_ok hmember
    obtain rfl := stopLimitPrice_eq_ok hcarries hstop
    have hsent : sentPrice request.orderType (some p) = some p := by
      rcases hcarries with hcarries | hcarries <;> rw [hcarries] <;> rfl
    rw [hsent, if_pos hcarries]
    exact ⟨q, rfl, (Except.ok.inj h).symm⟩
  unfold typedFields at h
  cases hrequested : request.orderType with
  | limit =>
      rw [hrequested] at h
      have hcarries : CarriesTimeInForce request.orderType := .inl hrequested
      simpa only [hrequested] using hlimit hcarries h
  | stopLimit =>
      rw [hrequested] at h
      have hcarries : CarriesTimeInForce request.orderType := .inr hrequested
      simpa only [hrequested] using hlimit hcarries h
  | market =>
      rw [hrequested] at h
      obtain ⟨_, hquantity, h⟩ := bind_eq_ok.mp h
      obtain ⟨q, rfl, rfl⟩ := requiredFloat_eq_ok hquantity
      cases h
      exact ⟨q, rfl, rfl⟩
  | stop =>
      rw [hrequested] at h
      obtain ⟨_, hquantity, h⟩ := bind_eq_ok.mp h
      obtain ⟨_, hstop, h⟩ := bind_eq_ok.mp h
      obtain ⟨q, rfl, rfl⟩ := requiredFloat_eq_ok hquantity
      obtain ⟨s, rfl, rfl⟩ := requiredFloat_eq_ok hstop
      cases h
      exact ⟨q, rfl, rfl⟩
  | stopMarket =>
      rw [hrequested] at h
      obtain ⟨_, hquantity, h⟩ := bind_eq_ok.mp h
      obtain ⟨_, hstop, h⟩ := bind_eq_ok.mp h
      obtain ⟨q, rfl, rfl⟩ := requiredFloat_eq_ok hquantity
      obtain ⟨s, rfl, rfl⟩ := requiredFloat_eq_ok hstop
      cases h
      exact ⟨q, rfl, rfl⟩

/-- What the code did to build the parameters. -/
theorem orderTestParams_eq_ok {ctx : Context} (h : orderTestParams ctx request rules = .ok params) :
    ∃ quantity price stopPrice,
      validateRulesCompatibility request (binanceOrderType request.orderType) rules = .ok () ∧
      normalizedQuantity ctx request rules = .ok quantity ∧
      normalizedPrice ctx request.limitPrice (okxSide request) rules = .ok price ∧
      normalizedPrice ctx request.stopPrice (okxSide request) rules = .ok stopPrice ∧
      validateMinNotional ctx request price quantity rules = .ok () ∧
      typedFields request (paramsHead request) quantity price stopPrice = .ok params := by
  unfold orderTestParams at h
  obtain ⟨_, hcompatible, h⟩ := bind_eq_ok.mp h
  obtain ⟨quantity, hquantity, h⟩ := bind_eq_ok.mp h
  obtain ⟨price, hprice, h⟩ := bind_eq_ok.mp h
  obtain ⟨stopPrice, hstop, h⟩ := bind_eq_ok.mp h
  obtain ⟨_, hnotional, h⟩ := bind_eq_ok.mp h
  obtain ⟨built, hbuilt, h⟩ := bind_eq_ok.mp h
  obtain ⟨_, _, h⟩ := bind_eq_ok.mp h
  cases h
  exact ⟨quantity, price, stopPrice, hcompatible, hquantity, hprice, hstop, hnotional, hbuilt⟩

omit [Runtime] sdk in
/-- The numbers that are sent obey the filters. -/
theorem numbers_obey {quantity : ℚ} {price stopPrice : Option ℚ}
    (hstep : 0 < appliedStep request rules)
    (hquantity : normalizedQuantity Context.exact request rules = .ok (some quantity))
    (hprice : normalizedPrice Context.exact request.limitPrice (okxSide request) rules = .ok price)
    (hstop : normalizedPrice Context.exact request.stopPrice (okxSide request) rules =
      .ok stopPrice)
    (hnotional : validateMinNotional Context.exact request price (some quantity) rules = .ok ())
    (hside : params.side = binanceSide (okxSide request)) :
    NumbersObey request rules params {
      quantity := quantity
      price := sentPrice request.orderType price
      stopPrice := sentStopPrice request.orderType stopPrice } where
  quantity := quantityObeys_of_normalized hstep hquantity
  price := by
    intro p hp
    rw [eq_some_of_sentPrice hp] at hprice
    rw [hside]
    exact priceObeys_of_normalized hprice
  stopPrice := by
    intro p hp
    rw [eq_some_of_sentStopPrice hp] at hstop
    rw [hside]
    exact priceObeys_of_normalized hstop
  minNotional := by
    intro p bound hp hbound
    rw [eq_some_of_sentPrice hp] at hnotional
    exact minNotional_le_of_validated hnotional hbound

omit sdk in
/-- The default is what is checked when nothing else is. -/
theorem timeInForce_listed_iff
    (hchecked : ¬(request.timeInForce.getD "" ≠ "" ∧ timeInForceOf request ∉ rules.timeInForce)) :
    (CarriesTimeInForce request.orderType → timeInForceOf request ∈ rules.timeInForce) ↔
      DefaultTimeInForceListed request rules := by
  refine imp_congr_right fun _ => ?_
  by_cases hempty : request.timeInForce.getD "" = ""
  · have hdefault : timeInForceOf request = "GTC" := by
      unfold timeInForceOf
      rw [hempty]
      exact (rfl : upper (strip "GTC") = "GTC")
    rw [hdefault]
    exact ⟨fun h _ => h, fun h => h hempty⟩
  · have hlisted : timeInForceOf request ∈ rules.timeInForce :=
      not_not.mp fun h => hchecked ⟨hempty, h⟩
    exact iff_of_true hlisted fun h => absurd h hempty

/-- **A test order obeys the rules of its symbol exactly when** the symbol lists the default
time in force, or the order does not need it. -/
theorem obeysRules_iff (hstep : 0 < appliedStep request rules)
    (h : orderTestParams Context.exact request rules = .ok params) :
    ObeysRules request rules params ↔ DefaultTimeInForceListed request rules := by
  obtain ⟨_, price, stopPrice, hcompatible, hquantity, hprice, hstop, hnotional, hfields⟩ :=
    orderTestParams_eq_ok h
  obtain ⟨quantity, rfl, rfl⟩ := typedFields_eq_ok hfields
  obtain ⟨_, htrading, hcompatible⟩ := bind_eq_ok.mp hcompatible
  obtain ⟨_, htype, htif⟩ := bind_eq_ok.mp hcompatible
  rw [raiseIf_eq_ok] at htrading htype htif
  rw [← timeInForce_listed_iff htif]
  constructor
  · intro hobeys hcarries
    exact hobeys.timeInForce _ (if_pos hcarries)
  · intro hlisted
    refine {
      trading := not_not.mp htrading
      orderType := not_not.mp htype
      numbers := ⟨⟨quantity, sentPrice request.orderType price,
        sentStopPrice request.orderType stopPrice⟩, ?_, ?_⟩
      timeInForce := ?_
      reduceOnly := ?_ }
    · exact {
        quantity := hquantity
        price := fun p hp => by rw [hprice, eq_some_of_sentPrice hp]
        stopPrice := fun p hp => by rw [hstop, eq_some_of_sentStopPrice hp]
        quantityText := rfl
        priceText := rfl
        stopPriceText := rfl }
    · exact numbers_obey hstep hquantity hprice hstop hnotional rfl
    · intro text htext
      dsimp only at htext
      split_ifs at htext with hcarries
      rw [← Option.some.inj htext]
      exact hlisted hcarries
    · show (if request.positionEffect = .opening then none else some "true") = _
      cases request.positionEffect <;> rfl

end Params

/-! ### An order without a time in force -/

namespace Sample

/-- The enumeration of the SDK. -/
@[reducible] def sdk : BinanceSdk where
  isTimeInForce text := text ∈ ["GTC", "IOC", "FOK", "GTX"]

def tenths (n : ℕ) : Finite where
  val := n / 10
  isDecimal := ⟨n, 1, by push_cast; ring⟩

/-- A symbol with a tick and a step of one tenth. -/
def rules (timeInForce : List String) : SymbolRules where
  symbol := "BTCUSDT"
  status := "TRADING"
  orderTypes := ["LIMIT", "MARKET"]
  timeInForce := timeInForce
  minPrice := some (tenths 10)
  maxPrice := none
  tickSize := YtmExecutor.Sample.tenth
  minQty := YtmExecutor.Sample.tenth
  maxQty := YtmExecutor.Sample.hundred
  stepSize := YtmExecutor.Sample.tenth
  marketMinQty := none
  marketMaxQty := none
  marketStepSize := some (tenths 0)
  minNotional := some (tenths 50)

/-- An opening limit order at 100 that names no time in force. -/
def request : BrokerOrderRequest := YtmExecutor.Sample.longEntry

end Sample

/-- The default is listed. -/
theorem obeysRules_iff_sample :
    ∃ params, @orderTestParams (asciiRuntime []) Sample.sdk Context.exact Sample.request
        (Sample.rules ["GTC", "IOC"]) = .ok params ∧
      (@ObeysRules (asciiRuntime []) Sample.request (Sample.rules ["GTC", "IOC"]) params ↔
        DefaultTimeInForceListed Sample.request (Sample.rules ["GTC", "IOC"])) := by
  obtain ⟨params, h, _⟩ := exists_ok (@orderTestParams (asciiRuntime []) Sample.sdk Context.exact
    Sample.request (Sample.rules ["GTC", "IOC"])) (fun _ => true) (by decide +kernel)
  exact ⟨params, h, @obeysRules_iff (asciiRuntime []) Sample.sdk _ _ _ (by decide +kernel) h⟩

/-- A symbol that takes `IOC` orders only is sent the default `GTC`. -/
theorem timeInForce_unlisted :
    ∃ params, @orderTestParams (asciiRuntime []) Sample.sdk Context.exact Sample.request
        (Sample.rules ["IOC"]) = .ok params ∧
      0 < appliedStep Sample.request (Sample.rules ["IOC"]) ∧
      ¬@ObeysRules (asciiRuntime []) Sample.request (Sample.rules ["IOC"]) params := by
  obtain ⟨params, h, hsent⟩ := exists_ok (@orderTestParams (asciiRuntime []) Sample.sdk
    Context.exact Sample.request (Sample.rules ["IOC"]))
    (fun params => params.timeInForce = some "GTC") (by decide +kernel)
  refine ⟨params, h, by decide +kernel, ?_⟩
  let _ : Runtime := asciiRuntime []
  intro hobeys
  exact absurd (hobeys.timeInForce _ (of_decide_eq_true hsent)) (by decide)

end Binance

end YtmExecutor
