/-
The prices of a real entry on the wire, read back as numbers.

The three prices are rounded to the tick in different directions, and the triggers are
checked against a price that is neither rounded nor always the one that is sent.  So the
order of the three on the wire is no consequence of the checks: it depends on which
multiples of the tick lie between the prices of the request, and `prices_coherent_iff`
says on which.  Arithmetic is exact here, the multiplication with a tick included.
-/
import YtmExecutor.Decimal.Step
import YtmExecutor.OkxSwap.Orders
import Mathlib.Data.PNat.Basic

namespace YtmExecutor

open Python Decimal

/-! ### What is sent -/

/-- The price a real entry is bounded by: the limit, or the worst price the slippage cap
leaves of the reference. -/
def entryBound (request : BrokerOrderRequest) : Option ℚ :=
  match request.orderType with
  | .market =>
      match request.priceReference, request.maxSlippageBps with
      | some reference, some bps => some (match request.side with
          | .long => reference.val * (1 + bps.val / 10000)
          | .short => reference.val * (1 - bps.val / 10000))
      | _, _ => none
  | _ => request.limitPrice.map fun price => price.val

/-- A number rounded to the tick on a side. -/
def tickRounded (tick value : ℚ) : OkxSide → ℚ
  | .buy => floorTo tick value
  | .sell => ceilTo tick value

theorem isDecimal_tickRounded {tick : ℚ} (h : IsDecimal tick) (value : ℚ) (side : OkxSide) :
    IsDecimal (tickRounded tick value side) := by
  cases side
  · exact isDecimal_floorTo h value
  · exact isDecimal_ceilTo h value

section Exact

theorem roundToTick_exact (tick : Positive) (value : ℚ) (side : OkxSide) :
    roundToTick Context.exact value tick.val side = .ok (tickRounded tick.val value side) := by
  have hdiv : contextDiv Context.exact value tick.val = .ok (value / tick.val) := by
    rw [contextDiv, Context.div, if_neg tick.pos.ne']
    rfl
  rw [roundToTick, hdiv]
  cases side <;> rfl

/-- The cap of a market entry is the bound. -/
theorem boundedMarketLimitPrice_exact {request : BrokerOrderRequest} {bound : ℚ}
    (hopen : request.positionEffect = .opening) (hmarket : request.orderType = .market)
    (h : boundedMarketLimitPrice Context.exact request (okxSide request) = .ok bound) :
    entryBound request = some bound := by
  have hdiv (bps : ℚ) : contextDiv Context.exact bps 10000 = .ok (bps / 10000) := by
    rw [contextDiv, Context.div, if_neg (by norm_num)]
    rfl
  unfold boundedMarketLimitPrice at h
  unfold entryBound okxSide at *
  rw [hmarket]
  rw [hopen] at h
  split at h
  · cases h
  · cases h
  · rename_i reference bps hreference hbps
    rw [hreference, hbps]
    rw [hdiv] at h
    cases hside : request.side with
    | long =>
        rw [hside] at h
        exact congrArg some (Except.ok.inj h)
    | short =>
        rw [hside] at h
        exact congrArg some (Except.ok.inj h)

variable [Runtime] {request : BrokerOrderRequest} {rules : OkxSwapInstrumentRules}
variable {params : OrderParams}

/-- The price of a real entry is its bound, rounded to the tick. -/
theorem px_of_built (hreal : request.executionMode = .real)
    (hopen : request.positionEffect = .opening)
    (h : OrderBuilt Context.exact request rules params) :
    ∃ bound, entryBound request = some bound ∧
      params.px = some (plainText (tickRounded rules.tickSize.val bound (okxSide request))) := by
  have htype := h.ordType
  have hpx := h.px
  unfold effectiveOkxOrderType at htype
  obtain ⟨orderType, horderType, htype⟩ := bind_eq_ok.mp htype
  cases hrequested : request.orderType with
  | limit =>
      rw [hrequested] at horderType
      cases horderType
      simp only [hreal, hopen, reduceCtorEq, and_false, if_false] at htype
      rw [← Except.ok.inj htype] at hpx
      simp only [orderPx, orderPrice, reduceCtorEq, false_and, if_false] at hpx
      obtain ⟨price, hprice, hpx⟩ := bind_eq_ok.mp hpx
      rw [roundToTick_exact] at hpx
      cases hlimit : request.limitPrice with
      | none => rw [hlimit] at hprice; cases hprice
      | some limit =>
          rw [hlimit] at hprice
          cases hprice
          exact ⟨limit.val, by simp [entryBound, hrequested, hlimit], (Except.ok.inj hpx).symm⟩
  | market =>
      rw [hrequested] at horderType
      cases horderType
      simp only [hreal, hopen, and_self, if_true] at htype
      obtain ⟨bound, hbound, htype⟩ := bind_eq_ok.mp htype
      rw [← Except.ok.inj htype] at hpx
      simp only [orderPx, orderPrice, hrequested, and_self, if_true, hbound] at hpx
      obtain ⟨price, hprice, hpx⟩ := bind_eq_ok.mp hpx
      cases hprice
      rw [roundToTick_exact] at hpx
      exact ⟨bound, boundedMarketLimitPrice_exact hopen hrequested hbound,
        (Except.ok.inj hpx).symm⟩
  | stop => rw [hrequested] at horderType; cases horderType
  | stopLimit => rw [hrequested] at horderType; cases horderType
  | stopMarket => rw [hrequested] at horderType; cases horderType

omit [Runtime] in
/-- The triggers of a real entry are its stop and its first target, rounded to the tick. -/
theorem triggers_of_built (hreal : request.executionMode = .real)
    (hopen : request.positionEffect = .opening) {attachment : Option AttachedTpSl}
    (h : orderAttachment Context.exact request rules = .ok attachment) :
    ∃ stopLoss target attached takeProfit, request.stopLoss = some stopLoss ∧
      request.takeProfitTargets.head? = some target ∧ attachment = some attached ∧
      attached.takeProfit = some takeProfit ∧
      attached.slTriggerPx =
        plainText (tickRounded rules.tickSize.val stopLoss.val (triggerSide request.side)) ∧
      takeProfit.tpTriggerPx =
        plainText (tickRounded rules.tickSize.val target.val (triggerSide request.side)) := by
  unfold orderAttachment at h
  simp only [hopen, ne_eq, not_true_eq_false, if_false] at h
  obtain ⟨_, hstop, h⟩ := bind_eq_ok.mp h
  obtain ⟨_, htargets, h⟩ := bind_eq_ok.mp h
  rw [raiseIf_eq_ok] at hstop htargets
  cases hstopLoss : request.stopLoss with
  | none => exact absurd ⟨hreal, hstopLoss⟩ hstop
  | some stopLoss =>
    cases htakeProfit : request.takeProfitTargets with
    | nil => exact absurd ⟨hreal, htakeProfit⟩ htargets
    | cons target rest =>
      rw [hstopLoss] at h
      obtain ⟨attached, hattached, h⟩ := bind_eq_ok.mp h
      unfold okxAttachedTpSl normalizedStopLossTriggerPrice normalizedTriggerPrice at hattached
      rw [roundToTick_exact] at hattached
      obtain ⟨_, ⟨⟩, hattached⟩ := bind_eq_ok.mp hattached
      obtain ⟨_, _, hattached⟩ := bind_eq_ok.mp hattached
      obtain ⟨_, ⟨⟩, hattached⟩ := bind_eq_ok.mp hattached
      obtain ⟨takeProfit, htp, hattached⟩ := bind_eq_ok.mp hattached
      unfold okxAttachedTakeProfit normalizedTakeProfitTriggerPrice normalizedTriggerPrice at htp
      rw [htakeProfit] at htp
      dsimp only at htp
      rw [roundToTick_exact] at htp
      obtain ⟨_, ⟨⟩, htp⟩ := bind_eq_ok.mp htp
      obtain ⟨_, _, htp⟩ := bind_eq_ok.mp htp
      obtain ⟨_, ⟨⟩, htp⟩ := bind_eq_ok.mp htp
      cases htp
      cases hattached
      cases h
      exact ⟨stopLoss, target, _, _, rfl, rfl, rfl, rfl, rfl, rfl⟩

end Exact

/-! ### What is read on the other side -/

section Wire

variable [Runtime]

/-- The number a text on the wire stands for. -/
def wireNumber (text : String) : Option ℚ := (parse decimalDigit text.toList).bind Literal.value?

theorem wireNumber_plainText {q : ℚ} (h : IsDecimal q) : wireNumber (plainText q) = some q :=
  parse_plainText readsDigits_decimalDigit h

/-- The three prices in the parameters of an order. -/
structure WirePrices (params : OrderParams) (px slTriggerPx tpTriggerPx : ℚ) : Prop where
  px : params.px.bind wireNumber = some px
  slTriggerPx : (params.attachAlgoOrds.bind fun attached =>
    wireNumber attached.slTriggerPx) = some slTriggerPx
  tpTriggerPx : (params.attachAlgoOrds.bind fun attached => attached.takeProfit.bind fun tp =>
    wireNumber tp.tpTriggerPx) = some tpTriggerPx

/-- The stop is on the losing side of the price and the target on the winning side. -/
def InOrder (px slTriggerPx tpTriggerPx : ℚ) : Side → Prop
  | .long => 0 < slTriggerPx ∧ slTriggerPx < px ∧ px < tpTriggerPx
  | .short => 0 < tpTriggerPx ∧ tpTriggerPx < px ∧ px < slTriggerPx

def CoherentPrices (side : Side) (params : OrderParams) : Prop :=
  ∃ px slTriggerPx tpTriggerPx, WirePrices params px slTriggerPx tpTriggerPx ∧
    InOrder px slTriggerPx tpTriggerPx side

/-- Two multiples of the tick lie between the stop and the bound of the entry, and none from
the target to the bound; the target of a short is a tick at least. -/
def TicksApart (tick bound stopLoss target : ℚ) : Side → Prop
  | .long => (∃ n : ℤ, stopLoss ≤ n * tick ∧ (n + 1) * tick ≤ bound) ∧
      ¬∃ n : ℤ, target ≤ n * tick ∧ n * tick ≤ bound
  | .short => tick ≤ target ∧ (¬∃ n : ℤ, bound ≤ n * tick ∧ n * tick ≤ target) ∧
      ∃ n : ℤ, bound ≤ n * tick ∧ (n + 1) * tick ≤ stopLoss

/-- The tick leaves room between the prices of the request. -/
def RoomForTicks (request : BrokerOrderRequest) (tick : ℚ) : Prop :=
  ∃ bound stopLoss target, entryBound request = some bound ∧
    request.stopLoss = some stopLoss ∧ request.takeProfitTargets.head? = some target ∧
    TicksApart tick bound stopLoss.val target.val request.side

/-- The side an entry is made on. -/
def entrySide : Side → OkxSide
  | .long => .buy
  | .short => .sell

omit [Runtime] in
/-- **Rounded to the tick, prices are in order exactly when they are ticks apart.** -/
theorem inOrder_tickRounded_iff {tick bound stopLoss target : ℚ} (htick : 0 < tick)
    (hstop : 0 < stopLoss) (side : Side) :
    InOrder (tickRounded tick bound (entrySide side)) (tickRounded tick stopLoss (triggerSide side))
      (tickRounded tick target (triggerSide side)) side ↔
      TicksApart tick bound stopLoss target side := by
  cases side with
  | long =>
      simp only [InOrder, TicksApart, entrySide, triggerSide, tickRounded]
      rw [ceilTo_lt_floorTo_iff htick, floorTo_lt_ceilTo_iff htick]
      exact and_iff_right (ceilTo_pos htick hstop)
  | short =>
      simp only [InOrder, TicksApart, entrySide, triggerSide, tickRounded]
      rw [ceilTo_lt_floorTo_iff htick, floorTo_lt_ceilTo_iff htick, floorTo_pos_iff htick]

variable {request : BrokerOrderRequest} {rules : OkxSwapInstrumentRules} {params : OrderParams}

/-- **The prices of a real entry are coherent exactly when the tick leaves room for it.** -/
theorem prices_coherent_iff (hreal : request.executionMode = .real)
    (hopen : request.positionEffect = .opening)
    (h : okxSwapOrderParams Context.exact request rules = .ok params) :
    CoherentPrices request.side params ↔ RoomForTicks request rules.tickSize.val := by
  have hbuilt := okxSwapOrderParams_built h
  have hdecimal := isDecimal_tickRounded rules.tickSize.isDecimal
  have hside : okxSide request = entrySide request.side := by
    unfold okxSide entrySide
    rw [hopen]
    cases request.side <;> rfl
  obtain ⟨bound, hbound, hpx⟩ := px_of_built hreal hopen hbuilt
  rw [hside] at hpx
  obtain ⟨stopLoss, target, attached, takeProfit, hstop, htarget, hattached, htp, hsl, htpx⟩ :=
    triggers_of_built hreal hopen hbuilt.attachment
  have hwire : WirePrices params
      (tickRounded rules.tickSize.val bound (entrySide request.side))
      (tickRounded rules.tickSize.val stopLoss.val (triggerSide request.side))
      (tickRounded rules.tickSize.val target.val (triggerSide request.side)) := by
    refine ⟨?_, ?_, ?_⟩
    · rw [hpx, Option.bind_some, wireNumber_plainText (hdecimal _ _)]
    · rw [hattached, Option.bind_some, hsl, wireNumber_plainText (hdecimal _ _)]
    · rw [hattached, Option.bind_some, htp, Option.bind_some, htpx,
        wireNumber_plainText (hdecimal _ _)]
  have horder := @inOrder_tickRounded_iff _ bound _ target.val
    rules.tickSize.pos stopLoss.pos request.side
  constructor
  · rintro ⟨px, sl, tp, hprices, hcoherent⟩
    obtain rfl := Option.some.inj (hprices.px.symm.trans hwire.px)
    obtain rfl := Option.some.inj (hprices.slTriggerPx.symm.trans hwire.slTriggerPx)
    obtain rfl := Option.some.inj (hprices.tpTriggerPx.symm.trans hwire.tpTriggerPx)
    exact ⟨bound, stopLoss, target, hbound, hstop, htarget, horder.mp hcoherent⟩
  · rintro ⟨bound', stopLoss', target', hbound', hstop', htarget', hroom⟩
    obtain rfl := Option.some.inj (hbound.symm.trans hbound')
    obtain rfl := Option.some.inj (hstop.symm.trans hstop')
    obtain rfl := Option.some.inj (htarget.symm.trans htarget')
    exact ⟨_, _, _, hwire, horder.mpr hroom⟩

end Wire

/-! ### A stop on top of the price -/

namespace Sample

def tenths (n : ℕ+) : Positive where
  val := n / 10
  isDecimal := ⟨n, 1, by push_cast; ring⟩
  pos := by
    have hn : (0 : ℚ) < (n : ℕ) := by exact_mod_cast n.pos
    positivity

/-- A real long limit entry; prices in tenths. -/
def entry (limitPrice stopLoss takeProfit : Positive) : BrokerOrderRequest where
  provider := "okx"
  executionMode := .real
  symbol := "BTCUSDT"
  side := .long
  positionEffect := .opening
  orderType := .limit
  clientOrderId := "order-1"
  quantity := some (tenths 10)
  notional := none
  limitPrice := some limitPrice
  stopPrice := none
  stopLoss := some stopLoss
  takeProfitTargets := [takeProfit]
  priceReference := none
  timeInForce := none
  maxSlippageBps := none
  market := some "okx_swap"
  marginMode := some "cross"
  leverage := none

/-- An instrument with a tick of one. -/
def rules : OkxSwapInstrumentRules where
  instId := "BTC-USDT-SWAP"
  instType := "SWAP"
  state := "live"
  contractValue := tenths 1
  lotSize := tenths 10
  tickSize := tenths 10
  minSize := tenths 10

def tenth : Positive := tenths 1

def hundred : Positive := tenths 1000

/-- A long entry at 100 with its stop at 95 and its target at 110. -/
def longEntry : BrokerOrderRequest := entry hundred (tenths 950) (tenths 1100)

/-- The parameters of an entry, if they are built and pass a check. -/
theorem built (request : BrokerOrderRequest) (check : OrderParams → Bool)
    (h : (@okxSwapOrderParams (asciiRuntime []) Context.exact request rules).toOption.any check =
      true) :
    ∃ params, @okxSwapOrderParams (asciiRuntime []) Context.exact request rules = .ok params ∧
      check params = true := by
  cases hparams : @okxSwapOrderParams (asciiRuntime []) Context.exact request rules with
  | ok params =>
      rw [hparams] at h
      exact ⟨params, rfl, h⟩
  | error e =>
      rw [hparams] at h
      cases h

end Sample

/-- An entry at 100 with its stop at 95 and its target at 110. -/
theorem prices_coherent_iff_sample :
    let request := Sample.entry (Sample.tenths 1000) (Sample.tenths 950) (Sample.tenths 1100)
    ∃ params, @okxSwapOrderParams (asciiRuntime []) Context.exact request Sample.rules = .ok params ∧
      (@CoherentPrices (asciiRuntime []) request.side params ↔
        RoomForTicks request Sample.rules.tickSize.val) := by
  intro request
  obtain ⟨params, h, _⟩ := Sample.built request (fun _ => true) (by decide +kernel)
  exact ⟨params, h, @prices_coherent_iff (asciiRuntime []) _ _ _ rfl rfl h⟩

/-- A limit of 100.5 and a stop of 99.5 are both sent as 100. -/
theorem prices_incoherent :
    let request := Sample.entry (Sample.tenths 1005) (Sample.tenths 995) (Sample.tenths 1100)
    request.executionMode = .real ∧ request.positionEffect = .opening ∧
      ∃ params,
        @okxSwapOrderParams (asciiRuntime []) Context.exact request Sample.rules = .ok params ∧
        ¬@CoherentPrices (asciiRuntime []) request.side params := by
  intro request
  obtain ⟨params, h, hsame⟩ := Sample.built request (fun params =>
    params.px = some "100" ∧ params.attachAlgoOrds.map (·.slTriggerPx) = some "100")
    (by decide +kernel)
  refine ⟨rfl, rfl, params, h, ?_⟩
  let _ : Runtime := asciiRuntime []
  rintro ⟨px, slTriggerPx, tpTriggerPx, hprices, _, hlt, _⟩
  obtain ⟨hpx, hsl⟩ := of_decide_eq_true hsame
  obtain ⟨attached, hattached, htrigger⟩ := Option.map_eq_some_iff.mp hsl
  have hone := hprices.px
  have hother := hprices.slTriggerPx
  rw [hpx, Option.bind_some] at hone
  rw [hattached, Option.bind_some, htrigger, hone] at hother
  exact absurd hlt (Option.some.inj hother ▸ lt_irrefl px)

end YtmExecutor
