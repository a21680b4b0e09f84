/-
Which calls the adapters make.

Each program of an adapter is walked once here, for two APIs side by side.  The two runs
are alike as soon as the calls they are made of are: that is what becomes of a program
whose API is built from other keys.  For one API it says which calls there are, so a
statement about all calls of an adapter is a statement about a list of operations.
-/
import YtmExecutor.BinanceFutures
import YtmExecutor.Interaction.Alike
import YtmExecutor.OkxSwap.Adapter

namespace YtmExecutor

open Python Decimal Interaction Prog

section Okx

variable [Runtime] {ctx : Context} {C : Type} {api api' : OkxCall → Prog C Value PyError Value}
variable {same : C → C → Prop} {request : BrokerOrderRequest}

theorem okxQuery_alike {op : OkxCall} {endpoint : String} (h : Alike same (api op) (api' op)) :
    Alike same (okxQuery api op endpoint) (okxQuery api' op endpoint) :=
  h.bind fun _ => Alike.ofExcept _

omit [Runtime] in
/-- Handlers that take the same `ValueError`s and make no call. -/
theorem takeValueError_alike {α : Type} {p q : Prog C Value PyError α}
    {x : String → Except PyError α} (h : Alike same p q) :
    Alike same (p.handle (takeValueError fun message => Prog.ofExcept (x message)))
      (q.handle (takeValueError fun message => Prog.ofExcept (x message))) := by
  refine h.handle fun e => ?_
  cases e with
  | valueError message => exact Option.Rel.some (Alike.ofExcept _)
  | decimal signal => exact Option.Rel.none
  | other kind message => exact Option.Rel.none

/-! ### Before the order -/

theorem accountAndRules_alike (haccount : Alike same (api .getAccountConfig) (api' .getAccountConfig))
    (hinstruments : ∀ t i, Alike same (api (.getInstruments t i)) (api' (.getInstruments t i))) :
    Alike same (accountAndRules api request) (accountAndRules api' request) := by
  refine (okxQuery_alike haccount).bind fun _ => ?_
  refine (Alike.ofExcept _).bind fun _ => ?_
  refine (okxQuery_alike (hinstruments _ _)).bind fun _ => ?_
  exact (Alike.ofExcept _).bind fun _ => Alike.ofExcept (.ok _)

theorem orderPrecheckPayload_alike {params : OrderParams} {accountConfig : AccountConfig}
    (hprecheck : Alike same (api (.orderPrecheck params)) (api' (.orderPrecheck params))) :
    Alike same (orderPrecheckPayload api params accountConfig)
      (orderPrecheckPayload api' params accountConfig) := by
  unfold orderPrecheckPayload
  split
  · exact Alike.ofExcept (.ok _)
  · exact (okxQuery_alike hprecheck).bind fun _ => Alike.ofExcept (.ok _)

theorem okxPrecheckPrepareOrder_alike
    (haccount : Alike same (api .getAccountConfig) (api' .getAccountConfig))
    (hinstruments : ∀ t i, Alike same (api (.getInstruments t i)) (api' (.getInstruments t i)))
    (hprecheck : ∀ params, Alike same (api (.orderPrecheck params)) (api' (.orderPrecheck params))) :
    Alike same (okxPrecheckPrepareOrder ctx api request) (okxPrecheckPrepareOrder ctx api' request) := by
  refine (Alike.ofExcept _).bind fun _ => ?_
  refine (accountAndRules_alike haccount hinstruments).bind fun _ => ?_
  refine (Alike.ofExcept _).bind fun params => ?_
  refine (orderPrecheckPayload_alike (hprecheck params)).bind fun _ => ?_
  refine (Alike.ofExcept _).bind fun _ => ?_
  exact (Alike.ofExcept _).bind fun _ => Alike.ofExcept (.ok _)

theorem setRequestedLeverage_alike {rules : OkxSwapInstrumentRules}
    (hleverage : ∀ params, Alike same (api (.setLeverage params)) (api' (.setLeverage params))) :
    Alike same (setRequestedLeverage api request rules) (setRequestedLeverage api' request rules) := by
  refine (Alike.ofExcept _).bind fun leverageParams => ?_
  cases leverageParams with
  | none => exact Alike.ofExcept (.ok _)
  | some params =>
      refine (okxQuery_alike (hleverage params)).bind fun _ => ?_
      exact (Alike.ofExcept _).bind fun _ => Alike.ofExcept (.ok _)

theorem placementPreparation_alike
    (haccount : Alike same (api .getAccountConfig) (api' .getAccountConfig))
    (hinstruments : ∀ t i, Alike same (api (.getInstruments t i)) (api' (.getInstruments t i)))
    (hleverage : ∀ params, Alike same (api (.setLeverage params)) (api' (.setLeverage params)))
    (hprecheck : ∀ params, Alike same (api (.orderPrecheck params)) (api' (.orderPrecheck params))) :
    Alike same (placementPreparation ctx api request) (placementPreparation ctx api' request) := by
  refine (accountAndRules_alike haccount hinstruments).bind fun _ => ?_
  refine (setRequestedLeverage_alike hleverage).bind fun _ => ?_
  refine (Alike.ofExcept _).bind fun params => ?_
  exact (orderPrecheckPayload_alike (hprecheck params)).bind fun _ => Alike.ofExcept (.ok _)

theorem lookupOrderByClientId_alike {params : OrderParams}
    (horder : Alike same (api (.getOrder params.instId params.clOrdId))
      (api' (.getOrder params.instId params.clOrdId))) :
    Alike same (lookupOrderByClientId api params) (lookupOrderByClientId api' params) := by
  refine Alike.bind (takeValueError_alike (x := fun _ => .ok []) (okxQuery_alike horder))
    fun items => ?_
  cases items with
  | nil => exact Alike.ofExcept (.ok _)
  | cons response rest =>
      dsimp only
      split
      · exact Alike.ofExcept (.ok _)
      · exact (Alike.ofExcept _).bind fun _ => Alike.ofExcept (.ok _)

/-! ### After the order -/

section Protection

variable {rules : OkxSwapInstrumentRules} {expected : AttachedTpSl} {providerOrderId : String}
variable (hpositions : ∀ t i, Alike same (api (.getPositions t i)) (api' (.getPositions t i)))
variable (halgo : ∀ params, Alike same (api (.placeAlgoOrder params)) (api' (.placeAlgoOrder params)))
variable (hpending : ∀ t i o,
  Alike same (api (.orderAlgosPending t i o)) (api' (.orderAlgosPending t i o)))

include halgo in
theorem remediatePosition_alike {position : Dict} {reasonCode : String} :
    Alike same
      (remediatePosition ctx api request providerOrderId position rules expected reasonCode)
      (remediatePosition ctx api' request providerOrderId position rules expected reasonCode) := by
  refine takeValueError_alike (x := fun message => .ok (unprotected expected reasonCode message)) ?_
  refine (Alike.ofExcept _).bind fun params => ?_
  refine (okxQuery_alike (halgo params)).bind fun _ => ?_
  exact (Alike.ofExcept _).bind fun _ => Alike.ofExcept (.ok _)

include hpositions in
theorem queryOpenPosition_alike :
    Alike same (queryOpenPosition ctx api rules) (queryOpenPosition ctx api' rules) :=
  (okxQuery_alike (hpositions _ _)).bind fun _ => Alike.ofExcept _

include hpending in
theorem matchingPendingProtectionFromApi_alike (orderTypes : List String) :
    Alike same (matchingPendingProtectionFromApi api rules expected providerOrderId orderTypes)
      (matchingPendingProtectionFromApi api' rules expected providerOrderId orderTypes) := by
  induction orderTypes with
  | nil => exact Alike.ofExcept (.ok _)
  | cons orderType rest ih =>
      refine (okxQuery_alike (hpending _ _ _)).bind fun items => ?_
      split
      · exact Alike.ofExcept (.ok _)
      · exact ih

include hpositions halgo hpending in
theorem safeVerifyOrRemediateProtection_alike {params : OrderParams} {response : Dict} :
    Alike same
      (safeVerifyOrRemediateProtection ctx api request params response providerOrderId rules)
      (safeVerifyOrRemediateProtection ctx api' request params response providerOrderId rules) := by
  refine takeValueError_alike (x := fun message => .ok _) ?_
  unfold verifyOrRemediateProtection
  split
  · exact Alike.ofExcept (.ok _)
  · dsimp only
    split
    · refine (queryOpenPosition_alike hpositions).bind fun position => ?_
      cases position with
      | none => exact Alike.ofExcept (.ok _)
      | some position => exact remediatePosition_alike halgo
    · refine (matchingPendingProtectionFromApi_alike hpending _).bind fun found => ?_
      cases found with
      | some pending => exact Alike.ofExcept (.ok _)
      | none =>
          refine (queryOpenPosition_alike hpositions).bind fun position => ?_
          cases position with
          | none => exact Alike.ofExcept (.ok _)
          | some position => exact remediatePosition_alike halgo

end Protection

/-! ### The whole adapter -/

theorem okxPlacementPrepareOrder_alike (h : ∀ op, Alike same (api op) (api' op)) :
    Alike same (okxPlacementPrepareOrder ctx api request)
      (okxPlacementPrepareOrder ctx api' request) := by
  refine (Alike.ofExcept _).bind fun _ => ?_
  refine (Alike.ofExcept _).bind fun _ => ?_
  refine (placementPreparation_alike (h _) (fun _ _ => h _) (fun _ => h _)
    fun _ => h _).bind fun preparation => ?_
  have henter : Alike same (enterOrder api preparation.params)
      (enterOrder api' preparation.params) := by
    refine (lookupOrderByClientId_alike (h _)).bind fun found => ?_
    cases found with
    | some existing => exact Alike.ofExcept _
    | none =>
        refine (okxQuery_alike (h _)).bind fun _ => ?_
        exact (Alike.ofExcept _).bind fun _ => Alike.ofExcept _
  refine henter.bind fun entered => ?_
  refine (safeVerifyOrRemediateProtection_alike (fun _ _ => h _) (fun _ => h _)
    fun _ _ _ => h _).bind fun _ => ?_
  exact (Alike.ofExcept _).bind fun _ => Alike.ofExcept (.ok _)

/-! ### The calls of the pieces -/

variable {Q : C → Prop}

theorem okxPrecheckPrepareOrder_callsOnly (haccount : CallsOnly Q (api .getAccountConfig))
    (hinstruments : ∀ t i, CallsOnly Q (api (.getInstruments t i)))
    (hprecheck : ∀ params, CallsOnly Q (api (.orderPrecheck params))) :
    CallsOnly Q (okxPrecheckPrepareOrder ctx api request) :=
  (okxPrecheckPrepareOrder_alike haccount.alike (fun t i => (hinstruments t i).alike)
    fun params => (hprecheck params).alike).callsOnly fun _ _ h => h

theorem placementPreparation_callsOnly (haccount : CallsOnly Q (api .getAccountConfig))
    (hinstruments : ∀ t i, CallsOnly Q (api (.getInstruments t i)))
    (hleverage : ∀ params, CallsOnly Q (api (.setLeverage params)))
    (hprecheck : ∀ params, CallsOnly Q (api (.orderPrecheck params))) :
    CallsOnly Q (placementPreparation ctx api request) :=
  (placementPreparation_alike haccount.alike (fun t i => (hinstruments t i).alike)
    (fun params => (hleverage params).alike) fun params => (hprecheck params).alike).callsOnly
      fun _ _ h => h

theorem lookupOrderByClientId_callsOnly {params : OrderParams}
    (horder : CallsOnly Q (api (.getOrder params.instId params.clOrdId))) :
    CallsOnly Q (lookupOrderByClientId api params) :=
  (lookupOrderByClientId_alike horder.alike).callsOnly fun _ _ h => h

theorem safeVerifyOrRemediateProtection_callsOnly {rules : OkxSwapInstrumentRules}
    {params : OrderParams} {response : Dict} {providerOrderId : String}
    (hpositions : ∀ t i, CallsOnly Q (api (.getPositions t i)))
    (halgo : ∀ params, CallsOnly Q (api (.placeAlgoOrder params)))
    (hpending : ∀ t i o, CallsOnly Q (api (.orderAlgosPending t i o))) :
    CallsOnly Q (safeVerifyOrRemediateProtection ctx api request params response providerOrderId
      rules) :=
  (safeVerifyOrRemediateProtection_alike (fun t i => (hpositions t i).alike)
    (fun params => (halgo params).alike) fun t i o => (hpending t i o).alike).callsOnly
      fun _ _ h => h

end Okx

/-! ### Binance -/

section Binance

variable [Runtime] [BinanceSdk] {ctx : Context} {C : Type} {request : BrokerOrderRequest}
variable {api api' : Binance.BinanceCall → Prog C Value PyError Value} {same : C → C → Prop}

/-- The Binance adapter makes the calls of its own API and no other. -/
theorem binancePrepareOrder_alike (h : ∀ op, Alike same (api op) (api' op)) :
    Alike same (Binance.prepareOrder ctx api request) (Binance.prepareOrder ctx api' request) := by
  refine (Alike.ofExcept _).bind fun _ => ?_
  refine (Alike.ofExcept _).bind fun _ => ?_
  refine (h _).bind fun _ => ?_
  refine (Alike.ofExcept _).bind fun _ => ?_
  refine (Alike.ofExcept _).bind fun _ => ?_
  refine (Alike.ofExcept _).bind fun _ => ?_
  refine (h _).bind fun _ => ?_
  refine (Alike.ofExcept _).bind fun _ => ?_
  exact (Alike.ofExcept _).bind fun _ => Alike.ofExcept (.ok _)

theorem binancePrepareOrder_callsOnly {Q : C → Prop} (h : ∀ op, CallsOnly Q (api op)) :
    CallsOnly Q (Binance.prepareOrder ctx api request) :=
  (binancePrepareOrder_alike fun op => (h op).alike).callsOnly fun _ _ h => h

end Binance

end YtmExecutor
