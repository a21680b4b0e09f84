/-
A real entry as it is sent: bounded and protected.

Each price is rounded to the tick on its own side, so that the entry never gets worse
than its bound, the stop never moves away from the entry, and the target never comes
nearer.  `entry_bounded_and_protected` reads all of this off the parameters as they are
sent.  Arithmetic is exact.
-/
import YtmExecutor.OkxSwap.Prices

namespace YtmExecutor

open Python Decimal

/-! ### Rounded on a side -/

/-- A multiple of the tick, less than a tick away, and on this side of the number. -/
structure RoundedOn (side : OkxSide) (tick value rounded : ℚ) : Prop where
  multiple : ∃ n : ℤ, rounded = n * tick
  onSide : match side with
    | .buy => rounded ≤ value
    | .sell => value ≤ rounded
  withinTick : |rounded - value| < tick

theorem roundedOn_tickRounded {tick : ℚ} (h : 0 < tick) (value : ℚ) (side : OkxSide) :
    RoundedOn side tick value (tickRounded tick value side) := by
  cases side with
  | buy =>
      refine ⟨⟨_, rfl⟩, floorTo_le h value, ?_⟩
      have hlow := floorTo_le h value
      have hhigh := lt_floorTo_add h value
      show |floorTo tick value - value| < tick
      rw [abs_lt]
      constructor <;> linarith
  | sell =>
      refine ⟨⟨_, rfl⟩, le_ceilTo h value, ?_⟩
      have hlow := le_ceilTo h value
      have hhigh := ceilTo_lt_add h value
      show |ceilTo tick value - value| < tick
      rw [abs_lt]
      constructor <;> linarith

section Entries

variable [Runtime] {request : BrokerOrderRequest} {rules : OkxSwapInstrumentRules}
variable {params : OrderParams}

/-! ### The parameters as they are sent -/

/-- The number that is sent under a key. -/
def sentNumber (sent : Dict) (key : String) : Option ℚ :=
  match sent.get key with
  | .str text => wireNumber text
  | _ => none

/-- The entry has a price on the right side of its bound, and is no market order. -/
structure BoundedEntry (request : BrokerOrderRequest) (rules : OkxSwapInstrumentRules)
    (sent : Dict) : Prop where
  ordType : sent.get "ordType" = "limit" ∨ sent.get "ordType" = "ioc"
  side : sent.get "side" = (entrySide request.side).text
  px : ∃ px bound, sentNumber sent "px" = some px ∧ entryBound request = some bound ∧
    RoundedOn (entrySide request.side) rules.tickSize.val bound px

/-- One order is attached, with the stop-loss and the first target, both closing at market. -/
structure ProtectedEntry (request : BrokerOrderRequest) (rules : OkxSwapInstrumentRules)
    (attached : Dict) : Prop where
  slOrdPx : attached.get "slOrdPx" = "-1"
  tpOrdPx : attached.get "tpOrdPx" = "-1"
  slTriggerPx : ∃ px stopLoss, sentNumber attached "slTriggerPx" = some px ∧
    request.stopLoss = some stopLoss ∧
    RoundedOn (triggerSide request.side) rules.tickSize.val stopLoss.val px
  tpTriggerPx : ∃ px target, sentNumber attached "tpTriggerPx" = some px ∧
    request.takeProfitTargets.head? = some target ∧
    RoundedOn (triggerSide request.side) rules.tickSize.val target.val px

omit [Runtime] in
theorem okxSide_opening (h : request.positionEffect = .opening) :
    okxSide request = entrySide request.side := by
  unfold okxSide entrySide
  rw [h]
  cases request.side <;> rfl

/-- A real entry is sent as a limit or as an immediate one. -/
theorem ordType_of_built (hreal : request.executionMode = .real)
    (hopen : request.positionEffect = .opening)
    (h : OrderBuilt Context.exact request rules params) :
    params.ordType = .limit ∨ params.ordType = .ioc := by
  have htype := h.ordType
  unfold effectiveOkxOrderType at htype
  obtain ⟨orderType, horderType, htype⟩ := bind_eq_ok.mp htype
  by_cases hmarket : orderType = .market
  · rw [if_pos ⟨hreal, hopen, hmarket⟩] at htype
    obtain ⟨_, _, htype⟩ := bind_eq_ok.mp htype
    exact Or.inr (Except.ok.inj htype).symm
  · rw [if_neg fun h => hmarket h.2.2] at htype
    rw [← Except.ok.inj htype]
    unfold okxOrderType at horderType
    split at horderType
    · exact Or.inl (Except.ok.inj horderType).symm
    · exact absurd (Except.ok.inj horderType).symm hmarket
    · cases horderType

omit [Runtime] in
/-- The attached orders close at market. -/
theorem marketClose_of_built {attached : AttachedTpSl} {takeProfit : AttachedTakeProfit}
    (h : AttachmentBuilt Context.exact request rules attached)
    (htp : attached.takeProfit = some takeProfit) :
    attached.slOrdPx = "-1" ∧ takeProfit.tpOrdPx = "-1" := by
  refine ⟨h.slOrdPx, ?_⟩
  have hbuilt := h.takeProfit
  rw [htp] at hbuilt
  unfold okxAttachedTakeProfit at hbuilt
  split at hbuilt
  · cases hbuilt
  · obtain ⟨_, _, hbuilt⟩ := bind_eq_ok.mp hbuilt
    obtain ⟨_, _, hbuilt⟩ := bind_eq_ok.mp hbuilt
    obtain ⟨_, _, hbuilt⟩ := bind_eq_ok.mp hbuilt
    cases hbuilt
    rfl

omit [Runtime] in
/-- What is sent under the keys of an entry. -/
theorem toDict_get {px : String} {attached : AttachedTpSl} (hpx : params.px = some px)
    (hattached : params.attachAlgoOrds = some attached) :
    params.toDict.get "px" = px ∧ params.toDict.get "ordType" = params.ordType.text ∧
      params.toDict.get "side" = params.side.text ∧
      params.toDict.get "attachAlgoOrds" = .list [.dict attached.toDict] := by
  obtain ⟨_, _, _, _, _, _, _, reduceOnly, _, _⟩ := params
  cases hpx
  cases hattached
  cases reduceOnly <;> exact ⟨rfl, rfl, rfl, rfl⟩

theorem sentNumber_of_get {sent : Dict} {key : String} {tick : Positive} {value : ℚ}
    {side : OkxSide} (h : sent.get key = (plainText (tickRounded tick.val value side))) :
    sentNumber sent key = some (tickRounded tick.val value side) := by
  unfold sentNumber
  rw [h]
  exact wireNumber_plainText (isDecimal_tickRounded tick.isDecimal value side)

/-- **A real entry is bounded and protected.** -/
theorem entry_bounded_and_protected (hreal : request.executionMode = .real)
    (hopen : request.positionEffect = .opening)
    (h : okxSwapOrderParams Context.exact request rules = .ok params) :
    BoundedEntry request rules params.toDict ∧
      ∃ attached : Dict, params.toDict.get "attachAlgoOrds" = .list [.dict attached] ∧
        ProtectedEntry request rules attached := by
  have hbuilt := okxSwapOrderParams_built h
  have htick := rules.tickSize.pos
  obtain ⟨bound, hbound, hpx⟩ := px_of_built hreal hopen hbuilt
  obtain ⟨stopLoss, target, attached, takeProfit, hstop, htarget, hattached, htp, hsl, htpx⟩ :=
    triggers_of_built hreal hopen hbuilt.attachment
  obtain ⟨hsentPx, hsentType, hsentSide, hsentAttached⟩ := toDict_get hpx hattached
  rw [okxSide_opening hopen] at hsentPx
  constructor
  · refine ⟨?_, ?_, _, bound, sentNumber_of_get hsentPx, hbound, roundedOn_tickRounded htick _ _⟩
    · rw [hsentType]
      rcases ordType_of_built hreal hopen hbuilt with h | h
      · exact Or.inl (by rw [h]; rfl)
      · exact Or.inr (by rw [h]; rfl)
    · rw [hsentSide, hbuilt.side, okxSide_opening hopen]
  · have hattachment := hbuilt.attachment
    rw [hattached] at hattachment
    obtain ⟨hslOrdPx, htpOrdPx⟩ := marketClose_of_built (orderAttachment_built hattachment) htp
    have hslGet : attached.toDict.get "slTriggerPx" = attached.slTriggerPx := rfl
    have hslOrd : attached.toDict.get "slOrdPx" = attached.slOrdPx := rfl
    have htpGet : attached.toDict.get "tpTriggerPx" = takeProfit.tpTriggerPx ∧
        attached.toDict.get "tpOrdPx" = takeProfit.tpOrdPx := by
      rw [AttachedTpSl.toDict, htp]
      exact ⟨rfl, rfl⟩
    rw [hsl] at hslGet
    rw [htpx] at htpGet
    refine ⟨attached.toDict, hsentAttached, ?_, ?_, ?_, ?_⟩
    · rw [hslOrd, hslOrdPx]
    · rw [htpGet.2, htpOrdPx]
    · exact ⟨_, stopLoss, sentNumber_of_get hslGet, hstop, roundedOn_tickRounded htick _ _⟩
    · exact ⟨_, target, sentNumber_of_get htpGet.1, htarget, roundedOn_tickRounded htick _ _⟩

end Entries

/-- A long entry at 100.5 with its stop at 99.5 and its target at 110. -/
theorem entry_bounded_and_protected_sample :
    let request := Sample.entry (Sample.tenths 1005) (Sample.tenths 995) (Sample.tenths 1100)
    ∃ params,
      @okxSwapOrderParams (asciiRuntime []) Context.exact request Sample.rules = .ok params ∧
      @BoundedEntry (asciiRuntime []) request Sample.rules params.toDict ∧
      ∃ attached : Dict, params.toDict.get "attachAlgoOrds" = .list [.dict attached] ∧
        @ProtectedEntry (asciiRuntime []) request Sample.rules attached := by
  intro request
  obtain ⟨params, h, _⟩ := Sample.built request (fun _ => true) (by decide +kernel)
  exact ⟨params, h, @entry_bounded_and_protected (asciiRuntime []) _ _ _ rfl rfl h⟩

end YtmExecutor
