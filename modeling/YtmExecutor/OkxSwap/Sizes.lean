/-
The size of an order against the size that was approved.

A size is meant to be the approved quantity rounded down to the lot.  On the way to it the
executor divides and multiplies at 28 digits, to the nearest: the quotient may be carried
up to the next whole lot before it is rounded down, and the product may lose digits.  What
is sent is at least the minimum in any case, but it is the approved quantity rounded down
where neither happens, and up to 10 ^ 27 lots only there.
-/
import YtmExecutor.OkxSwap.Prices

namespace YtmExecutor

open Python Decimal

/-! ### What was approved -/

/-- The price a notional is converted at: the limit of a limit order, or the reference. -/
def conversionPrice (request : BrokerOrderRequest) : Option Positive :=
  if request.orderType = .limit ∨ request.orderType = .stopLimit then request.limitPrice
  else request.priceReference

/-- The contracts asked for: the quantity, or what the notional buys. -/
def approvedQuantity (request : BrokerOrderRequest) (rules : OkxSwapInstrumentRules) : Option ℚ :=
  match request.quantity with
  | some quantity => some quantity.val
  | none =>
      match request.notional, conversionPrice request with
      | some notional, some price => some (notional.val / (price.val * rules.contractValue.val))
      | _, _ => none

/-- The size read back is a whole number of lots, at least the minimum, at most what was
approved and less than a lot below it. -/
def SizeWithinApproval [Runtime] (request : BrokerOrderRequest) (rules : OkxSwapInstrumentRules)
    (params : OrderParams) : Prop :=
  ∃ (sz : Finite) (approved : ℚ), decimalOfText params.sz = .ok (.finite sz) ∧
    approvedQuantity request rules = some approved ∧
    (∃ m : ℤ, 0 < m ∧ sz.val = m * rules.lotSize.val) ∧ rules.minSize.val ≤ sz.val ∧
    sz.val ≤ approved ∧ approved - rules.lotSize.val < sz.val

/-! ### What the roundings do -/

/-- The contracts asked for, when the product and the quotient are rounded. -/
def roundedQuantity (request : BrokerOrderRequest) (rules : OkxSwapInstrumentRules) : Option ℚ :=
  match request.quantity with
  | some quantity => some quantity.val
  | none =>
      match request.notional, conversionPrice request with
      | some notional, some price =>
          some (rounded28 (notional.val / rounded28 (price.val * rules.contractValue.val)))
      | _, _ => none

/-- The rounded quotient has as many whole lots as were approved, and what they come to is not
rounded. -/
def LotsKept (request : BrokerOrderRequest) (rules : OkxSwapInstrumentRules) : Prop :=
  ∀ approved quantity, approvedQuantity request rules = some approved →
    roundedQuantity request rules = some quantity →
    ⌊rounded28 (quantity / rules.lotSize.val)⌋ = ⌊approved / rules.lotSize.val⌋ ∧
      rounded28 (floorTo rules.lotSize.val approved) = floorTo rules.lotSize.val approved

/-- No more than 10 ^ 27 lots, none of them below the smallest exponent. -/
structure FewLots (request : BrokerOrderRequest) (rules : OkxSwapInstrumentRules) : Prop where
  lots : ∀ approved, approvedQuantity request rules = some approved →
    approved ≤ 10 ^ 27 * rules.lotSize.val
  lot : (10 : ℚ) ^ (-999999 : ℤ) ≤ rules.lotSize.val

/-! ### The size that is sent -/

section Sent

variable {request : BrokerOrderRequest} {rules : OkxSwapInstrumentRules}

/-- A limit order that was built has a limit price. -/
theorem limitPrice_of_built [Runtime] {params : OrderParams}
    (h : OrderBuilt defaultContext request rules params) (hlimit : request.orderType = .limit) :
    ∃ price, request.limitPrice = some price := by
  have htype := h.ordType
  unfold effectiveOkxOrderType at htype
  rw [hlimit] at htype
  simp only [okxOrderType, bind, Except.bind, reduceCtorEq, and_false, if_false, pure, Except.pure,
    Except.ok.injEq] at htype
  have hpx := h.px
  rw [← htype] at hpx
  obtain ⟨price, hprice, _⟩ := bind_eq_ok.mp hpx
  cases hrequest : request.limitPrice with
  | some limit => exact ⟨limit, rfl⟩
  | none =>
      simp only [orderPrice, hrequest, reduceCtorEq, false_and, if_false] at hprice

/-- The quantity the size starts from, beside the one that was approved. -/
theorem requestedQuantity_of_built [Runtime] {params : OrderParams} {quantity : ℚ}
    (h : OrderBuilt defaultContext request rules params)
    (hquantity : requestedQuantity defaultContext request rules = .ok quantity) :
    ∃ approved, approvedQuantity request rules = some approved ∧
      roundedQuantity request rules = some quantity := by
  unfold requestedQuantity at hquantity
  unfold approvedQuantity roundedQuantity
  cases hgiven : request.quantity with
  | some given =>
      rw [hgiven] at hquantity
      obtain rfl := Except.ok.inj hquantity
      exact ⟨given.val, rfl, rfl⟩
  | none =>
      rw [hgiven] at hquantity
      have hprice : ∀ price, (if request.orderType = .limit ∨ request.orderType = .stopLimit then
          request.limitPrice.or request.priceReference else request.priceReference) = some price →
          conversionPrice request = some price := by
        intro price hprice
        unfold conversionPrice
        by_cases hlimit : request.orderType = .limit ∨ request.orderType = .stopLimit
        · rw [if_pos hlimit] at hprice ⊢
          rcases hlimit with hlimit | hstop
          · obtain ⟨limit, hsome⟩ := limitPrice_of_built h hlimit
            rw [hsome] at hprice ⊢
            exact hprice
          · have htype := h.ordType
            unfold effectiveOkxOrderType at htype
            rw [hstop] at htype
            cases htype
        · rw [if_neg hlimit] at hprice ⊢
          exact hprice
      unfold contractsFromNotional at hquantity
      cases hnotional : request.notional with
      | none =>
          rw [hnotional] at hquantity
          cases hquantity
      | some notional =>
          rw [hnotional] at hquantity
          dsimp only at hquantity
          split at hquantity
          · cases hquantity
          · rename_i price hsome
            obtain ⟨product, hproduct, hquantity⟩ := bind_eq_ok.mp hquantity
            obtain ⟨_, rfl⟩ := contextDiv_eq_ok hquantity
            obtain ⟨rfl, _⟩ := contextMul_eq_ok hproduct
            rw [hprice price hsome]
            exact ⟨_, rfl, rfl⟩

/-- The size of an order that was built. -/
theorem size_of_built [Runtime] {params : OrderParams}
    (h : OrderBuilt defaultContext request rules params) :
    ∃ (sz : Finite) (approved quantity : ℚ), decimalOfText params.sz = .ok (.finite sz) ∧
      approvedQuantity request rules = some approved ∧
      roundedQuantity request rules = some quantity ∧ 0 < sz.val ∧ rules.minSize.val ≤ sz.val ∧
      sz.val = rounded28 (⌊rounded28 (quantity / rules.lotSize.val)⌋ * rules.lotSize.val) := by
  obtain ⟨size, hsize, htext⟩ := h.size
  obtain ⟨quantity, hquantity, hsize⟩ := bind_eq_ok.mp hsize
  obtain ⟨rounded, hrounded, hsize⟩ := bind_eq_ok.mp hsize
  obtain ⟨_, hpos, hsize⟩ := bind_eq_ok.mp hsize
  obtain ⟨_, hmin, hsize⟩ := bind_eq_ok.mp hsize
  obtain rfl : rounded = size := Except.ok.inj hsize
  rw [raiseIf_eq_ok, not_le] at hpos
  rw [raiseIf_eq_ok, not_lt] at hmin
  obtain ⟨approved, happroved, hroundedQuantity⟩ := requestedQuantity_of_built h hquantity
  obtain ⟨hround, hheld⟩ := roundDownToStep_eq_ok hrounded
  have hdecimal : IsDecimal rounded := by
    rw [hround]
    exact isDecimal_rounded28 _
  have hsz : params.sz = plainText rounded :=
    Except.ok.inj (htext.symm.trans (decimalText_of_holds hheld))
  refine ⟨⟨rounded, hdecimal⟩, approved, quantity, ?_, happroved, hroundedQuantity, hpos, hmin,
    hround⟩
  rw [hsz]
  exact decimalOfText_of_holds (d := ⟨rounded, hdecimal⟩) hheld

/-- **The size is the approved quantity rounded down** where the number of lots is kept, and up to
10 ^ 27 lots exactly there. -/
theorem sizeWithinApproval_iff [Runtime] {params : OrderParams}
    (h : okxSwapOrderParams defaultContext request rules = .ok params) :
    (LotsKept request rules → SizeWithinApproval request rules params) ∧
      (FewLots request rules →
        (SizeWithinApproval request rules params ↔ LotsKept request rules)) := by
  obtain ⟨sz, approved, quantity, hsz, happroved, hquantity, hpos, hmin, hsize⟩ :=
    size_of_built (okxSwapOrderParams_built h)
  have hlot := rules.lotSize.pos
  have hwithin : LotsKept request rules → SizeWithinApproval request rules params := by
    intro hkept
    obtain ⟨hlots, hproduct⟩ := hkept approved quantity happroved hquantity
    have hexact : sz.val = floorTo rules.lotSize.val approved := by
      rw [hsize, hlots]
      exact hproduct
    refine ⟨sz, approved, hsz, happroved, ⟨⌊approved / rules.lotSize.val⌋, ?_, hexact⟩, hmin, ?_, ?_⟩
    · rw [hexact, floorTo, mul_pos_iff_of_pos_right hlot] at hpos
      exact_mod_cast hpos
    · rw [hexact]
      exact floorTo_le hlot approved
    · rw [hexact]
      linarith [lt_floorTo_add hlot approved]
  refine ⟨hwithin, fun hfew => ⟨?_, hwithin⟩⟩
  rintro ⟨sz', approved', hsz', happroved', ⟨m, _, hm⟩, _, hle, hlt⟩
  obtain rfl : sz = sz' := Number.finite.inj (Except.ok.inj (hsz.symm.trans hsz'))
  obtain rfl : approved = approved' := Option.some.inj (happroved.symm.trans happroved')
  -- A multiple of the lot less than a lot below the quantity is its floor.
  have hfloor : ⌊approved / rules.lotSize.val⌋ = m := by
    rw [Int.floor_eq_iff, le_div_iff₀ hlot, div_lt_iff₀ hlot, ← hm, add_mul, one_mul, ← hm]
    exact ⟨hle, by linarith⟩
  have hexact : floorTo rules.lotSize.val approved = sz.val := by rw [floorTo, hfloor, hm]
  have hpositive : 0 < floorTo rules.lotSize.val approved := by
    rw [hexact]
    exact hpos
  have hrounded : rounded28 (⌊rounded28 (quantity / rules.lotSize.val)⌋ * rules.lotSize.val) =
      floorTo rules.lotSize.val approved := hsize.symm.trans hexact.symm
  intro approved'' quantity'' happroved'' hquantity''
  obtain rfl : approved = approved'' := Option.some.inj (happroved.symm.trans happroved'')
  obtain rfl : quantity = quantity'' := Option.some.inj (hquantity.symm.trans hquantity'')
  refine (rounded_steps_eq_floorTo_iff ?_ hfew.lot hpositive ?_).mp hrounded
  · norm_num
  · exact hfew.lots approved happroved

end Sent

/-! ### A lot too much -/

namespace Sample

/-- An entry for a quantity. -/
def sized (quantity : Positive) : BrokerOrderRequest :=
  { longEntry with quantity := some quantity }

/-- Just below one: 0.999…, with twenty-nine nines. -/
def almostOne : Positive where
  val := 99999999999999999999999999999 / 10 ^ 29
  isDecimal := ⟨99999999999999999999999999999, 29, by norm_num⟩
  pos := by norm_num

/-- The size an entry is sent with. -/
theorem exists_sized {quantity : Positive} {sz : String}
    (h : (@okxSwapOrderParams (asciiRuntime []) defaultContext (sized quantity) rules).toOption.map
      (fun params => params.sz) = some sz) :
    ∃ params, @okxSwapOrderParams (asciiRuntime []) defaultContext (sized quantity) rules =
      .ok params ∧ params.sz = sz := by
  cases hparams : @okxSwapOrderParams (asciiRuntime []) defaultContext (sized quantity) rules with
  | error e =>
      rw [hparams] at h
      cases h
  | ok params =>
      rw [hparams] at h
      exact ⟨params, rfl, Option.some.inj h⟩

end Sample

/-- Two and a half lots are few, and sent as two. -/
theorem sizeWithinApproval_iff_sample : ∃ params,
    @okxSwapOrderParams (asciiRuntime []) defaultContext (Sample.sized (Sample.tenths 25))
        Sample.rules = .ok params ∧ FewLots (Sample.sized (Sample.tenths 25)) Sample.rules ∧
      @SizeWithinApproval (asciiRuntime []) (Sample.sized (Sample.tenths 25)) Sample.rules
        params := by
  obtain ⟨params, hparams, _⟩ :=
    @Sample.exists_sized (Sample.tenths 25) "2" (by decide +kernel)
  have hone : (1 : ℚ) = Sample.rules.lotSize.val := by decide +kernel
  have hlot : (10 : ℚ) ^ (-999999 : ℤ) ≤ 1 := zpow_le_one_of_nonpos₀ (by norm_num) (by norm_num)
  have hfew : FewLots (Sample.sized (Sample.tenths 25)) Sample.rules := by
    refine ⟨fun approved happroved => ?_, hlot.trans_eq hone⟩
    rw [← Option.some.inj happroved]
    decide +kernel
  refine ⟨params, hparams, hfew,
    ((@sizeWithinApproval_iff _ _ (asciiRuntime []) _ hparams).2 hfew).mpr ?_⟩
  intro approved quantity happroved hquantity
  rw [← Option.some.inj happroved, ← Option.some.inj hquantity]
  decide +kernel

/-- A quantity just below one lot is sent as one lot. -/
theorem size_above_approval : ∃ params,
    @okxSwapOrderParams (asciiRuntime []) defaultContext (Sample.sized Sample.almostOne)
        Sample.rules = .ok params ∧ params.sz = "1" ∧
      ¬@SizeWithinApproval (asciiRuntime []) (Sample.sized Sample.almostOne) Sample.rules
        params := by
  obtain ⟨params, hparams, hsz⟩ := @Sample.exists_sized Sample.almostOne "1" (by decide +kernel)
  refine ⟨params, hparams, hsz, ?_⟩
  rintro ⟨sz, approved, htext, happroved, _, _, hle, _⟩
  have hone : @decimalOfText (asciiRuntime []) "1" = .ok (.finite (.ofInt 1)) := by decide +kernel
  rw [hsz, hone] at htext
  have hval : Finite.ofInt 1 = sz := Number.finite.inj (Except.ok.inj htext)
  rw [← hval, ← Option.some.inj happroved] at hle
  exact absurd hle (by decide +kernel)

end YtmExecutor
