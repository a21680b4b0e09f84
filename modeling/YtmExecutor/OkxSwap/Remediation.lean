/-
The stop that is placed when nothing protects an open position.

Its trigger price comes from the request and everything else from the position OKX
shows: the side from the sign, the size from the amount.  So it protects the position
the request opened only if the two go together.  `stopBuilt_of_ok` says what a stop is
made of, and `stop_protects_iff` for which positions that is a protection.

The stop is written under an id of its own and carries no trace of the order it belongs
to.  The search for the protection knows neither, so on a retry it is not found again.
-/
import YtmExecutor.FailClosed
import YtmExecutor.OkxSwap.Prices
import YtmExecutor.OkxSwap.Runs

namespace YtmExecutor

open Python Decimal Interaction Prog

section Stop

variable [Runtime] {ctx : Context} {request : BrokerOrderRequest} {rules : OkxSwapInstrumentRules}
variable {expected : AttachedTpSl} {providerOrderId : String} {position : Dict} {stop : AlgoParams}

/-! ### What a stop is made of -/

/-- The amount of a position as the context holds it, and its direction. -/
structure StopBuilt (ctx : Context) (request : BrokerOrderRequest) (providerOrderId : String)
    (position : Dict) (rules : OkxSwapInstrumentRules) (expected : AttachedTpSl)
    (stop : AlgoParams) : Prop where
  algoClOrdId : stop.algoClOrdId =
    okxAttachedAlgoClientOrderId (request.clientOrderId ++ ":" ++ providerOrderId) "sr"
  reduceOnly : stop.reduceOnly = "true"
  slTriggerPx : stop.slTriggerPx = expected.slTriggerPx
  slOrdPx : stop.slOrdPx = expected.slOrdPx
  size : ∃ d size rounded, okxOptionalDecimal (position.get "pos") "pos" = .ok (some d) ∧
    ctx.fix |d.val| = .ok size ∧ 0 < size ∧
    roundDownToStep ctx size rules.lotSize.val = .ok rounded ∧
    decimalText ctx rounded = .ok stop.sz ∧
    stop.side = if d.val < 0 then .buy else if 0 < d.val then .sell else triggerSide request.side

theorem okxOptionalAbsDecimal_eq_ok {v : Value} {fieldName : String} {size : Option ℚ} :
    okxOptionalAbsDecimal ctx v fieldName = .ok size ↔
      (okxOptionalDecimal v fieldName = .ok none ∧ size = none) ∨
        ∃ d s, okxOptionalDecimal v fieldName = .ok (some d) ∧ ctx.fix |d.val| = .ok s ∧
          size = some s := by
  unfold okxOptionalAbsDecimal
  rw [bind_eq_ok]
  constructor
  · rintro ⟨found, hfound, h⟩
    cases found with
    | none => exact Or.inl ⟨hfound, (Except.ok.inj h).symm⟩
    | some d =>
        obtain ⟨s, hs, h⟩ := bind_eq_ok.mp h
        refine Or.inr ⟨d, s, hfound, ?_, (Except.ok.inj h).symm⟩
        cases hfix : ctx.fix |d.val| with
        | ok r => rw [hfix] at hs; cases hs; rfl
        | error e => rw [hfix] at hs; cases hs
  · rintro (⟨hfound, rfl⟩ | ⟨d, s, hfound, hs, rfl⟩)
    · exact ⟨none, hfound, rfl⟩
    · exact ⟨some d, hfound, bind_eq_ok.mpr ⟨s, by rw [hs]; rfl, rfl⟩⟩

theorem stopBuilt_of_ok (h : remediationStopLossParams ctx request providerOrderId position rules
      expected = .ok stop) :
    StopBuilt ctx request providerOrderId position rules expected stop := by
  obtain ⟨size, hsize, h⟩ := bind_eq_ok.mp h
  obtain ⟨_, hpos, h⟩ := bind_eq_ok.mp h
  obtain ⟨side, hside, h⟩ := bind_eq_ok.mp h
  obtain ⟨rounded, hrounded, h⟩ := bind_eq_ok.mp h
  obtain ⟨sz, hsz, h⟩ := bind_eq_ok.mp h
  obtain ⟨tdMode, _, h⟩ := bind_eq_ok.mp h
  cases h
  rw [raiseIf_eq_ok, not_le] at hpos
  rcases okxOptionalAbsDecimal_eq_ok.mp hsize with ⟨_, rfl⟩ | ⟨d, s, hd, hs, rfl⟩
  · exact absurd hpos (lt_irrefl 0)
  · refine ⟨rfl, rfl, rfl, rfl, d, s, rounded, hd, hs, hpos, hrounded, hsz, ?_⟩
    obtain ⟨found, hfound, hside⟩ := bind_eq_ok.mp hside
    rw [hd] at hfound
    cases hfound
    dsimp only at hside
    by_cases hneg : d.val < 0
    · rw [if_pos hneg] at hside ⊢
      exact (Except.ok.inj hside).symm
    · rw [if_neg hneg] at hside ⊢
      by_cases hlong : 0 < d.val
      · rw [if_pos hlong] at hside ⊢
        exact (Except.ok.inj hside).symm
      · rw [if_neg hlong] at hside ⊢
        exact (Except.ok.inj hside).symm

/-! ### The position a stop is for -/

/-- The row that is taken has an amount. -/
theorem matchingOpenPosition_pos {items : List Dict}
    (h : matchingOpenPosition ctx rules items = .ok (some position)) :
    ∃ item ∈ items, position.get "pos" = item.get "pos" ∧
      upper ((item.get "instId").pyOr "").toText = rules.instId ∧
      ∃ d size, okxOptionalDecimal (item.get "pos") "pos" = .ok (some d) ∧
        ctx.fix |d.val| = .ok size ∧ 0 < size := by
  induction items with
  | nil => cases h
  | cons item rest ih =>
      have hmem : ∀ found ∈ rest, found ∈ item :: rest := fun _ => List.mem_cons_of_mem _
      unfold matchingOpenPosition at h
      split at h
      · exact (ih h).imp fun found hfound => ⟨hmem found hfound.1, hfound.2⟩
      · rename_i hinstrument
        obtain ⟨amount, hamount, h⟩ := bind_eq_ok.mp h
        rcases okxOptionalAbsDecimal_eq_ok.mp hamount with ⟨_, rfl⟩ | ⟨d, size, hd, hsize, rfl⟩
        · exact (ih h).imp fun found hfound => ⟨hmem found hfound.1, hfound.2⟩
        · dsimp only at h
          split at h
          · rename_i hpos
            obtain ⟨_, _, h⟩ := bind_eq_ok.mp h
            cases h
            refine ⟨item, List.mem_cons_self, ?_, not_not.mp hinstrument, d, size, hd, hsize, hpos⟩
            unfold Dict.get
            rw [Dict.get?_set_other _ _ (by decide)]
          · exact (ih h).imp fun found hfound => ⟨hmem found hfound.1, hfound.2⟩

/-! ### When a stop protects the request's position -/

/-- The position is on the side of the request. -/
def HasDirection (pos : ℚ) : Side → Prop
  | .long => 0 < pos
  | .short => pos < 0

/-- The whole lots of an amount, as they are counted at 28 digits. -/
def countedLots (lot amount : ℚ) : ℤ := ⌊rounded28 (rounded28 amount / lot)⌋

/-- The amount and its quotient by the lot have the lots they had before they were rounded, and
what these come to is not rounded. -/
def LotsCounted (lot amount : ℚ) : Prop :=
  countedLots lot amount = ⌊amount / lot⌋ ∧ rounded28 (floorTo lot amount) = floorTo lot amount

/-- The whole lots of an amount come out exactly: they are counted right, or there are so many that
they can be miscounted by what rounding takes away again. -/
def RoundsExactly (lot amount : ℚ) : Prop :=
  LotsCounted lot amount ∨
    (10 ^ 27 * lot < amount ∨ lot < 10 ^ (-999999 : ℤ)) ∧
      rounded28 (countedLots lot amount * lot) = floorTo lot amount

/-- The stop closes the position, in the request's direction, by all its whole lots. -/
structure ProtectsRequest (request : BrokerOrderRequest) (rules : OkxSwapInstrumentRules) (pos : ℚ)
    (stop : AlgoParams) : Prop where
  reduceOnly : stop.reduceOnly = "true"
  closesRequest : stop.side = triggerSide request.side
  closesPosition : stop.side = if 0 < pos then .sell else .buy
  size : wireNumber stop.sz = some (floorTo rules.lotSize.val |pos|)
  positive : 0 < floorTo rules.lotSize.val |pos|

/-- The position is one the request can have opened, and is worth a stop. -/
structure PositionOfRequest (request : BrokerOrderRequest) (rules : OkxSwapInstrumentRules)
    (pos : ℚ) : Prop where
  direction : HasDirection pos request.side
  oneLot : rules.lotSize.val ≤ |pos|
  exact : RoundsExactly rules.lotSize.val |pos|

omit [Runtime] in
/-- That is when the lots that are counted come to the amount rounded down. -/
theorem roundsExactly_iff {lot amount : ℚ} (hpos : 0 < floorTo lot amount) :
    RoundsExactly lot amount ↔
      rounded28 (countedLots lot amount * lot) = floorTo lot amount := by
  constructor
  · rintro (⟨hlots, hproduct⟩ | ⟨_, h⟩)
    · rw [hlots]
      exact hproduct
    · exact h
  · intro h
    by_cases hmany : 10 ^ 27 * lot < amount ∨ lot < 10 ^ (-999999 : ℤ)
    · exact Or.inr ⟨hmany, h⟩
    · obtain ⟨hfew, hlot⟩ := not_or.mp hmany
      refine Or.inl ((rounded_steps_eq_floorTo_iff ?_ (not_lt.mp hlot) hpos ?_).mp h)
      · norm_num
      · exact not_lt.mp hfew

omit [Runtime] in
/-- An amount that rounds to a positive one is not zero. -/
theorem ne_zero_of_fix_abs {q size : ℚ} (hsize : defaultContext.fix |q| = .ok size)
    (hpos : 0 < size) : q ≠ 0 := by
  intro hzero
  rw [hzero, abs_zero] at hsize
  rw [fix_eq_rounded hsize, rounded_zero] at hpos
  exact lt_irrefl 0 hpos

/-- **A stop protects the request's position exactly when** the position has the request's
direction and at least a lot, whose whole lots the context counts exactly. -/
theorem stop_protects_iff {d : Finite}
    (hstop : StopBuilt defaultContext request providerOrderId position rules expected stop)
    (hd : okxOptionalDecimal (position.get "pos") "pos" = .ok (some d)) :
    ProtectsRequest request rules d.val stop ↔ PositionOfRequest request rules d.val := by
  obtain ⟨d', size, rounded, hd', hsize, hpos, hrounded, hsz, hside⟩ := hstop.size
  rw [hd] at hd'
  cases hd'
  obtain ⟨hround, hheld⟩ := roundDownToStep_eq_ok hrounded
  have hlots : rounded = rounded28 (countedLots rules.lotSize.val |d.val| * rules.lotSize.val) := by
    rw [countedLots, rounded28_of_fix hsize]
    exact hround
  have hne : d.val ≠ 0 := ne_zero_of_fix_abs hsize hpos
  have hwire : wireNumber stop.sz = some rounded := by
    rw [decimalText_of_holds hheld] at hsz
    rw [← Except.ok.inj hsz, hround]
    exact wireNumber_plainText (isDecimal_rounded28 _)
  have hcloses : stop.side = if 0 < d.val then .sell else .buy := by
    rcases lt_or_gt_of_ne hne with hneg | hlong
    · rw [hside, if_pos hneg, if_neg (not_lt.mpr hneg.le)]
    · rw [hside, if_neg (not_lt.mpr hlong.le), if_pos hlong, if_pos hlong]
  constructor
  · intro h
    refine ⟨?_, (floorTo_pos_iff rules.lotSize.pos).mp h.positive,
      (roundsExactly_iff h.positive).mpr ?_⟩
    · have hcloses := h.closesPosition.symm.trans h.closesRequest
      cases hrequest : request.side with
      | long =>
          rw [hrequest] at hcloses
          by_cases hlong : 0 < d.val
          · exact hlong
          · rw [if_neg hlong] at hcloses
            cases hcloses
      | short =>
          rw [hrequest] at hcloses
          by_cases hlong : 0 < d.val
          · rw [if_pos hlong] at hcloses
            cases hcloses
          · exact lt_of_le_of_ne (not_lt.mp hlong) hne
    · have hsize := h.size
      rw [hwire] at hsize
      exact hlots.symm.trans (Option.some.inj hsize)
  · intro h
    have hpositive : 0 < floorTo rules.lotSize.val |d.val| :=
      (floorTo_pos_iff rules.lotSize.pos).mpr h.oneLot
    refine ⟨hstop.reduceOnly, ?_, ?_, ?_, hpositive⟩
    · rw [hcloses]
      have hdirection := h.direction
      cases hrequest : request.side with
      | long =>
          rw [hrequest] at hdirection
          exact if_pos hdirection
      | short =>
          rw [hrequest] at hdirection
          exact if_neg (not_lt.mpr hdirection.le)
    · exact hcloses
    · rw [hwire, hlots, (roundsExactly_iff hpositive).mp h.exact]

/-! ### The stops of a conversation -/

variable {params : OrderParams} {response : Dict} {t : OkxTranscript}
variable {answer : Except PyError Value}

/-- A stop that was placed was built from the position that was shown. -/
theorem ProtectionRun.stop_placed {out : Except PyError Dict}
    (h : ProtectionRun ctx request params response providerOrderId rules t out)
    (hplaced : (.placeAlgoOrder stop, answer) ∈ t) :
    ∃ expected position shown, expectedProtection params = some expected ∧
      (.getPositions "SWAP" rules.instId, shown) ∈ t ∧
      readPosition ctx rules shown = .ok (some position) ∧
      StopBuilt ctx request providerOrderId position rules expected stop := by
  have hpending {expected : AttachedTpSl} {t : OkxTranscript} {orderTypes : List String}
      {out : Except PyError (Option Dict)}
      (h : PendingRun rules expected providerOrderId orderTypes t out) :
      (.placeAlgoOrder stop, answer) ∉ t := by
    intro hmem
    obtain ⟨_, _, h⟩ := h.calls _ hmem
    cases h
  have hsearch {expected : AttachedTpSl} {t : OkxTranscript}
      (h : Unprotected rules expected providerOrderId response t) :
      (.placeAlgoOrder stop, answer) ∉ t := by
    intro hmem
    obtain ⟨_, h⟩ := h.calls _ hmem
    cases h
  cases h with
  | notRequired => cases hplaced
  | found _ _ h => exact absurd hplaced (hpending h)
  | unreadable _ _ h => exact absurd hplaced (hpending h)
  | unknownPosition _ h _ =>
      rcases List.mem_append.mp hplaced with hmem | hmem
      · exact absurd hmem (hsearch h)
      · cases List.mem_singleton.mp hmem
  | noPosition _ h _ _ =>
      rcases List.mem_append.mp hplaced with hmem | hmem
      · exact absurd hmem (hsearch h)
      · cases List.mem_singleton.mp hmem
  | openPosition hexpected h hposition hremediate =>
      rcases List.mem_append.mp hplaced with hmem | hmem
      · exact absurd hmem (hsearch h)
      · refine ⟨_, _, _, hexpected, List.mem_append_right _ List.mem_cons_self, hposition, ?_⟩
        rcases List.mem_cons.mp hmem with hpositions | hmem
        · cases hpositions
        · rcases run_remediatePosition hremediate with ⟨_, _, rfl, _⟩ |
            ⟨_, _, hbuilt, rfl, _⟩
          · cases hmem
          · cases List.mem_singleton.mp hmem
            exact stopBuilt_of_ok hbuilt

/-- The rules of the instrument, as the conversation gave them. -/
def RulesRead (request : BrokerOrderRequest) (t : OkxTranscript) (rules : OkxSwapInstrumentRules) :
    Prop :=
  ∃ reply, (.getInstruments "SWAP" (okxSwapInstrumentId request.symbol), .ok reply) ∈ t ∧
    readInstrumentRules (okxSwapInstrumentId request.symbol) reply = .ok rules

/-- The net position, as the conversation showed it. -/
def PositionShown (rules : OkxSwapInstrumentRules) (t : OkxTranscript) (pos : ℚ) : Prop :=
  ∃ shown position d, (.getPositions "SWAP" rules.instId, shown) ∈ t ∧
    readPosition defaultContext rules shown = .ok (some position) ∧
    okxOptionalDecimal (position.get "pos") "pos" = .ok (some d) ∧ d.val = pos

/-- A stop of a conversation, with the rules and the position it was built from. -/
theorem stop_placed_of_run {out : Except PyError BrokerAdapterResult}
    (hrun : Run (okxPlacementPrepareOrder ctx perform request) t out)
    (hplaced : (.placeAlgoOrder stop, answer) ∈ t) :
    ∃ rules providerOrderId expected position shown, RulesRead request t rules ∧
      (.getPositions "SWAP" rules.instId, shown) ∈ t ∧
      readPosition ctx rules shown = .ok (some position) ∧
      StopBuilt ctx request providerOrderId position rules expected stop := by
  have hprepare {t : OkxTranscript} {out : Except PyError Preparation}
      (h : Run (placementPreparation ctx perform request) t out) :
      (.placeAlgoOrder stop, answer) ∉ t := fun hmem => calls_of_preparation h _ hmem
  have henter {t : OkxTranscript} {params : OrderParams} {out : Except PyError EnteredOrder}
      (h : Run (enterOrder perform params) t out) : (.placeAlgoOrder stop, answer) ∉ t := by
    intro hmem
    rcases calls_of_entry h _ hmem with h | h <;> cases h
  cases placementRun_of_run hrun with
  | refused _ => cases hplaced
  | unprepared h => exact absurd hplaced (hprepare h)
  | notEntered h h' =>
      rcases List.mem_append.mp hplaced with hmem | hmem
      · exact absurd hmem (hprepare h)
      · exact absurd hmem (henter h')
  | entered h h' h'' =>
      obtain ⟨_, hprotection, _⟩ := run_safeVerifyOrRemediateProtection h''
      have hstop := (List.mem_append.mp hplaced).resolve_left (hprepare h)
      have hstop := (List.mem_append.mp hstop).resolve_left (henter h')
      obtain ⟨expected, position, shown, _, hshown, hposition, hbuilt⟩ :=
        hprotection.stop_placed hstop
      obtain ⟨t₁, t₂, t₃, rfl, hrules, _⟩ := run_placementPreparation_ok h
      obtain ⟨account, instruments, rfl, _, hread⟩ := run_accountAndRules_ok.mp hrules
      exact ⟨_, _, expected, position, shown, ⟨instruments, by simp, hread⟩,
        List.mem_append_right _ (List.mem_append_right _ hshown), hposition, hbuilt⟩

/-- **A remediation stop protects the request's position exactly when** that position has the
request's direction and at least a lot, whose whole lots the context counts exactly. -/
theorem remediation_protects_iff {out : Except PyError BrokerAdapterResult}
    (hrun : Run (okxPlacementPrepareOrder defaultContext perform request) t out)
    (hplaced : (.placeAlgoOrder stop, answer) ∈ t) :
    ∃ rules pos, RulesRead request t rules ∧ PositionShown rules t pos ∧
      (ProtectsRequest request rules pos stop ↔ PositionOfRequest request rules pos) := by
  obtain ⟨rules, _, _, position, shown, hrules, hshown, hposition, hbuilt⟩ :=
    stop_placed_of_run hrun hplaced
  obtain ⟨d, _, _, hd, _⟩ := hbuilt.size
  exact ⟨rules, d.val, hrules, ⟨shown, position, d, hshown, hposition, hd, rfl⟩,
    stop_protects_iff hbuilt hd⟩

/-- The stop a call places. -/
def stop? : OkxCall → Option AlgoParams
  | .placeAlgoOrder stop => some stop
  | _ => none

/-- The stops a conversation placed. -/
def placedStops (t : OkxTranscript) : List AlgoParams := t.filterMap fun x => stop? x.1

omit [Runtime] in
theorem exists_placed {t : OkxTranscript} {check : AlgoParams → Bool}
    (h : (placedStops t).any check = true) :
    ∃ stop answer, (.placeAlgoOrder stop, answer) ∈ t ∧ check stop = true := by
  obtain ⟨stop, hmem, hcheck⟩ := List.any_eq_true.mp h
  obtain ⟨⟨call, answer⟩, hmem, hstop⟩ := List.mem_filterMap.mp hmem
  unfold stop? at hstop
  split at hstop
  · rename_i stop' hcall
    cases hstop
    dsimp only at hcall
    subst hcall
    exact ⟨stop, answer, hmem, hcheck⟩
  · cases hstop

/-! ### The stop on a retry -/

omit [Runtime] in
/-- An attached id keeps its prefix when it is stripped. -/
theorem prefix_attachedId (suffix : String) {c d : Char} (hsuffix : suffix.toList = [c, d])
    (hd : isSpace d = false) (clientOrderId : String) :
    ['y', 't', 'm', c, d] <+:
      (strip (okxAttachedAlgoClientOrderId clientOrderId suffix)).toList := by
  unfold strip okxAttachedAlgoClientOrderId
  rw [String.toList_ofList, String.toList_append, String.toList_append, hsuffix]
  exact @prefix_stripChars _ _ ['t', 'm', c] _ rfl hd

omit [Runtime] in
/-- The id of a remediation stop is not the attached one. -/
theorem stopId_ne_attachedId (a b : String) :
    nonBlank (okxAttachedAlgoClientOrderId a "sr") ≠
      nonBlank (okxAttachedAlgoClientOrderId b "ps") := by
  have hblank {s : String} {front : List Char} (h : front <+: (strip s).toList) (hne : front ≠ []) :
      nonBlank s = some (strip s) := by
    unfold nonBlank
    rw [if_neg]
    intro hempty
    rw [hempty] at h
    exact hne (List.prefix_nil.mp h)
  have hstop := prefix_attachedId "sr" rfl (by decide) a
  have hattached := prefix_attachedId "ps" rfl (by decide) b
  rw [hblank hstop (by simp), hblank hattached (by simp)]
  intro h
  rw [Option.some.inj h] at hstop
  have := (List.prefix_of_prefix_length_le hstop hattached (by simp)).eq_of_length (by simp)
  cases this

omit [Runtime] in
/-- The attached id, as the protection of a built order is expected under. -/
theorem expected_attachedId (hbuilt : orderAttachment ctx request rules = .ok params.attachAlgoOrds)
    (hexpected : expectedProtection params = some expected) :
    nonBlank (okxAttachedAlgoClientOrderId request.clientOrderId "ps") =
      some expected.attachAlgoClOrdId := by
  unfold expectedProtection at hexpected
  cases hattached : params.attachAlgoOrds with
  | none => rw [hattached] at hexpected; cases hexpected
  | some attached =>
      rw [hattached] at hexpected hbuilt
      dsimp only at hexpected
      split at hexpected
      · rename_i hid
        rw [(orderAttachment_built hbuilt).attachAlgoClOrdId] at hid
        rw [hid, ← Option.some.inj hexpected]
      · cases hexpected

/-- The keys a stop is placed with. -/
def AlgoParams.toDict (params : AlgoParams) : Dict :=
  [("algoClOrdId", params.algoClOrdId), ("instId", params.instId), ("ordType", params.ordType),
    ("posSide", params.posSide), ("reduceOnly", params.reduceOnly), ("side", params.side.text),
    ("slOrdPx", params.slOrdPx), ("slTriggerPx", params.slTriggerPx),
    ("slTriggerPxType", params.slTriggerPxType), ("sz", params.sz), ("tdMode", params.tdMode)]

/-- What an algo order is known by and what it does. -/
def algoOrderFields : List String :=
  ["algoClOrdId", "instId", "ordId", "ordType", "posSide", "side", "slOrdPx", "slTriggerPx", "sz",
    "tdMode", "tpOrdPx", "tpTriggerPx"]

/-- A live algo order with the fields the stop was placed with. -/
structure ListedAs (stop : AlgoParams) (item : Dict) : Prop where
  state : okxOptionalText (item.get "state") = some "live"
  fields : ∀ field ∈ algoOrderFields,
    okxOptionalText (item.get field) = okxOptionalText (stop.toDict.get field)

/-- The instruments and the amounts an answer shows. -/
def shownAmounts (answer : Except PyError Value) : Except PyError (List (String × String)) := do
  let items ← answer >>= fun reply => okxResponseData reply "get_positions"
  return items.map fun item => ((item.get "instId").toText, (item.get "pos").toText)

/-- OKX still has what the first conversation left behind: the entry order under its id, the
stop and no other algo order, and the same position. -/
structure StateKept (stop : AlgoParams) (providerOrderId : String) (t t' : OkxTranscript) :
    Prop where
  order : ∀ instId clOrdId answer, (.getOrder instId clOrdId, answer) ∈ t' →
    ∃ response, readLookup answer = .ok (some response) ∧
      okxOptionalText (response.get "ordId") = some providerOrderId
  algos : ∀ instType instId orderType answer,
    (.orderAlgosPending instType instId orderType, answer) ∈ t' →
    ∃ items, readPending orderType answer = .ok items ∧ (∀ item ∈ items, ListedAs stop item) ∧
      (items ≠ [] ↔ orderType = stop.ordType)
  position : ∀ instType instId answer answer', (.getPositions instType instId, answer) ∈ t →
    (.getPositions instType instId, answer') ∈ t' → shownAmounts answer' = shownAmounts answer

/-- A retry that leaves it at the stop there is, and says that the position is protected. -/
def Recognises (t : OkxTranscript) (out : Except PyError BrokerAdapterResult) : Prop :=
  placedStops t = [] ∧
    (EndsWithProtection out "protected" ∨ EndsWithProtection out "protected_remediated")

/-- A listed stop is not taken for the protection. -/
theorem not_matches_of_listedAs {oid : String} {item : Dict}
    (hstop : stop.algoClOrdId = okxAttachedAlgoClientOrderId (request.clientOrderId ++ ":" ++ oid) "sr")
    (hexpected : nonBlank (okxAttachedAlgoClientOrderId request.clientOrderId "ps") =
      some expected.attachAlgoClOrdId)
    (h : ListedAs stop item) : matchesProtection expected providerOrderId item = false := by
  have hid := h.fields "algoClOrdId" (by decide)
  have hord := h.fields "ordId" (by decide)
  have hid' : okxOptionalText (stop.toDict.get "algoClOrdId") = nonBlank stop.algoClOrdId := rfl
  have hord' : okxOptionalText (stop.toDict.get "ordId") = none := rfl
  rw [hid', hstop] at hid
  rw [hord'] at hord
  unfold matchesProtection
  rw [decide_eq_false_iff_not]
  rintro ⟨_, _, _, _, h | h⟩
  · rw [hid, ← hexpected] at h
    exact stopId_ne_attachedId _ _ h
  · rw [hord] at h
    cases h

/-- A retry after a stop was placed and accepted. -/
structure RetryAfterRemediation (ctx : Context) (request : BrokerOrderRequest) (stop : AlgoParams)
    (providerOrderId : String) (t t' : OkxTranscript)
    (out out' : Except PyError BrokerAdapterResult) : Prop where
  first : Run (okxPlacementPrepareOrder ctx perform request) t out
  placed : ∃ answer, (.placeAlgoOrder stop, answer) ∈ t
  remediated : EndsWithProtection out "protected_remediated"
  entered : ∃ result, out = .ok result ∧
    (result.payload.get "providerOrderId").isText providerOrderId = true
  second : Run (okxPlacementPrepareOrder ctx perform request) t' out'
  kept : StateKept stop providerOrderId t t'

/-- **No retry recognises the stop the first run placed.** -/
theorem remediation_not_recognised {t' : OkxTranscript}
    {out out' : Except PyError BrokerAdapterResult}
    (h : RetryAfterRemediation ctx request stop providerOrderId t t' out out') :
    ¬Recognises t' out' := by
  rintro ⟨hnone, hstatus⟩
  obtain ⟨answer, hplaced⟩ := h.placed
  obtain ⟨_, _, _, _, _, _, _, _, hstop⟩ := stop_placed_of_run h.first hplaced
  cases placementRun_of_run h.second with
  | refused _ => rcases hstatus with ⟨_, h, _⟩ | ⟨_, h, _⟩ <;> cases h
  | unprepared _ => rcases hstatus with ⟨_, h, _⟩ | ⟨_, h, _⟩ <;> cases h
  | notEntered _ _ => rcases hstatus with ⟨_, h, _⟩ | ⟨_, h, _⟩ <;> cases h
  | entered hprepared hentered hverified =>
      rename_i preparation order protection
      rw [endsWithProtection_entered, endsWithProtection_entered] at hstatus
      obtain ⟨report, rfl, hreport⟩ : ∃ report : Dict, protection = .ok report ∧
          ((report.get "status").isText "protected" = true ∨
            (report.get "status").isText "protected_remediated" = true) := by
        rcases hstatus with ⟨report, hok, h⟩ | ⟨report, hok, h⟩
        · exact ⟨report, hok, Or.inl h⟩
        · exact ⟨report, hok, Or.inr h⟩
      rcases status_of_run hverified with ⟨_, expected, item, hexpected, _, hpending⟩ |
        ⟨_, second, answer, hmem⟩ | ⟨status, hstatus, hmem⟩
      · -- An algo order that is listed is the stop, and the stop is not recognised.
        obtain ⟨_, _, _, _, _, _, hparams, _⟩ := run_placementPreparation_ok hprepared
        have hattached := expected_attachedId (okxSwapOrderParams_built hparams).attachment hexpected
        obtain ⟨orderType, answer, items, hmem, hread, hitem, hmatch⟩ := hpending.found_mem
        obtain ⟨listed, hlisted, hall, _⟩ := h.kept.algos _ _ _ _
          (List.mem_append_right _ (List.mem_append_right _ hmem))
        rw [hread] at hlisted
        cases hlisted
        rw [not_matches_of_listedAs hstop.algoClOrdId hattached (hall item hitem)] at hmatch
        cases hmatch
      · -- A second stop was placed.
        have hplaced := List.mem_filterMap.not.mp (hnone ▸ List.not_mem_nil (a := second))
        exact hplaced ⟨_, List.mem_append_right _ (List.mem_append_right _ hmem), rfl⟩
      · rw [hstatus] at hreport
        simp only [Value.isText, decide_eq_true_eq] at hreport
        rcases hreport with rfl | rfl <;> simp at hmem

end Stop

/-! ### A stop on the wrong side -/

namespace Sample

/-- A reply of OKX that lists nothing. -/
def emptyReply : Except PyError Value := .ok (.dict [("code", "0"), ("data", .list [])])

def orderReply : Except PyError Value := reply [("ordId", "1"), ("sCode", "0")]

def positionReply (pos : String) : Except PyError Value :=
  reply [("instId", "BTC-USDT-SWAP"), ("pos", pos)]

def algoReply : Except PyError Value := reply [("algoId", "2"), ("sCode", "0")]

/-- The order is placed, no algo order is pending, and a position is open. -/
def unprotectedAnswers (pos : String) : List (Except PyError Value) :=
  [accountReply, instrumentReply, noOrderReply, orderReply, emptyReply, emptyReply, emptyReply,
    emptyReply, positionReply pos, algoReply]

end Sample

theorem remediation_protects_iff_sample :
    ∃ t out stop answer,
      Run (@okxPlacementPrepareOrder Sample.runtime defaultContext _ perform Sample.longEntry) t out ∧
      (.placeAlgoOrder stop, answer) ∈ t ∧
      ∃ rules pos, @RulesRead Sample.runtime Sample.longEntry t rules ∧
        @PositionShown Sample.runtime rules t pos ∧
        (@ProtectsRequest Sample.runtime Sample.longEntry rules pos stop ↔
          PositionOfRequest Sample.longEntry rules pos) := by
  obtain ⟨t, out, hrun, hcheck⟩ := exists_run (Sample.unprotectedAnswers "3")
    (@okxPlacementPrepareOrder Sample.runtime defaultContext _ perform Sample.longEntry)
    (fun t _ => (placedStops t).any fun _ => true) (by decide +kernel)
  obtain ⟨stop, answer, hplaced, _⟩ := exists_placed hcheck
  exact ⟨t, out, stop, answer, hrun, hplaced,
    @remediation_protects_iff Sample.runtime _ _ _ _ _ hrun hplaced⟩

/-- A short position is closed at the trigger price of a long request. -/
theorem remediation_closes_other_side :
    ∃ t out stop answer,
      Run (@okxPlacementPrepareOrder Sample.runtime defaultContext _ perform Sample.longEntry) t out ∧
      (.placeAlgoOrder stop, answer) ∈ t ∧
      ∀ rules pos, ¬@ProtectsRequest Sample.runtime Sample.longEntry rules pos stop := by
  obtain ⟨t, out, hrun, hcheck⟩ := exists_run (Sample.unprotectedAnswers "-3")
    (@okxPlacementPrepareOrder Sample.runtime defaultContext _ perform Sample.longEntry)
    (fun t _ => (placedStops t).any fun stop => stop.side = .buy) (by decide +kernel)
  obtain ⟨stop, answer, hplaced, hside⟩ := exists_placed hcheck
  refine ⟨t, out, stop, answer, hrun, hplaced, ?_⟩
  intro rules pos h
  have hsell : stop.side = .sell := @ProtectsRequest.closesRequest Sample.runtime _ _ _ _ h
  rw [of_decide_eq_true hside] at hsell
  cases hsell

/-! ### A second stop -/

namespace Sample

/-- The stop of the sample, as OKX lists it. -/
def listedStop : Dict :=
  [("algoClOrdId", okxAttachedAlgoClientOrderId "order-1:1" "sr"), ("algoId", "2"),
    ("instId", "BTC-USDT-SWAP"), ("ordId", ""), ("ordType", "conditional"), ("posSide", "net"),
    ("side", "sell"), ("slOrdPx", "-1"), ("slTriggerPx", "95"), ("state", "live"), ("sz", "3"),
    ("tdMode", "cross"), ("tpOrdPx", ""), ("tpTriggerPx", "")]

/-- The order is found, the stop is listed, and the position is open. -/
def retryAnswers : List (Except PyError Value) :=
  [accountReply, instrumentReply, orderReply, reply listedStop, emptyReply, emptyReply, emptyReply,
    positionReply "3", algoReply]

/-- The fields of the listed stop. -/
def isListedStop (item : Dict) : Bool :=
  algoOrderFields.all fun field =>
    decide (okxOptionalText (item.get field) = okxOptionalText (listedStop.get field))

/-- An answer about positions shows three contracts. -/
def showsPosition (x : OkxCall × Except PyError Value) : Bool :=
  match x.1 with
  | .getPositions _ _ => decide (@shownAmounts runtime x.2 = .ok [("BTC-USDT-SWAP", "3")])
  | _ => true

/-- The answer is one of the state the first conversation left. -/
def isKept (x : OkxCall × Except PyError Value) : Bool :=
  match x.1 with
  | .getOrder _ _ =>
      match @readLookup runtime x.2 with
      | .ok (some response) => decide (okxOptionalText (response.get "ordId") = some "1")
      | _ => false
  | .orderAlgosPending _ _ orderType =>
      match @readPending runtime orderType x.2 with
      | .ok items => (items.all fun item => isListedStop item &&
          decide (okxOptionalText (item.get "state") = some "live")) &&
          decide (items = [] ↔ orderType ≠ "conditional")
      | .error _ => false
  | _ => showsPosition x

theorem listedAs_of_isListedStop {stop : AlgoParams} {item : Dict}
    (hstop : isListedStop stop.toDict = true) (hitem : isListedStop item = true)
    (hstate : okxOptionalText (item.get "state") = some "live") : ListedAs stop item := by
  refine ⟨hstate, fun field hfield => ?_⟩
  rw [of_decide_eq_true (List.all_eq_true.mp hitem field hfield),
    of_decide_eq_true (List.all_eq_true.mp hstop field hfield)]

theorem stateKept_of_isKept {stop : AlgoParams} {t t' : OkxTranscript}
    (hstop : isListedStop stop.toDict = true) (htype : stop.ordType = "conditional")
    (h : t.all showsPosition = true) (h' : t'.all isKept = true) :
    @StateKept runtime stop "1" t t' := by
  let _ : Runtime := runtime
  refine ⟨?_, ?_, ?_⟩
  · intro instId clOrdId answer hmem
    have hanswer := List.all_eq_true.mp h' _ hmem
    dsimp only [isKept] at hanswer
    split at hanswer
    · rename_i response hresponse
      exact ⟨response, hresponse, of_decide_eq_true hanswer⟩
    · cases hanswer
  · intro instType instId orderType answer hmem
    have hanswer := List.all_eq_true.mp h' _ hmem
    dsimp only [isKept] at hanswer
    split at hanswer
    · rename_i items hitems
      rw [Bool.and_eq_true, List.all_eq_true, decide_eq_true_eq] at hanswer
      refine ⟨items, hitems, fun item hitem => ?_, ?_⟩
      · have hfields := hanswer.1 item hitem
        rw [Bool.and_eq_true, decide_eq_true_eq] at hfields
        exact listedAs_of_isListedStop hstop hfields.1 hfields.2
      · rw [htype, ne_eq, hanswer.2, not_not]
    · cases hanswer
  · intro instType instId answer answer' hmem hmem'
    have hanswer := List.all_eq_true.mp h _ hmem
    have hanswer' := List.all_eq_true.mp h' _ hmem'
    dsimp only [isKept, showsPosition] at hanswer hanswer'
    rw [of_decide_eq_true hanswer, of_decide_eq_true hanswer']

/-- The outcome has this entry in its payload. -/
def endsWith (out : Except PyError BrokerAdapterResult) (key text : String) : Bool :=
  out.toOption.any fun result => (result.payload.get key).isText text

theorem endsWith_eq_true {out : Except PyError BrokerAdapterResult} {key text : String}
    (h : endsWith out key text = true) :
    ∃ result, out = .ok result ∧ (result.payload.get key).isText text = true := by
  cases out with
  | ok result => exact ⟨result, rfl, h⟩
  | error e => cases h

/-- An order whose missing stop was placed, and a retry of it. -/
theorem retry : ∃ stop t t' out out',
    @RetryAfterRemediation runtime defaultContext longEntry stop "1" t t' out out' ∧
      placedStops t' ≠ [] := by
  obtain ⟨t, out, hrun, hcheck⟩ := exists_run (unprotectedAnswers "3")
    (@okxPlacementPrepareOrder runtime defaultContext _ perform longEntry)
    (fun t out => (placedStops t).any (fun stop => isListedStop stop.toDict &&
        decide (stop.ordType = "conditional")) && t.all showsPosition &&
      endsWith out "protectionStatus" "protected_remediated" && endsWith out "providerOrderId" "1")
    (by decide +kernel)
  obtain ⟨t', out', hrun', hcheck'⟩ := exists_run retryAnswers
    (@okxPlacementPrepareOrder runtime defaultContext _ perform longEntry)
    (fun t _ => t.all isKept && decide ((placedStops t).length = 1)) (by decide +kernel)
  simp only [Bool.and_eq_true] at hcheck hcheck'
  obtain ⟨⟨⟨hplaced, hkept⟩, hstatus⟩, horder⟩ := hcheck
  obtain ⟨stop, answer, hmem, hstop⟩ := exists_placed hplaced
  rw [Bool.and_eq_true, decide_eq_true_eq] at hstop
  refine ⟨stop, t, t', out, out', ?_, ?_⟩
  · exact @RetryAfterRemediation.mk runtime _ _ _ _ _ _ _ _ hrun ⟨answer, hmem⟩
      (endsWith_eq_true hstatus) (endsWith_eq_true horder) hrun'
      (stateKept_of_isKept hstop.1 hstop.2 hkept hcheck'.1)
  · intro hnone
    rw [hnone] at hcheck'
    exact absurd hcheck'.2 (by decide)

end Sample

theorem remediation_not_recognised_sample : ∃ stop t t' out out',
    @RetryAfterRemediation Sample.runtime defaultContext Sample.longEntry stop "1" t t' out out' ∧
      ¬Recognises t' out' := by
  obtain ⟨stop, t, t', out, out', h, _⟩ := Sample.retry
  exact ⟨stop, t, t', out, out', h, @remediation_not_recognised Sample.runtime _ _ _ _ _ _ _ _ h⟩

/-- The retry of an order whose stop is live places a second one. -/
theorem second_stop_placed : ∃ stop t t' out out',
    @RetryAfterRemediation Sample.runtime defaultContext Sample.longEntry stop "1" t t' out out' ∧
      placedStops t' ≠ [] ∧ ¬Recognises t' out' := by
  obtain ⟨stop, t, t', out, out', h, hsecond⟩ := Sample.retry
  exact ⟨stop, t, t', out, out', h, hsecond, fun hrecognised => hsecond hrecognised.1⟩

end YtmExecutor
