/-
Whether the protection of an entry is recognised among the pending algo orders.

The executor knows its protection by an id or by the order it belongs to, and by the
prices.  These it compares as texts.  A price is a number, though, and OKX may write it
otherwise than the executor did: `95.0`, or without quotes.  Then the protection is
listed and is not found, and a second stop is placed.

`recognised_iff` says for every conversation in which the pending orders were listed when
the protection is recognised if and only if it is there.
-/
import YtmExecutor.OkxSwap.Remediation

namespace YtmExecutor

open Python Decimal Interaction Prog

section Recognition

variable [Runtime] {request : BrokerOrderRequest} {t : OkxTranscript}
variable {rules : OkxSwapInstrumentRules} {expected : AttachedTpSl} {providerOrderId : String}
variable {item : Dict}

/-! ### Prices as numbers -/

/-- The field reads as this number. -/
def ReadsAs (v : Value) (price : ℚ) : Prop :=
  ∃ d, okxOptionalDecimal v "price" = .ok (some d) ∧ d.val = price

/-- The field is the same number as the text, in whatever spelling. -/
def SamePrice (v : Value) (text : String) : Prop :=
  ∃ price, ReadsAs v price ∧ ReadsAs (.str text) price

theorem readsAs_str {s : String} {price : ℚ} (hs : s ≠ "") :
    ReadsAs (.str s) price ↔ ∃ d : Finite, decimalOfText s = .ok (.finite d) ∧ d.val = price := by
  have hempty : (Value.str s).isNoneOrEmpty = false := decide_eq_false hs
  unfold ReadsAs okxOptionalDecimal Value.toFinite Value.toText
  rw [hempty]
  refine exists_congr fun d => and_congr_left fun _ => ?_
  dsimp only
  rcases decimalOfText s with e | (d' | negative | signaling)
  · exact iff_of_false (fun h => by cases h) fun h => by cases h
  · exact ⟨fun h => by cases h; rfl, fun h => by cases h; rfl⟩
  · exact iff_of_false (fun h => by cases h) fun h => by cases h
  · exact iff_of_false (fun h => by cases h) fun h => by cases h

omit [Runtime] in
theorem nonBlank_eq_some {s text : String} (h : nonBlank s = some text) :
    strip s = text ∧ text ≠ "" ∧ s ≠ "" := by
  unfold nonBlank at h
  split at h
  · cases h
  · rename_i hblank
    cases h
    exact ⟨rfl, hblank, fun hs => hblank (by rw [hs]; rfl)⟩

/-- Blanks around a number do not count. -/
theorem readsAs_of_nonBlank {s text : String} {price : ℚ} (h : nonBlank s = some text) :
    ReadsAs (.str s) price ↔ ReadsAs (.str text) price := by
  obtain ⟨rfl, htext, hs⟩ := nonBlank_eq_some h
  have hstrip : decimalOfText (strip s) = decimalOfText s := by
    unfold decimalOfText strip
    rw [String.toList_ofList, stripChars_stripChars]
  rw [readsAs_str hs, readsAs_str htext, hstrip]

/-- A price that was written can be read. -/
theorem readsAs_decimalText {q : ℚ} {text : String} (hq : IsDecimal q)
    (h : decimalText defaultContext q = .ok text) : ∃ price, ReadsAs (.str text) price := by
  unfold decimalText at h
  cases hfix : defaultContext.fix q with
  | error e =>
      rw [hfix] at h
      cases h
  | ok r =>
      rw [hfix] at h
      cases h
      have hread := decimalOfText_of_holds (d := ⟨r, defaultContext.fix_isDecimal hq hfix⟩)
        (fix_fix (by decide) hfix)
      refine ⟨r, (readsAs_str fun hempty => ?_).mpr ⟨_, hread, rfl⟩⟩
      rw [hempty] at hread
      cases hread

/-! ### The protection that is expected -/

/-- The prices of the expected protection are numbers. -/
structure NumericPrices (expected : AttachedTpSl) : Prop where
  slTriggerPx : ∃ price, ReadsAs (.str expected.slTriggerPx) price
  slOrdPx : ∃ price, ReadsAs (.str expected.slOrdPx) price
  takeProfit : ∀ tp, expected.takeProfit = some tp →
    (∃ price, ReadsAs (.str tp.tpTriggerPx) price) ∧ ∃ price, ReadsAs (.str tp.tpOrdPx) price

/-- The algo order is active, belongs to the entry, and has the prices of its protection. -/
structure IsProtection (expected : AttachedTpSl) (providerOrderId : String) (item : Dict) :
    Prop where
  state : lower ((okxOptionalText (item.get "state")).getD "") ∈
    ["", "live", "effective", "partially_effective"]
  linked : okxOptionalText (item.get "algoClOrdId") = some expected.attachAlgoClOrdId ∨
    okxOptionalText (item.get "ordId") = some providerOrderId
  slTriggerPx : SamePrice (item.get "slTriggerPx") expected.slTriggerPx
  slOrdPx : SamePrice (item.get "slOrdPx") expected.slOrdPx
  takeProfit : ∀ tp, expected.takeProfit = some tp →
    SamePrice (item.get "tpTriggerPx") tp.tpTriggerPx ∧ SamePrice (item.get "tpOrdPx") tp.tpOrdPx

/-- Its prices are spelled as the executor wrote them. -/
structure SpelledAs (expected : AttachedTpSl) (item : Dict) : Prop where
  slTriggerPx : okxOptionalText (item.get "slTriggerPx") = some expected.slTriggerPx
  slOrdPx : okxOptionalText (item.get "slOrdPx") = some expected.slOrdPx
  takeProfit : matchesTakeProfit item expected.takeProfit = true

theorem samePrice_of_text {v : Value} {text : String} (h : okxOptionalText v = some text)
    (hnumeric : ∃ price, ReadsAs (.str text) price) : SamePrice v text := by
  obtain ⟨price, hprice⟩ := hnumeric
  refine ⟨price, ?_, hprice⟩
  cases v with
  | str s => exact (readsAs_of_nonBlank h).mpr hprice
  | none | bool | int | float | list | tuple | dict => cases h

/-- What the executor looks for is the protection in its own spelling. -/
theorem matchesProtection_iff (hnumeric : NumericPrices expected) :
    matchesProtection expected providerOrderId item = true ↔
      IsProtection expected providerOrderId item ∧ SpelledAs expected item := by
  have hstate (state : String) : (state = "" ∨
      state ∈ ["live", "effective", "partially_effective"]) ↔
        state ∈ ["", "live", "effective", "partially_effective"] := List.mem_cons.symm
  unfold matchesProtection
  rw [decide_eq_true_eq, hstate]
  constructor
  · rintro ⟨hactive, htrigger, horder, htp, hlinked⟩
    refine ⟨⟨hactive, hlinked, samePrice_of_text htrigger hnumeric.slTriggerPx,
      samePrice_of_text horder hnumeric.slOrdPx, fun tp hsome => ?_⟩, htrigger, horder, htp⟩
    rw [hsome, matchesTakeProfit, decide_eq_true_eq] at htp
    exact ⟨samePrice_of_text htp.1 (hnumeric.takeProfit tp hsome).1,
      samePrice_of_text htp.2 (hnumeric.takeProfit tp hsome).2⟩
  · rintro ⟨h, hspelled⟩
    exact ⟨h.state, hspelled.slTriggerPx, hspelled.slOrdPx, hspelled.takeProfit, h.linked⟩

omit [Runtime] in
theorem contextMul_isDecimal {a b r : ℚ} (ha : IsDecimal a) (hb : IsDecimal b)
    (h : contextMul defaultContext a b = .ok r) : IsDecimal r := by
  unfold contextMul Context.mul at h
  cases hfix : defaultContext.fix (a * b) with
  | error e =>
      rw [hfix] at h
      cases h
  | ok product =>
      rw [hfix] at h
      cases h
      exact defaultContext.fix_isDecimal (ha.mul hb) hfix

omit [Runtime] in
theorem roundToTick_isDecimal {value tick rounded : ℚ} {side : OkxSide} (htick : IsDecimal tick)
    (h : roundToTick defaultContext value tick side = .ok rounded) : IsDecimal rounded := by
  obtain ⟨ticks, _, hmul⟩ := bind_eq_ok.mp h
  refine contextMul_isDecimal ?_ htick hmul
  cases side
  · exact isDecimal_intCast _
  · exact isDecimal_intCast _

omit [Runtime] in
/-- What is known of an attached take-profit that was built. -/
theorem attachedTakeProfit_built {tp : AttachedTakeProfit}
    (h : okxAttachedTakeProfit defaultContext request rules = .ok (some tp)) :
    ∃ price target, normalizedTakeProfitTriggerPrice defaultContext price request rules = .ok target ∧
      decimalText defaultContext target = .ok tp.tpTriggerPx ∧ tp.tpOrdPx = "-1" := by
  unfold okxAttachedTakeProfit at h
  split at h
  · cases h
  · rename_i target _ _
    obtain ⟨trigger, htrigger, h⟩ := bind_eq_ok.mp h
    obtain ⟨_, _, h⟩ := bind_eq_ok.mp h
    obtain ⟨_, htext, h⟩ := bind_eq_ok.mp h
    cases h
    exact ⟨target.val, trigger, htrigger, htext, rfl⟩

/-- The protection a built order is sent with has numbers for prices. -/
theorem numericPrices_of_built {params : OrderParams}
    (hbuilt : orderAttachment defaultContext request rules = .ok params.attachAlgoOrds)
    (hexpected : expectedProtection params = some expected) : NumericPrices expected := by
  have hread {s text : String} (h : nonBlank s = some text)
      (hs : ∃ price, ReadsAs (.str s) price) : ∃ price, ReadsAs (.str text) price :=
    hs.imp fun _ hprice => (readsAs_of_nonBlank h).mp hprice
  have hclose : ∃ price, ReadsAs (.str "-1") price :=
    readsAs_decimalText (isDecimal_intCast (-1)) (by decide +kernel)
  unfold expectedProtection at hexpected
  cases hattached : params.attachAlgoOrds with
  | none =>
      rw [hattached] at hexpected
      cases hexpected
  | some attached =>
      rw [hattached] at hexpected hbuilt
      have h := orderAttachment_built hbuilt
      dsimp only at hexpected
      split at hexpected
      · rename_i trigger order id htrigger horder _
        cases hexpected
        obtain ⟨stopLoss, price, _, hprice, htext⟩ := h.slTriggerPx
        have hdecimal : IsDecimal price := roundToTick_isDecimal rules.tickSize.isDecimal hprice
        refine ⟨hread htrigger (readsAs_decimalText hdecimal htext), ?_, ?_⟩
        · exact hread horder (by rw [h.slOrdPx]; exact hclose)
        · intro tp htp
          have htakeProfit := h.takeProfit
          cases hfound : attached.takeProfit with
          | none =>
              rw [hfound] at htp
              cases htp
          | some takeProfit =>
              rw [hfound] at htp htakeProfit
              obtain ⟨_, target, htarget, htext, horder⟩ := attachedTakeProfit_built htakeProfit
              unfold expectedTakeProfit at htp
              dsimp only at htp
              split at htp
              · rename_i hTrigger hOrder
                cases htp
                have hdecimal : IsDecimal target :=
                  roundToTick_isDecimal rules.tickSize.isDecimal htarget
                exact ⟨hread hTrigger (readsAs_decimalText hdecimal htext),
                  hread hOrder (by rw [horder]; exact hclose)⟩
              · cases htp
      · cases hexpected

/-! ### The conversation -/

/-- The conversation begins with an order that is entered under this id, and whose protection
OKX did not refuse. -/
def EntryAccepted (request : BrokerOrderRequest) (t : OkxTranscript) (expected : AttachedTpSl)
    (providerOrderId : String) : Prop :=
  ∃ t₁ t₂ t₃ preparation order, t = t₁ ++ (t₂ ++ t₃) ∧
    Run (placementPreparation defaultContext perform request) t₁ (.ok preparation) ∧
    Run (enterOrder perform preparation.params) t₂ (.ok order) ∧
    order.providerOrderId = providerOrderId ∧
    expectedProtection preparation.params = some expected ∧
    ¬AttachmentRejected order.response expected

/-- Every query for pending algo orders is answered with this list. -/
def ListsPending (t : OkxTranscript) (pending : String → List Dict) : Prop :=
  ∀ instId orderType answer, (.orderAlgosPending "SWAP" instId orderType, answer) ∈ t →
    readPending orderType answer = .ok (pending orderType)

/-- An algo order of one of the types that are asked for is such. -/
def Listed (pending : String → List Dict) (p : Dict → Prop) : Prop :=
  ∃ orderType ∈ okxAlgoOrderTypes, ∃ item ∈ pending orderType, p item

/-- The protection is reported exactly when it is listed, and then no stop is placed. -/
structure ReportsProtection (t : OkxTranscript) (out : Except PyError BrokerAdapterResult)
    (pending : String → List Dict) (expected : AttachedTpSl) (providerOrderId : String) :
    Prop where
  status : EndsWithProtection out "protected" ↔
    Listed pending (IsProtection expected providerOrderId)
  noStop : Listed pending (IsProtection expected providerOrderId) → placedStops t = []

/-- The search comes to the first algo order that matches. -/
theorem PendingRun.eq_find {orderTypes : List String} {pending : String → List Dict}
    {out : Except PyError (Option Dict)}
    (h : PendingRun rules expected providerOrderId orderTypes t out) (hlists : ListsPending t pending) :
    out = .ok ((orderTypes.flatMap pending).find? (matchesProtection expected providerOrderId)) := by
  induction h with
  | exhausted => rfl
  | unreadable h =>
      rw [hlists _ _ _ List.mem_cons_self] at h
      cases h
  | found h hfound =>
      rw [hlists _ _ _ List.mem_cons_self] at h
      cases h
      rw [List.flatMap_cons, List.find?_append]
      unfold matchingPendingProtection at hfound
      rw [hfound]
      rfl
  | next h hnone _ ih =>
      rw [hlists _ _ _ List.mem_cons_self] at h
      cases h
      unfold matchingPendingProtection at hnone
      rw [List.flatMap_cons, List.find?_append, hnone, Option.none_or]
      exact ih fun instId orderType answer hmem =>
        hlists instId orderType answer (List.mem_cons_of_mem _ hmem)

omit [Runtime] in
theorem listed_iff {pending : String → List Dict} {p : Dict → Bool} :
    Listed pending (p · = true) ↔ ∃ item, (okxAlgoOrderTypes.flatMap pending).find? p = some item := by
  rw [← Option.isSome_iff_exists, List.find?_isSome]
  unfold Listed
  simp only [List.mem_flatMap]
  exact ⟨fun ⟨ty, hty, item, hitem, h⟩ => ⟨item, ⟨ty, hty, hitem⟩, h⟩,
    fun ⟨item, ⟨ty, hty, hitem⟩, h⟩ => ⟨ty, hty, item, hitem, h⟩⟩

/-- The verification finds the protection exactly when it is listed as the executor spells it. -/
theorem ProtectionRun.found_iff {params : OrderParams} {response : Dict}
    {out : Except PyError Dict} {pending : String → List Dict}
    (h : ProtectionRun defaultContext request params response providerOrderId rules t out)
    (hexpected : expectedProtection params = some expected)
    (hattached : ¬AttachmentRejected response expected) (hlists : ListsPending t pending)
    (hlisted : Listed pending (matchesProtection expected providerOrderId · = true)) :
    (∃ item, out = .ok (protectedBy expected item)) ∧
      ∀ x ∈ t, ∃ orderType, x.1 = pendingQuery rules orderType := by
  obtain ⟨item, hitem⟩ := listed_iff.mp hlisted
  have hsearch {t' : OkxTranscript} {expected' : AttachedTpSl}
      (hexpected' : expectedProtection params = some expected') (hmem : ∀ x ∈ t', x ∈ t)
      (h : Unprotected rules expected' providerOrderId response t') : False := by
    rw [hexpected] at hexpected'
    cases hexpected'
    cases h with
    | rejected h => exact hattached h
    | notListed _ hpending =>
        have := hpending.eq_find fun instId orderType answer h =>
          hlists instId orderType answer (hmem _ h)
        rw [hitem] at this
        cases this
  cases h with
  | notRequired h _ =>
      rw [hexpected] at h
      cases h
  | found h _ hpending =>
      rw [hexpected] at h
      cases h
      exact ⟨⟨_, rfl⟩, fun x hx => (hpending.calls x hx).imp fun _ h => h.2⟩
  | unreadable h _ hpending =>
      cases hpending.eq_find hlists
  | unknownPosition h hunprotected _ =>
      exact (hsearch h (fun _ => List.mem_append_left _) hunprotected).elim
  | noPosition h hunprotected _ _ =>
      exact (hsearch h (fun _ => List.mem_append_left _) hunprotected).elim
  | openPosition h hunprotected _ _ =>
      exact (hsearch h (fun _ => List.mem_append_left _) hunprotected).elim

/-- **The protection is recognised exactly when it is there, if and only if**, being there, it is
there in the executor's own spelling. -/
theorem recognised_iff {out : Except PyError BrokerAdapterResult} {pending : String → List Dict}
    (hrun : Run (okxPlacementPrepareOrder defaultContext perform request) t out)
    (hentry : EntryAccepted request t expected providerOrderId) (hlists : ListsPending t pending) :
    ReportsProtection t out pending expected providerOrderId ↔
      (Listed pending (IsProtection expected providerOrderId) →
        Listed pending fun item =>
          IsProtection expected providerOrderId item ∧ SpelledAs expected item) := by
  obtain ⟨t₁, t₂, t₃, preparation, order, rfl, hprepared, hentered, rfl, hexpected, hattached⟩ :=
    hentry
  obtain ⟨_, _, _, _, _, _, hparams, _⟩ := run_placementPreparation_ok hprepared
  have hnumeric := numericPrices_of_built (okxSwapOrderParams_built hparams).attachment hexpected
  obtain ⟨protection, hverified, rfl⟩ := protection_of_run hrun hprepared hentered
  have hlists : ListsPending t₃ pending := fun instId orderType answer hmem =>
    hlists instId orderType answer (List.mem_append_right _ (List.mem_append_right _ hmem))
  have hspelled : Listed pending (fun item => IsProtection expected order.providerOrderId item ∧
      SpelledAs expected item) ↔
      Listed pending (matchesProtection expected order.providerOrderId · = true) := by
    simp only [Listed, matchesProtection_iff hnumeric]
  have hstatus : EndsWithProtection (protection.map fun report =>
        ⟨placementEntries preparation order report (normalizedOrderEntries preparation.params)⟩)
      "protected" ↔ Listed pending (matchesProtection expected order.providerOrderId · = true) := by
    rw [endsWithProtection_entered]
    constructor
    · rintro ⟨report, rfl, hreport⟩
      rcases status_of_run hverified with ⟨_, expected', item, hexpected', _, hpending⟩ |
        ⟨hremediated, _⟩ | ⟨status, hother, hmem⟩
      · rw [hexpected] at hexpected'
        cases hexpected'
        exact listed_iff.mpr ⟨item, (Except.ok.inj (hpending.eq_find hlists)).symm⟩
      · rw [hremediated] at hreport
        cases hreport
      · rw [hother, Value.isText, decide_eq_true_eq] at hreport
        rw [hreport] at hmem
        simp at hmem
    · intro hlisted
      obtain ⟨r, hprotection, failure, _, rfl⟩ := run_safeVerifyOrRemediateProtection hverified
      obtain ⟨⟨item, rfl⟩, _⟩ := hprotection.found_iff hexpected hattached hlists hlisted
      exact ⟨_, rfl, by rw [status_protectedBy]; rfl⟩
  have hnoStop (hlisted : Listed pending (matchesProtection expected order.providerOrderId · = true)) :
      placedStops (t₁ ++ (t₂ ++ t₃)) = [] := by
    obtain ⟨r, hprotection, _⟩ := run_safeVerifyOrRemediateProtection hverified
    obtain ⟨_, hcalls⟩ := hprotection.found_iff hexpected hattached hlists hlisted
    refine List.filterMap_eq_nil_iff.mpr ?_
    refine List.forall_mem_append.mpr ⟨?_, List.forall_mem_append.mpr ⟨?_, ?_⟩⟩
    · rintro ⟨call, answer⟩ hx
      have hcall := calls_of_preparation hprepared _ hx
      cases call with
      | placeAlgoOrder => exact absurd hcall id
      | _ => rfl
    · intro x hx
      rcases calls_of_entry hentered x hx with hcall | hcall <;> rw [hcall] <;> rfl
    · intro x hx
      obtain ⟨_, hcall⟩ := hcalls x hx
      rw [hcall]
      rfl
  constructor
  · exact fun h hlisted => hspelled.mpr (hstatus.mp (h.status.mpr hlisted))
  · intro h
    refine ⟨?_, fun hlisted => hnoStop (hspelled.mp (h hlisted))⟩
    rw [hstatus, ← hspelled]
    refine ⟨?_, h⟩
    rintro ⟨orderType, hmem, item, hitem, hprotects⟩
    exact ⟨orderType, hmem, item, hitem, hprotects.1⟩

end Recognition

/-! ### Another spelling -/

namespace Sample

/-- The protection of the sample, with its prices spelled as here. -/
def listedProtection (slTriggerPx tpTriggerPx : String) : Dict :=
  [("algoId", "3"), ("ordId", "1"), ("slOrdPx", "-1"), ("slTriggerPx", slTriggerPx),
    ("state", "live"), ("tpOrdPx", "-1"), ("tpTriggerPx", tpTriggerPx)]

/-- Conditional orders are the listed one; the others are none. -/
def pendingOf (listed : Dict) (orderType : String) : List Dict :=
  if orderType = "conditional" then [listed] else []

/-- The order is placed, this algo order is pending, and a position is open. -/
def listingWorld (listed : Dict) : OkxCall → Except PyError Value
  | .getAccountConfig => accountReply
  | .getInstruments _ _ => instrumentReply
  | .getOrder _ _ => noOrderReply
  | .placeOrder _ => orderReply
  | .orderAlgosPending _ _ orderType =>
      if orderType = "conditional" then .ok (.dict [("code", "0"), ("data", .list [.dict listed])])
      else emptyReply
  | .getPositions _ _ => positionReply "3"
  | .placeAlgoOrder _ => algoReply
  | .setLeverage _ => leverageReply
  | .orderPrecheck _ => emptyReply

/-- The expected protection has the stop of the sample, and its target. -/
def isSampleProtection (expected : AttachedTpSl) : Bool :=
  decide (expected.slTriggerPx = "95" ∧ expected.slOrdPx = "-1") &&
    expected.takeProfit.any fun tp => decide (tp.tpTriggerPx = "110" ∧ tp.tpOrdPx = "-1")

/-- The sample's order is entered, whatever is pending. -/
theorem entryAccepted {listed : Dict} {t : OkxTranscript}
    {out : Except PyError BrokerAdapterResult}
    (hrun : Run (@okxPlacementPrepareOrder runtime defaultContext _ perform longEntry) t out)
    (hworld : ∀ x ∈ t, x.2 = listingWorld listed x.1)
    (hstatus : endsWith out "executorAction" "order_submitted" = true) :
    ∃ expected, @EntryAccepted runtime longEntry t expected "1" ∧
      isSampleProtection expected = true := by
  let _ : Runtime := runtime
  obtain ⟨rules, hrules, hcheck⟩ := exists_ok
    (instrumentReply >>= readInstrumentRules (okxSwapInstrumentId longEntry.symbol))
    (fun rules => (okxSwapOrderParams defaultContext longEntry rules).toOption.any fun params =>
      (expectedProtection params).any isSampleProtection) (by decide +kernel)
  cases placementRun_of_run hrun with
  | refused _ => cases hstatus
  | unprepared _ => cases hstatus
  | notEntered _ _ => cases hstatus
  | @entered t₁ t₂ t₃ preparation order protection hprepared hentered hverified =>
      obtain ⟨s₁, s₂, s₃, rfl, hread, _, hparams, _⟩ := run_placementPreparation_ok hprepared
      obtain ⟨account, instruments, rfl, _, hinstruments⟩ := run_accountAndRules_ok.mp hread
      have hreply : .ok instruments = instrumentReply :=
        hworld (.getInstruments "SWAP" (okxSwapInstrumentId longEntry.symbol), .ok instruments)
          (by simp)
      rw [← hreply] at hrules
      have hsame : Except.ok preparation.rules = .ok rules := hinstruments.symm.trans hrules
      cases hsame
      rw [hparams] at hcheck
      obtain ⟨_, ⟨⟩, hcheck⟩ := (Option.any_eq_true _ _).mp hcheck
      obtain ⟨expected, hexpected, hsample⟩ := (Option.any_eq_true _ _).mp hcheck
      refine ⟨expected, ⟨_, t₂, t₃, preparation, order, rfl, hprepared, hentered, ?_⟩, hsample⟩
      obtain ⟨placed, hplaced, hreply⟩ := exists_ok (readPlacement orderReply)
        (fun order => decide (order.providerOrderId = "1") &&
          (order.response.get "attachAlgoOrds").isNoneOrEmpty) (by decide +kernel)
      have horder : order = placed := by
        have hlookup : readLookup noOrderReply = .ok none := rfl
        rcases run_enterOrder.mp hentered with ⟨answer, _, rfl, hfound, _⟩ |
          ⟨_, _, _, _, hraised⟩ | ⟨_, answer, rfl, _, hread⟩
        · rw [show answer = noOrderReply from hworld
            (.getOrder preparation.params.instId preparation.params.clOrdId, answer) (by simp),
            hlookup] at hfound
          cases hfound
        · cases hraised
        · rw [show answer = orderReply from hworld (.placeOrder preparation.params, answer)
            (by simp)] at hread
          exact Except.ok.inj (hread.trans hplaced)
      rw [horder]
      rw [Bool.and_eq_true, decide_eq_true_eq] at hreply
      refine ⟨hreply.1, hexpected, ?_⟩
      have hattached := hreply.2
      unfold AttachmentRejected attachedProtectionResponse
      cases hvalue : placed.response.get "attachAlgoOrds" with
      | list items =>
          rw [hvalue] at hattached
          cases hattached
      | none | bool | int | float | str | tuple | dict => exact Bool.false_ne_true

theorem listsPending {listed : Dict} {t : OkxTranscript}
    (hworld : ∀ x ∈ t, x.2 = listingWorld listed x.1)
    (hread : @readPending runtime "conditional"
      (.ok (.dict [("code", "0"), ("data", .list [.dict listed])])) = .ok [listed]) :
    @ListsPending runtime t (pendingOf listed) := by
  intro instId orderType answer hmem
  rw [show answer = listingWorld listed (.orderAlgosPending "SWAP" instId orderType) from
    hworld _ hmem]
  by_cases hconditional : orderType = "conditional"
  · subst hconditional
    exact hread
  · simp only [listingWorld, pendingOf, if_neg hconditional]
    rfl

/-- A text that is the same number as another one. -/
def sameNumber (text other : String) : Bool :=
  match @decimalOfText runtime text, @decimalOfText runtime other with
  | .ok (.finite d), .ok (.finite d') => decide (text ≠ "" ∧ other ≠ "" ∧ d.val = d'.val)
  | _, _ => false

theorem samePrice_of_sameNumber {text other : String} (h : sameNumber text other = true) :
    @SamePrice runtime (.str text) other := by
  let _ : Runtime := runtime
  unfold sameNumber at h
  split at h
  · rename_i d d' hd hd'
    obtain ⟨htext, hother, hval⟩ := of_decide_eq_true h
    exact ⟨d.val, (readsAs_str htext).mpr ⟨d, hd, rfl⟩, (readsAs_str hother).mpr ⟨d', hd', hval.symm⟩⟩
  · cases h

/-- The listed algo order is the protection, in whatever spelling. -/
theorem isProtection_listed {expected : AttachedTpSl} (hsample : isSampleProtection expected = true)
    {slTriggerPx tpTriggerPx : String} (hsl : sameNumber slTriggerPx "95" = true)
    (htp : sameNumber tpTriggerPx "110" = true) :
    @IsProtection runtime expected "1" (listedProtection slTriggerPx tpTriggerPx) := by
  let _ : Runtime := runtime
  unfold isSampleProtection at hsample
  rw [Bool.and_eq_true, decide_eq_true_eq] at hsample
  have hclose : SamePrice (.str "-1") "-1" := samePrice_of_sameNumber (by decide +kernel)
  have hlive : lower ((okxOptionalText (.str "live")).getD "") ∈
      ["", "live", "effective", "partially_effective"] := by decide +kernel
  have hlinked : okxOptionalText (.str "1") = some "1" := by decide +kernel
  refine ⟨hlive, Or.inr hlinked, ?_, ?_, fun tp hfound => ?_⟩
  · rw [hsample.1.1]
    exact samePrice_of_sameNumber hsl
  · rw [hsample.1.2]
    exact hclose
  · have htarget := hsample.2
    rw [hfound, Option.any_some, decide_eq_true_eq] at htarget
    rw [htarget.1, htarget.2]
    exact ⟨samePrice_of_sameNumber htp, hclose⟩

theorem listed_of_mem {listed : Dict} {p : Dict → Prop} (h : p listed) :
    Listed (pendingOf listed) p :=
  ⟨"conditional", by decide, listed, List.mem_singleton.mpr rfl, h⟩

end Sample

theorem recognised_iff_sample : ∃ t out expected,
    Run (@okxPlacementPrepareOrder Sample.runtime defaultContext _ perform Sample.longEntry) t out ∧
      (@ReportsProtection Sample.runtime t out
          (Sample.pendingOf (Sample.listedProtection "95" "110")) expected "1" ↔
        (Listed (Sample.pendingOf (Sample.listedProtection "95" "110"))
            (@IsProtection Sample.runtime expected "1") →
          Listed (Sample.pendingOf (Sample.listedProtection "95" "110")) fun item =>
            @IsProtection Sample.runtime expected "1" item ∧ SpelledAs expected item)) := by
  obtain ⟨t, out, hrun, hworld, hcheck⟩ := exists_run_in
    (Sample.listingWorld (Sample.listedProtection "95" "110"))
    (@okxPlacementPrepareOrder Sample.runtime defaultContext _ perform Sample.longEntry)
    (fun _ out => Sample.endsWith out "executorAction" "order_submitted") (by decide +kernel)
  obtain ⟨expected, hentry, _⟩ := Sample.entryAccepted hrun hworld hcheck
  exact ⟨t, out, expected, hrun, @recognised_iff Sample.runtime _ _ _ _ _ _ hrun hentry
    (Sample.listsPending hworld rfl)⟩

/-- Protection that OKX lists as `95.0` is not recognised, and a second stop is placed. -/
theorem spelled_otherwise_not_recognised : ∃ t out expected,
    Run (@okxPlacementPrepareOrder Sample.runtime defaultContext _ perform Sample.longEntry) t out ∧
      @EntryAccepted Sample.runtime Sample.longEntry t expected "1" ∧
      @ListsPending Sample.runtime t (Sample.pendingOf (Sample.listedProtection "95.0" "110.0")) ∧
      placedStops t ≠ [] ∧ ¬@ReportsProtection Sample.runtime t out
        (Sample.pendingOf (Sample.listedProtection "95.0" "110.0")) expected "1" := by
  obtain ⟨t, out, hrun, hworld, hcheck⟩ := exists_run_in
    (Sample.listingWorld (Sample.listedProtection "95.0" "110.0"))
    (@okxPlacementPrepareOrder Sample.runtime defaultContext _ perform Sample.longEntry)
    (fun t out => Sample.endsWith out "executorAction" "order_submitted" &&
      decide ((placedStops t).length = 1)) (by decide +kernel)
  rw [Bool.and_eq_true, decide_eq_true_eq] at hcheck
  obtain ⟨expected, hentry, hsample⟩ := Sample.entryAccepted hrun hworld hcheck.1
  have hplaced : placedStops t ≠ [] := List.length_pos_iff.mp (by omega)
  refine ⟨t, out, expected, hrun, hentry, Sample.listsPending hworld rfl, hplaced, fun h => ?_⟩
  have hsl : Sample.sameNumber "95.0" "95" = true := by decide +kernel
  have htp : Sample.sameNumber "110.0" "110" = true := by decide +kernel
  have hlisted := Sample.listed_of_mem (Sample.isProtection_listed hsample hsl htp)
  exact hplaced (@ReportsProtection.noStop Sample.runtime _ _ _ _ _ h hlisted)

end YtmExecutor
