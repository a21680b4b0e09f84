/-
How much of a day's loss is stored.

A snapshot lists its dollars in rows, and an update looks at the largest row alone.  The
first snapshot of a day sets the day's opening; whatever is folded in after it, the
opening stays, rounded once by the file it went through.  So the loss stored later that day
is the loss of the largest row, and what the other rows lost is in it only if the total did
not fall at all.
-/
import YtmExecutor.RiskRoundTrip

namespace YtmExecutor

open Python Decimal

section Loss

variable [Runtime]

/-! ### What a snapshot is worth -/

/-- The dollars of a snapshot, over all its rows. -/
def totalEquity (snapshot : Dict) : ℚ :=
  match dollarEquities snapshot with
  | .ok equities => (equities.map fun e => e.val).sum
  | .error _ => 0

/-- The dollars in the largest row. -/
def largestEquity (snapshot : Dict) : ℚ :=
  match equityOf snapshot with
  | some equity => equity.val
  | none => 0

/-- The dollars in all rows but the largest. -/
def otherEquity (snapshot : Dict) : ℚ := totalEquity snapshot - largestEquity snapshot

/-- The loss a file holds for a day. -/
def storedLoss (content : Value) (date : String) : Option Finite :=
  match content with
  | .dict payload =>
      match Dict.get payload "realizedLossByDate" with
      | .dict amounts =>
          (nonNegativeDecimal (Dict.get amounts date) ("realizedLossByDate." ++ date)).toOption
      | _ => none
  | _ => none

/-- The loss the file holds for a day covers the loss of all rows together. -/
def CoversLoss (content : Value) (date : String) (first last : Dict) : Prop :=
  ∃ loss, storedLoss content date = some loss ∧ totalEquity first - totalEquity last ≤ loss.val

/-- What rounding adds to the change of the largest row; nothing, unless the equity or the
change has more than 28 digits. -/
def roundingOfChange (first last : ℚ) : ℚ := rounded28 (rounded28 first - last) - (first - last)

omit [Runtime] in
theorem roundingOfChange_of_held {first last : ℚ} (hfirst : defaultContext.Holds first)
    (hchange : defaultContext.Holds (first - last)) : roundingOfChange first last = 0 := by
  rw [roundingOfChange, rounded28_of_fix hfirst, rounded28_of_fix hchange, sub_self]

/-- What an update makes of a snapshot is its largest row. -/
theorem equityOf_of_snapshotUsdEquity {snapshot : Dict} {equity : Option Finite}
    (h : snapshotUsdEquity snapshot = .ok equity) : equityOf snapshot = equity := by
  obtain ⟨candidates, hcandidates, h⟩ := bind_eq_ok.mp h
  have hrows : dollarEquities snapshot = .ok candidates :=
    (mapM_nonNegative_iff.mp hcandidates).1
  unfold equityOf
  rw [hrows]
  cases candidates with
  | nil => exact Except.ok.inj h
  | cons candidate rest => exact Except.ok.inj h

omit [Runtime] in
/-- The openings after a snapshot, and the loss if it reports an equity. -/
theorem nextRiskState_eq_ok {current next : RiskState} {today : String} {equity : Option Finite}
    (h : nextRiskState defaultContext current today equity = .ok next) :
    (equity = none ∧ next.dailyEquityOpenByDate = current.dailyEquityOpenByDate) ∨
      ∃ amount loss, equity = some amount ∧
        next.dailyEquityOpenByDate =
          ByDate.setDefault current.dailyEquityOpenByDate today (.finite amount) ∧
        dayLoss defaultContext ((next.dailyEquityOpenByDate.lookup today).getD (.finite amount))
          (.finite amount) = .ok loss ∧
        next.realizedLossByDate.lookup today = some loss := by
  unfold nextRiskState at h
  cases equity with
  | none =>
      rw [← Except.ok.inj h]
      exact Or.inl ⟨rfl, rfl⟩
  | some amount =>
      obtain ⟨loss, hloss, h⟩ := bind_eq_ok.mp h
      rw [← Except.ok.inj h]
      exact Or.inr ⟨amount, loss, rfl, rfl, hloss, ByDate.lookup_put_self _ _ _⟩

omit [Runtime] in
theorem dayLoss_eq_ok {opening last : Finite} {loss : Number}
    (h : dayLoss defaultContext (.finite opening) (.finite last) = .ok loss) :
    ∃ d : Finite, loss = .finite d ∧ d.val = max 0 (rounded28 (opening.val - last.val)) ∧
      defaultContext.Holds d.val := by
  obtain ⟨difference, hdifference, _⟩ := bind_eq_ok.mp h
  rw [raiseSignal_eq_ok] at hdifference
  have hsub : Number.sub defaultContext (.finite opening) (.finite last) =
      (opening.sub defaultContext last).map .finite := rfl
  rw [hsub] at hdifference
  cases hround : opening.sub defaultContext last with
  | error e =>
      rw [hround] at hdifference
      cases hdifference
  | ok r =>
      have hfix : defaultContext.fix (opening.val - last.val) = .ok r.val :=
        Finite.fix_eq_ok.mp hround
      obtain ⟨d, hloss, hval, hheld⟩ := dayLoss_of_fix hfix
      rw [hloss] at h
      exact ⟨d, (Except.ok.inj h).symm, by rw [hval, rounded28_of_fix hfix], hheld⟩

/-! ### Through the file -/

omit [Runtime] in
theorem amountEntries_get? {amounts : List (String × Number)} {entries : Dict} {date : String}
    {amount : Number} (h : amountEntries defaultContext amounts = .ok entries)
    (hamount : amounts.lookup date = some amount) :
    ∃ text, numberText defaultContext amount = .ok text ∧
      Dict.get? entries date = some (.str text) := by
  induction amounts generalizing entries with
  | nil => cases hamount
  | cons entry rest ih =>
      obtain ⟨text, htext, h⟩ := bind_eq_ok.mp h
      obtain ⟨entries', hentries, h⟩ := bind_eq_ok.mp h
      obtain ⟨first, n⟩ := entry
      rw [← Except.ok.inj h, Dict.get?]
      by_cases hdate : first = date
      · subst hdate
        rw [List.lookup_cons, beq_self_eq_true] at hamount
        rw [← Option.some.inj hamount, if_pos rfl]
        exact ⟨text, htext, rfl⟩
      · have hother : (date == first) = false := by simpa using Ne.symm hdate
        rw [List.lookup_cons, hother] at hamount
        rw [if_neg (fun heq => hdate (Key.str.inj heq))]
        exact ih hentries hamount

theorem lookup_of_readAmounts {fieldName : String} {entries : Dict} {date : String} {v : Value}
    {amounts : List (String × Number)} (h : readAmounts fieldName entries = .ok amounts)
    (hv : Dict.get? entries date = some v) :
    ∃ d, v.toFinite (fieldName ++ "." ++ date) = .ok d ∧
      amounts.lookup date = some (.finite d) := by
  induction entries generalizing amounts with
  | nil => cases hv
  | cons entry rest ih =>
      obtain ⟨key, w⟩ := entry
      cases key with
      | str first =>
          obtain ⟨d, hd, h⟩ := bind_eq_ok.mp h
          obtain ⟨amounts', hamounts, h⟩ := bind_eq_ok.mp h
          rw [← Except.ok.inj h]
          rw [Dict.get?] at hv
          by_cases hdate : first = date
          · subst hdate
            rw [if_pos rfl] at hv
            rw [← Option.some.inj hv]
            exact ⟨d, (nonNegativeDecimal_eq_ok.mp hd).1, by simp⟩
          · rw [if_neg (fun heq => hdate (Key.str.inj heq))] at hv
            obtain ⟨d', hd', hlookup⟩ := ih hamounts hv
            have hother : (date == first) = false := by simpa using Ne.symm hdate
            refine ⟨d', hd', ?_⟩
            rw [List.lookup_cons, hother]
            exact hlookup
      | int n => cases h
      | float text => cases h
      | bool b => cases h
      | none => cases h

/-- If the file can be read, the day opened with `q`. -/
def OpensAt (file : Option Value) (date : String) (q : ℚ) : Prop :=
  ∀ state, readRiskState file = .ok state →
    ∃ d : Finite, state.dailyEquityOpenByDate.lookup date = some (.finite d) ∧ d.val = q

theorem opensAt_written {state : RiskState} {content : Value} {date : String} {d : Finite}
    (h : writeRiskState defaultContext state = .ok content)
    (hopening : state.dailyEquityOpenByDate.lookup date = some (.finite d)) :
    defaultContext.Holds (rounded28 d.val) ∧ OpensAt (some content) date (rounded28 d.val) := by
  obtain ⟨current, daily, initial, losses, hwritten, rfl⟩ := writeRiskState_eq_ok.mp h
  obtain ⟨text, htext, hentry⟩ := amountEntries_get? hwritten.dailyEquity hopening
  obtain ⟨r, hr, hval, hheld⟩ :=
    toFinite_of_numberText htext ("dailyEquityOpenByDate" ++ "." ++ date)
  refine ⟨hval ▸ hheld, ?_⟩
  intro state' hread
  obtain ⟨_, hdaily, _⟩ := (readRiskState_stateContent hwritten.guard).mp hread
  obtain ⟨r', hr', hlookup⟩ := lookup_of_readAmounts hdaily hentry
  obtain rfl : r = r' := Except.ok.inj (hr.symm.trans hr')
  exact ⟨r, hlookup, hval⟩

theorem storedLoss_written {state : RiskState} {content : Value} {date : String} {d : Finite}
    (h : writeRiskState defaultContext state = .ok content)
    (hloss : state.realizedLossByDate.lookup date = some (.finite d))
    (hheld : defaultContext.Holds d.val) (hnonneg : 0 ≤ d.val) :
    storedLoss content date = some d := by
  obtain ⟨current, daily, initial, losses, hwritten, rfl⟩ := writeRiskState_eq_ok.mp h
  obtain ⟨text, htext, hentry⟩ := amountEntries_get? hwritten.realizedLoss hloss
  have hread : nonNegativeDecimal (Dict.get losses date) ("realizedLossByDate." ++ date) =
      .ok d := by
    rw [Dict.get_of_get? hentry, nonNegativeDecimal_eq_ok]
    exact ⟨(toFinite_numberText htext _).mpr hheld, hnonneg⟩
  show (nonNegativeDecimal (Dict.get losses date)
    ("realizedLossByDate." ++ date)).toOption = some d
  rw [hread]
  rfl

/-- **The opening of a day stays** whatever is folded in. -/
theorem OpensAt.fileStep {file : Option Value} {date : String} {q : ℚ}
    (h : OpensAt file date q) (hheld : defaultContext.Holds q) (s : Instant × Dict) :
    OpensAt (fileStep file s) date q := by
  unfold YtmExecutor.fileStep
  cases hupdate : updateRiskStateFromReconciliationSnapshot defaultContext file s.2 s.1 with
  | error e => exact h
  | ok result =>
      obtain ⟨current, equity, hread, _, hnext, hwrite⟩ := update_eq_ok.mp hupdate
      obtain ⟨d, hopening, hd⟩ := h current hread
      have hround : rounded28 d.val = q := by
        rw [hd]
        exact rounded28_of_fix hheld
      rw [← hround]
      refine (opensAt_written hwrite ?_).2
      rcases nextRiskState_eq_ok hnext with ⟨_, hdaily⟩ | ⟨amount, loss, _, hdaily, _⟩
      · rw [hdaily]
        exact hopening
      · rw [hdaily, ByDate.setDefault]
        by_cases hday : (current.dailyEquityOpenByDate.lookup (utcDate s.1)).isSome
        · rw [if_pos hday]
          exact hopening
        · have hother : date ≠ utcDate s.1 := by
            intro heq
            rw [heq] at hopening
            exact hday (by rw [hopening]; rfl)
          rw [if_neg hday, ByDate.lookup_put_other _ _ hother]
          exact hopening

theorem OpensAt.foldl {date : String} {q : ℚ} (hheld : defaultContext.Holds q)
    (between : List (Instant × Dict)) {file : Option Value} (h : OpensAt file date q) :
    OpensAt (between.foldl YtmExecutor.fileStep file) date q := by
  induction between generalizing file with
  | nil => exact h
  | cons s rest ih => exact ih (h.fileStep hheld s)

/-! ### Two snapshots of a day -/

/-- The first snapshot of a day opens it with its largest row. -/
theorem opensAt_first {file : Option Value} {state : RiskState} {content : Value}
    {first : Instant × Dict}
    (hnew : ∀ state, readRiskState file = .ok state →
      state.dailyEquityOpenByDate.lookup (utcDate first.1) = none)
    (hequity : equityOf first.2 ≠ none)
    (h : updateRiskStateFromReconciliationSnapshot defaultContext file first.2 first.1 =
      .ok (state, content)) :
    ∃ m, equityOf first.2 = some m ∧ defaultContext.Holds (rounded28 m.val) ∧
      OpensAt (some content) (utcDate first.1) (rounded28 m.val) := by
  obtain ⟨current, equity, hread, hsnapshot, hnext, hwrite⟩ := update_eq_ok.mp h
  rcases nextRiskState_eq_ok hnext with ⟨rfl, _⟩ | ⟨m, loss, rfl, hdaily, hloss, _⟩
  · exact absurd (equityOf_of_snapshotUsdEquity hsnapshot) hequity
  · have hopening : state.dailyEquityOpenByDate.lookup (utcDate first.1) = some (.finite m) := by
      rw [hdaily, ByDate.lookup_setDefault_self, hnew current hread, Option.getD_none]
    exact ⟨m, equityOf_of_snapshotUsdEquity hsnapshot, opensAt_written hwrite hopening⟩

/-- The loss stored for the day of a later snapshot is that of its largest row. -/
theorem storedLoss_last {file : Option Value} {date : String} {q : ℚ} {state : RiskState}
    {content : Value} {last : Instant × Dict} (hday : utcDate last.1 = date)
    (hequity : equityOf last.2 ≠ none) (hopens : OpensAt file date q)
    (h : updateRiskStateFromReconciliationSnapshot defaultContext file last.2 last.1 =
      .ok (state, content)) :
    ∃ m loss, equityOf last.2 = some m ∧ storedLoss content date = some loss ∧
      loss.val = max 0 (rounded28 (q - m.val)) := by
  subst hday
  obtain ⟨current, equity, hread, hsnapshot, hnext, hwrite⟩ := update_eq_ok.mp h
  obtain ⟨opening, hopening, hq⟩ := hopens current hread
  rcases nextRiskState_eq_ok hnext with ⟨rfl, _⟩ | ⟨m, n, rfl, hdaily, hloss, hstored⟩
  · exact absurd (equityOf_of_snapshotUsdEquity hsnapshot) hequity
  · have hopen : state.dailyEquityOpenByDate.lookup (utcDate last.1) = some (.finite opening) := by
      rw [hdaily, ByDate.lookup_setDefault_self, hopening, Option.getD_some]
    rw [hopen, Option.getD_some] at hloss
    obtain ⟨loss, rfl, hval, hheld⟩ := dayLoss_eq_ok hloss
    have hnonneg : 0 ≤ loss.val := by
      rw [hval]
      exact le_max_left _ _
    refine ⟨m, loss, equityOf_of_snapshotUsdEquity hsnapshot,
      storedLoss_written hwrite hstored hheld hnonneg, ?_⟩
    rw [hval, hq]

/-- **The loss stored for a day covers the loss of all rows** exactly when the total did not
fall, or the rows other than the largest lost together no more than rounding made up for.

The first snapshot is the first of its day with an equity; any updates may lie between the
two. -/
theorem coversLoss_iff {file : Option Value} {state1 state2 : RiskState}
    {content1 content2 : Value} {first last : Instant × Dict} {between : List (Instant × Dict)}
    (hnew : ∀ state, readRiskState file = .ok state →
      state.dailyEquityOpenByDate.lookup (utcDate first.1) = none)
    (hday : utcDate last.1 = utcDate first.1)
    (hfirst : equityOf first.2 ≠ none) (hlast : equityOf last.2 ≠ none)
    (h1 : updateRiskStateFromReconciliationSnapshot defaultContext file first.2 first.1 =
      .ok (state1, content1))
    (h2 : updateRiskStateFromReconciliationSnapshot defaultContext
      (between.foldl fileStep (some content1)) last.2 last.1 = .ok (state2, content2)) :
    CoversLoss content2 (utcDate first.1) first.2 last.2 ↔
      totalEquity first.2 ≤ totalEquity last.2 ∨
        otherEquity first.2 - otherEquity last.2 ≤
          roundingOfChange (largestEquity first.2) (largestEquity last.2) := by
  obtain ⟨m1, hm1, hheld, hopens⟩ := opensAt_first hnew hfirst h1
  obtain ⟨m2, loss, hm2, hloss, hval⟩ :=
    storedLoss_last hday hlast (hopens.foldl hheld between) h2
  have hlargest1 : largestEquity first.2 = m1.val := by
    unfold largestEquity
    rw [hm1]
  have hlargest2 : largestEquity last.2 = m2.val := by
    unfold largestEquity
    rw [hm2]
  have hcovers : CoversLoss content2 (utcDate first.1) first.2 last.2 ↔
      totalEquity first.2 - totalEquity last.2 ≤ loss.val := by
    unfold CoversLoss
    simp only [hloss, Option.some.injEq, exists_eq_left']
  rw [hcovers, hval, le_max_iff, sub_nonpos]
  refine or_congr_right ?_
  unfold otherEquity roundingOfChange
  rw [hlargest1, hlargest2]
  constructor
  · intro h
    linarith
  · intro h
    linarith

end Loss

/-! ### Losses in the smaller row -/

namespace Sample

/-- A snapshot with two dollar rows. -/
def rows (usdt usd : String) : Dict :=
  [("balances", .list [.dict [("currency", "USDT"), ("usdEquity", usdt)],
    .dict [("currency", "USD"), ("usdEquity", usd)]])]

/-- Two updates from an absent file, a minute apart, and the loss stored after them. -/
def lossAfter (first last : Dict) : Except PyError (Option Finite) := do
  let r1 ← @updateRiskStateFromReconciliationSnapshot runtime defaultContext none first now
  let r2 ← @updateRiskStateFromReconciliationSnapshot runtime defaultContext (some r1.2) last
    (now + 60000000)
  return @storedLoss runtime r2.2 (utcDate now)

end Sample

theorem coversLoss_iff_sample : ∃ state1 content1 state2 content2,
    @updateRiskStateFromReconciliationSnapshot Sample.runtime defaultContext none
        (Sample.rows "600" "400") Sample.now = .ok (state1, content1) ∧
      @updateRiskStateFromReconciliationSnapshot Sample.runtime defaultContext (some content1)
        (Sample.rows "500" "400") (Sample.now + 60000000) = .ok (state2, content2) ∧
      @CoversLoss Sample.runtime content2 (utcDate Sample.now) (Sample.rows "600" "400")
        (Sample.rows "500" "400") := by
  have hrun : Sample.lossAfter (Sample.rows "600" "400") (Sample.rows "500" "400") =
      .ok (some (.ofInt 100)) := by
    decide +kernel
  obtain ⟨⟨state1, content1⟩, h1, hrun⟩ := bind_eq_ok.mp hrun
  obtain ⟨⟨state2, content2⟩, h2, _⟩ := bind_eq_ok.mp hrun
  refine ⟨state1, content1, state2, content2, h1, h2, ?_⟩
  refine (@coversLoss_iff Sample.runtime none state1 state2 content1 content2
    (Sample.now, Sample.rows "600" "400") (Sample.now + 60000000, Sample.rows "500" "400") []
    ?_ ?_ ?_ ?_ h1 h2).mpr ?_
  · intro state hstate
    rw [← Except.ok.inj hstate]
    rfl
  · decide +kernel
  · decide +kernel
  · decide +kernel
  · decide +kernel

/-- The second row falls from 400 to zero, and no loss is stored. -/
theorem loss_hidden : ∃ state1 content1 state2 content2,
    @updateRiskStateFromReconciliationSnapshot Sample.runtime defaultContext none
        (Sample.rows "600" "400") Sample.now = .ok (state1, content1) ∧
      @updateRiskStateFromReconciliationSnapshot Sample.runtime defaultContext (some content1)
        (Sample.rows "600" "0") (Sample.now + 60000000) = .ok (state2, content2) ∧
      ¬@CoversLoss Sample.runtime content2 (utcDate Sample.now) (Sample.rows "600" "400")
        (Sample.rows "600" "0") := by
  have hrun : Sample.lossAfter (Sample.rows "600" "400") (Sample.rows "600" "0") =
      .ok (some (.ofInt 0)) := by
    decide +kernel
  obtain ⟨⟨state1, content1⟩, h1, hrun⟩ := bind_eq_ok.mp hrun
  obtain ⟨⟨state2, content2⟩, h2, hloss⟩ := bind_eq_ok.mp hrun
  refine ⟨state1, content1, state2, content2, h1, h2, ?_⟩
  rintro ⟨loss, hstored, hcovers⟩
  have hzero : loss = .ofInt 0 := Option.some.inj (hstored.symm.trans (Except.ok.inj hloss))
  have htotal : @totalEquity Sample.runtime (Sample.rows "600" "400") -
      @totalEquity Sample.runtime (Sample.rows "600" "0") = 400 := by
    decide +kernel
  rw [htotal, hzero] at hcovers
  exact absurd hcovers (by decide +kernel)

end YtmExecutor
