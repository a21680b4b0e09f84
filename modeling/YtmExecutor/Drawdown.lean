/-
The drawdown stops over a run of snapshots.

`equitiesSeen` is what a run of snapshots reports: an equity `E` a snapshot, under its
day.  A stored state that can be read follows it: it keeps the first equity ever, the
first of each day, the loss of each day up to its last one, and the last one that is not
zero.  The file carries this from update to update, because what is read is what was
written.

The exception is the defect.  An equity of zero counts as false where the last equity is
stored, so the total stop keeps comparing with the one before; and a snapshot with a
negative row is not folded in at all.
-/
import YtmExecutor.FailClosed
import YtmExecutor.RiskFile

namespace YtmExecutor

open Python Decimal Risk

section Run

variable [Runtime]

/-! ### What a run reports -/

/-- The numbers in the dollar rows of a snapshot. -/
def dollarEquities (snapshot : Dict) : Except PyError (List Finite) :=
  (usdRowValues snapshot).mapM fun v => v.toFinite "balance.usdEquity"

/-- `E`: the largest of them, if there is one. -/
def equityOf (snapshot : Dict) : Option Finite :=
  match dollarEquities snapshot with
  | .ok (candidate :: rest) => some (rest.foldl larger candidate)
  | _ => none

/-- The equities of a run of snapshots, each with its day. -/
def equitiesSeen (snapshots : List (Instant × Dict)) : List (String × Finite) :=
  snapshots.filterMap fun s => (equityOf s.2).map fun equity => (utcDate s.1, equity)

/-- The file after one more snapshot; an update that raises leaves it as it is. -/
def fileStep (file : Option Value) (s : Instant × Dict) : Option Value :=
  match updateRiskStateFromReconciliationSnapshot defaultContext file s.2 s.1 with
  | .ok (_, content) => some content
  | .error _ => file

/-- The file after a run of snapshots, with no file to begin with. -/
def fileAfter (snapshots : List (Instant × Dict)) : Option Value := snapshots.foldl fileStep none

/-- An amount has reached a limit. -/
def LimitReached (amount : ℚ) : Number → Prop
  | .finite limit => limit.val ≤ amount
  | .infinity negative => negative = true
  | .nan _ => False

/-- The loss since the first equity of the day has reached the daily limit. -/
def DailyLimitReached (policy : RiskPolicy) (seen : List (String × Finite)) (today : String)
    (last : Finite) : Prop :=
  ∃ limit opening, policy.maxDailyLoss = some limit ∧ seen.lookup today = some opening ∧
    LimitReached (opening.val - last.val) limit

/-- The loss since the first equity ever has reached the total limit. -/
def TotalLimitReached (policy : RiskPolicy) (seen : List (String × Finite)) (last : Finite) :
    Prop :=
  ∃ limit date first, policy.maxTotalDrawdown = some limit ∧ seen.head? = some (date, first) ∧
    LimitReached (first.val - last.val) limit

/-- The last equity of a day. -/
def lastOfDay (seen : List (String × Finite)) (date : String) : Option Finite :=
  seen.reverse.lookup date

/-- The last equity that is not zero. -/
def lastNonzero (seen : List (String × Finite)) : Option Finite :=
  (seen.reverse.find? fun e => decide (e.2.val ≠ 0)).map Prod.snd

/-- Below the daily limit at the last equity of the day, and below the total limit at the last
one that is not zero. -/
structure BelowLimits (policy : RiskPolicy) (seen : List (String × Finite)) (today : String) :
    Prop where
  daily : ∀ last, lastOfDay seen today = some last → ¬DailyLimitReached policy seen today last
  total : ∀ last, lastNonzero seen = some last → ¬TotalLimitReached policy seen last

/-- No real command passes the risk evaluation on the day of the last equity, once one of
the policy's limits is reached. -/
def StopsTrip (policy : RiskPolicy) (snapshots : List (Instant × Dict)) : Prop :=
  ∀ state command now last, readRiskState (fileAfter snapshots) = .ok state →
    (equitiesSeen snapshots).getLast? = some (utcDate now, last) →
    (DailyLimitReached policy (equitiesSeen snapshots) (utcDate now) last ∨
      TotalLimitReached policy (equitiesSeen snapshots) last) →
    ¬∃ d, evaluateCommandRisk defaultContext command .real policy state now = .ok d ∧
      d.passed = true

/-! ### One snapshot -/

/-- A snapshot an update can fold in: no dollar row is negative, and the largest needs no
rounding. -/
structure FoldsIn (snapshot : Dict) : Prop where
  rows : ∃ equities, dollarEquities snapshot = .ok equities ∧ ∀ e ∈ equities, 0 ≤ e.val
  held : ∀ e, equityOf snapshot = some e → defaultContext.Holds e.val

omit [Runtime] in
theorem foldl_larger_mem (rest : List Finite) (candidate : Finite) :
    rest.foldl larger candidate ∈ candidate :: rest := by
  induction rest generalizing candidate with
  | nil => exact List.mem_singleton.mpr rfl
  | cons e rest ih =>
      rw [List.foldl_cons]
      rcases List.mem_cons.mp (ih (larger candidate e)) with h | h
      · rw [h]
        unfold larger
        split
        · exact List.mem_cons_of_mem _ List.mem_cons_self
        · exact List.mem_cons_self
      · exact List.mem_cons_of_mem _ (List.mem_cons_of_mem _ h)

/-- The validator that wants non-negative numbers lets exactly these pass. -/
theorem mapM_nonNegative_iff {values : List Value} {fieldName : String}
    {equities : List Finite} :
    values.mapM (fun v => nonNegativeDecimal v fieldName) = .ok equities ↔
      values.mapM (fun v => v.toFinite fieldName) = .ok equities ∧ ∀ e ∈ equities, 0 ≤ e.val := by
  induction values generalizing equities with
  | nil =>
      constructor
      · intro h
        obtain rfl : [] = equities := Except.ok.inj h
        exact ⟨h, by simp⟩
      · intro h
        exact h.1
  | cons v rest ih =>
      simp only [List.mapM_cons, bind_eq_ok, ih, nonNegativeDecimal_eq_ok]
      constructor
      · rintro ⟨e, ⟨he, hnonneg⟩, es, ⟨hes, hall⟩, h⟩
        refine ⟨⟨e, he, es, hes, h⟩, ?_⟩
        rw [← Except.ok.inj h, List.forall_mem_cons]
        exact ⟨hnonneg, hall⟩
      · rintro ⟨⟨e, he, es, hes, h⟩, hall⟩
        rw [← Except.ok.inj h, List.forall_mem_cons] at hall
        exact ⟨e, ⟨he, hall.1⟩, es, ⟨hes, hall.2⟩, h⟩

theorem snapshotUsdEquity_of_foldsIn {snapshot : Dict} (h : FoldsIn snapshot) :
    snapshotUsdEquity snapshot = .ok (equityOf snapshot) := by
  obtain ⟨equities, hequities, hnonneg⟩ := h.rows
  unfold snapshotUsdEquity equityOf
  rw [hequities, mapM_nonNegative_iff.mpr ⟨hequities, hnonneg⟩]
  cases equities <;> rfl

theorem FoldsIn.nonneg {snapshot : Dict} (h : FoldsIn snapshot) {e : Finite}
    (he : equityOf snapshot = some e) : 0 ≤ e.val := by
  obtain ⟨equities, hequities, hnonneg⟩ := h.rows
  unfold equityOf at he
  rw [hequities] at he
  cases equities with
  | nil => cases he
  | cons candidate rest =>
      rw [← Option.some.inj he]
      exact hnonneg _ (foldl_larger_mem rest candidate)

end Run

/-! ### The loss of a day -/

theorem zero_held : defaultContext.Holds 0 := by decide +kernel

/-- The loss of a day is what is left of the opening, rounded, or zero. -/
theorem dayLoss_of_fix {opening last : Finite} {r : ℚ}
    (hr : defaultContext.fix (opening.val - last.val) = .ok r) :
    ∃ d : Finite, dayLoss defaultContext (.finite opening) (.finite last) = .ok (.finite d) ∧
      d.val = max 0 r ∧ defaultContext.Holds d.val := by
  let difference : Finite :=
    ⟨r, defaultContext.fix_isDecimal (opening.isDecimal.sub last.isDecimal) hr⟩
  have hsub : opening.sub defaultContext last = .ok difference := Finite.fix_eq_ok.mpr hr
  have hzero : (Finite.ofInt 0).val = 0 := by simp [Finite.ofInt]
  have hlt : Number.lt (.finite (.ofInt 0)) (.finite difference) = .ok (decide (0 < r)) := by
    rw [Number.lt_finite, hzero]
  have hloss : dayLoss defaultContext (.finite opening) (.finite last) =
      .ok (.finite (if 0 < r then difference else .ofInt 0)) := by
    simp only [dayLoss, Number.sub, hsub, Except.map, raiseSignal, hlt, bind, Except.bind]
    by_cases h : 0 < r <;> simp [h, pure, Except.pure]
  refine ⟨_, hloss, ?_⟩
  by_cases h : 0 < r
  · rw [if_pos h]
    exact ⟨(max_eq_right h.le).symm, fix_fix (by norm_num) hr⟩
  · rw [if_neg h, hzero]
    exact ⟨(max_eq_left (not_lt.mp h)).symm, zero_held⟩

/-- The loss stored for a day is no smaller than any number up to the exact loss. -/
theorem dayLoss_spec {opening last : Finite} {ro rl : ℚ}
    (hopening : defaultContext.fix opening.val = .ok ro)
    (hlast : defaultContext.fix last.val = .ok rl) (ho : 0 ≤ opening.val) (hl : 0 ≤ last.val) :
    ∃ loss : Finite, dayLoss defaultContext (.finite opening) (.finite last) =
        .ok (.finite loss) ∧ defaultContext.Holds loss.val ∧ 0 ≤ loss.val ∧
      ∀ q ≤ opening.val - last.val, defaultContext.Holds q → q ≤ loss.val := by
  obtain ⟨r, hr⟩ := fix_sub_of_fix (by norm_num) (by norm_num) ho hl hopening hlast
  obtain ⟨loss, hloss, hval, hheld⟩ := dayLoss_of_fix hr
  refine ⟨loss, hloss, hheld, hval ▸ le_max_left _ _, ?_⟩
  intro q hq hqheld
  rw [hval]
  exact (le_of_fix (by norm_num) hqheld hq hr).trans (le_max_right _ _)

/-! ### The state a run leaves behind -/

/-- A state that was read follows the equities seen. -/
structure Follows (seen : List (String × Finite)) (state : RiskState) : Prop where
  storable : Storable state
  held : ∀ e ∈ seen, defaultContext.Holds e.2.val ∧ 0 ≤ e.2.val
  initial : state.initialEquity = seen.head?.map fun e => .finite e.2
  current : ∀ e, lastNonzero seen = some e → state.currentEquity = some (.finite e)
  opening : ∀ date, state.dailyEquityOpenByDate.lookup date = (seen.lookup date).map .finite
  loss : ∀ date e, lastOfDay seen date = some e → ∃ (opening loss : Finite),
    seen.lookup date = some opening ∧ state.realizedLossByDate.lookup date = some (.finite loss) ∧
      ∀ q ≤ opening.val - e.val, defaultContext.Holds q → q ≤ loss.val

theorem lastOfDay_concat {seen : List (String × Finite)} {day date : String} {equity : Finite} :
    lastOfDay (seen ++ [(day, equity)]) date =
      if date = day then some equity else lastOfDay seen date := by
  rw [lastOfDay, List.reverse_concat, List.lookup_cons]
  by_cases h : date = day
  · rw [if_pos h, beq_iff_eq.mpr h]
  · rw [if_neg h, beq_eq_false_iff_ne.mpr h]
    rfl

theorem lastNonzero_concat {seen : List (String × Finite)} {day : String} {equity : Finite} :
    lastNonzero (seen ++ [(day, equity)]) =
      if equity.val = 0 then lastNonzero seen else some equity := by
  rw [lastNonzero, List.reverse_concat, List.find?_cons]
  by_cases h : equity.val = 0 <;> simp [h, lastNonzero]

theorem follows_empty : Follows [] emptyRiskState where
  storable := ⟨by simp [emptyRiskState], by simp [emptyRiskState], by simp [emptyRiskState],
    by simp [emptyRiskState]⟩
  held := by simp
  initial := rfl
  current := by simp [lastNonzero]
  opening := by simp [emptyRiskState]
  loss := by simp [lastOfDay]

/-- A state that was read and follows a run is not changed by a snapshot without equity. -/
theorem nextRiskState_none {state : RiskState} {today : String}
    (hpositive : ∀ n, state.initialEquity = some n → ∃ p : Positive, n = .finite p.toFinite) :
    nextRiskState defaultContext state today none = .ok state := by
  have hinitial : numberOr state.initialEquity none = state.initialEquity := by
    cases h : state.initialEquity with
    | none => rfl
    | some n =>
        obtain ⟨p, rfl⟩ := hpositive n h
        simp [numberOr, p.pos.ne']
  unfold nextRiskState
  simp only [Option.map_none, hinitial]
  rfl

theorem forall_numberOr {P : Number → Prop} {value other : Option Number}
    (hvalue : ∀ n ∈ value, P n) (hother : ∀ n ∈ other, P n) : ∀ n ∈ numberOr value other, P n := by
  unfold numberOr
  split
  · exact hother
  · split
    · exact hother
    · exact hvalue
  · exact hvalue

/-- **One more equity**: the next state follows the longer run. -/
theorem nextRiskState_some {seen : List (String × Finite)} {state : RiskState} {today : String}
    {equity : Finite} (h : Follows seen state)
    (hpositive : ∀ n, state.initialEquity = some n → ∃ p : Positive, n = .finite p.toFinite)
    (hday : isPublicKey (.str today) = true) (hheld : defaultContext.Holds equity.val)
    (hnonneg : 0 ≤ equity.val) :
    ∃ next, nextRiskState defaultContext state today (some equity) = .ok next ∧
      Follows (seen ++ [(today, equity)]) next := by
  obtain ⟨opening, hopening⟩ : ∃ o, (seen.lookup today).getD equity = o := ⟨_, rfl⟩
  have hopeningHeld : defaultContext.Holds opening.val ∧ 0 ≤ opening.val := by
    rw [← hopening]
    cases ho : seen.lookup today with
    | none => exact ⟨hheld, hnonneg⟩
    | some o =>
        obtain ⟨before, after, hseen, _⟩ := List.lookup_eq_some_iff.mp ho
        exact h.held (today, o) (by simp [hseen])
  obtain ⟨loss, hloss, hlossHeld, _, hlossLeast⟩ :=
    dayLoss_spec hopeningHeld.1 hheld hopeningHeld.2 hnonneg
  have hlookup : (ByDate.setDefault state.dailyEquityOpenByDate today (.finite equity)).lookup today
      = some (.finite opening) := by
    rw [ByDate.lookup_setDefault_self, h.opening, ← hopening]
    cases seen.lookup today <;> rfl
  have hseenToday : (seen ++ [(today, equity)]).lookup today = some opening := by
    rw [List.lookup_append, ← hopening]
    cases seen.lookup today <;> simp
  have hnext : nextRiskState defaultContext state today (some equity) = .ok
      ⟨ByDate.put state.realizedLossByDate today (.finite loss),
        ByDate.setDefault state.dailyEquityOpenByDate today (.finite equity),
        numberOr state.initialEquity (some (.finite equity)),
        numberOr (some (.finite equity)) state.currentEquity⟩ := by
    simp only [nextRiskState, Option.map_some, hlookup, Option.getD_some, hloss]
    rfl
  have hequity : ∀ n ∈ some (Number.finite equity), HeldNumber n := by
    rintro n ⟨⟩
    exact ⟨equity, rfl, hheld⟩
  refine ⟨_, hnext, ?_⟩
  have hinitial : numberOr state.initialEquity (some (.finite equity)) =
      (seen ++ [(today, equity)]).head?.map fun e => .finite e.2 := by
    cases hseen : seen with
    | nil => rw [h.initial, hseen]; rfl
    | cons e rest =>
        have he : state.initialEquity = some (.finite e.2) := by rw [h.initial, hseen]; rfl
        obtain ⟨p, hp⟩ := hpositive _ he
        have hne : e.2.val ≠ 0 := by
          rw [Number.finite.inj hp]
          exact p.pos.ne'
        simp [he, numberOr, hne]
  exact {
    storable := {
      losses := fun entry hentry => by
        rcases ByDate.mem_put hentry with hold | rfl
        · exact h.storable.losses entry hold
        · exact ⟨hday, loss, rfl, hlossHeld⟩
      dailyEquity := fun entry hentry => by
        rcases ByDate.mem_setDefault hentry with hold | rfl
        · exact h.storable.dailyEquity entry hold
        · exact ⟨hday, equity, rfl, hheld⟩
      initialEquity := forall_numberOr h.storable.initialEquity hequity
      currentEquity := forall_numberOr hequity h.storable.currentEquity }
    held := fun e he => by
      rcases List.mem_append.mp he with hold | hnew
      · exact h.held e hold
      · rw [List.mem_singleton.mp hnew]
        exact ⟨hheld, hnonneg⟩
    initial := hinitial
    current := fun e he => by
      rw [lastNonzero_concat] at he
      by_cases hzero : equity.val = 0
      · rw [if_pos hzero] at he
        rw [h.current e he]
        simp [numberOr, hzero]
      · rw [if_neg hzero] at he
        cases he
        simp [numberOr, hzero]
    opening := fun date => by
      by_cases hdate : date = today
      · rw [hdate, hlookup, hseenToday]
        rfl
      · have hother : (date == today) = false := by simpa using hdate
        rw [ByDate.lookup_setDefault_other _ _ hdate, h.opening, List.lookup_append]
        simp [List.lookup_cons, hother]
    loss := fun date e he => by
      rw [lastOfDay_concat] at he
      by_cases hdate : date = today
      · rw [if_pos hdate] at he
        cases he
        rw [hdate]
        exact ⟨opening, loss, hseenToday, ByDate.lookup_put_self _ _ _, hlossLeast⟩
      · rw [if_neg hdate] at he
        obtain ⟨opening', loss', hopening', hloss', hleast⟩ := h.loss date e he
        refine ⟨opening', loss', ?_, ?_, hleast⟩
        · rw [List.lookup_append, hopening']
          rfl
        · rw [ByDate.lookup_put_other _ _ hdate, hloss'] }

section File

variable [Runtime]

/-- If the file can be read, the state in it follows the equities seen. -/
def Tracks (seen : List (String × Finite)) (file : Option Value) : Prop :=
  ∀ state, readRiskState file = .ok state → Follows seen state

theorem tracks_none : Tracks [] none := by
  intro state hstate
  rw [← Except.ok.inj hstate]
  exact follows_empty

/-- **One update of the file.** -/
theorem Tracks.fileStep {seen : List (String × Finite)} {file : Option Value}
    {s : Instant × Dict} (h : Tracks seen file) (hfolds : FoldsIn s.2) :
    Tracks (seen ++ equitiesSeen [s]) (fileStep file s) := by
  unfold YtmExecutor.fileStep
  cases hread : readRiskState file with
  | error e =>
      -- An unreadable file is never written again.
      intro state hstate
      rw [updateRiskStateFromReconciliationSnapshot, hread] at hstate
      have hfile : readRiskState file = .ok state := hstate
      rw [hread] at hfile
      cases hfile
  | ok state =>
      have hfollows := h state hread
      have hpositive := fun n => readRiskState_initialEquity hread (n := n)
      obtain ⟨next, hnext, hfollowsNext⟩ :
          ∃ next, nextRiskState defaultContext state (utcDate s.1) (equityOf s.2) = .ok next ∧
            Follows (seen ++ equitiesSeen [s]) next := by
        cases he : equityOf s.2 with
        | none =>
            refine ⟨state, nextRiskState_none hpositive, ?_⟩
            simpa [equitiesSeen, he] using hfollows
        | some equity =>
            have hnext := nextRiskState_some hfollows hpositive (isPublicKey_utcDate s.1)
              (hfolds.held equity he) (hfolds.nonneg he)
            simpa [equitiesSeen, he] using hnext
      obtain ⟨content, hcontent, hback⟩ := readRiskState_writeRiskState hfollowsNext.storable
      rw [update_eq_ok.mpr
        ⟨state, equityOf s.2, hread, snapshotUsdEquity_of_foldsIn hfolds, hnext, hcontent⟩]
      intro state' hstate'
      rw [hback state' hstate']
      exact hfollowsNext

/-- **A run of updates**: the file tracks every equity the run reports. -/
theorem tracks_fileAfter {snapshots : List (Instant × Dict)}
    (hfolds : ∀ s ∈ snapshots, FoldsIn s.2) :
    Tracks (equitiesSeen snapshots) (fileAfter snapshots) := by
  suffices hrun : ∀ (seen : List (String × Finite)) (file : Option Value), Tracks seen file →
      Tracks (seen ++ equitiesSeen snapshots) (snapshots.foldl fileStep file) by
    exact hrun [] none tracks_none
  induction snapshots with
  | nil =>
      intro seen file htracks
      simpa [equitiesSeen] using htracks
  | cons s rest ih =>
      intro seen file htracks
      have hstep := htracks.fileStep (hfolds s List.mem_cons_self)
      have hrest := ih (fun s hs => hfolds s (List.mem_cons_of_mem _ hs)) _ _ hstep
      have hsplit : equitiesSeen (s :: rest) = equitiesSeen [s] ++ equitiesSeen rest := by
        simp [equitiesSeen, List.filterMap_cons]
        cases equityOf s.2 <;> rfl
      rw [List.foldl_cons, hsplit, ← List.append_assoc]
      exact hrest

/-! ### The stops -/

/-- The limits of a policy need no rounding. -/
def LimitsHeld (policy : RiskPolicy) : Prop :=
  ∀ limit : Finite, some (Number.finite limit) ∈ [policy.maxDailyLoss, policy.maxTotalDrawdown] →
    defaultContext.Holds limit.val

omit [Runtime] in
/-- A gate compares an amount with a limit it has reached. -/
theorem ge_of_limitReached {amount : Finite} {exact : ℚ} {limit : Number}
    (h : LimitReached exact limit)
    (hle : ∀ q : Finite, limit = .finite q → q.val ≤ exact → q.val ≤ amount.val) :
    Number.ge (.finite amount) limit = .ok true := by
  cases limit with
  | finite q => rw [Number.ge_finite, decide_eq_true (hle q rfl h)]
  | infinity negative =>
      have hneg : negative = true := h
      rw [hneg]
      rfl
  | nan signaling => cases h

omit [Runtime] in
theorem dailyLossGate_of_reached {policy : RiskPolicy} {state : RiskState} {today : String}
    {limit : Number} {loss : Finite} (hlimit : policy.maxDailyLoss = some limit)
    (hloss : state.realizedLossByDate.lookup today = some (.finite loss))
    (hge : Number.ge (.finite loss) limit = .ok true) :
    dailyLossGate .real policy state today ≠ .ok none := by
  simp [dailyLossGate, hlimit, hloss, hge, raiseSignal, bind, Except.bind, pure, Except.pure]

omit [Runtime] in
theorem totalDrawdownGate_of_reached {policy : RiskPolicy} {state : RiskState} {limit : Number}
    {first last : Finite} (hlimit : policy.maxTotalDrawdown = some limit)
    (hinitial : state.initialEquity = some (.finite first))
    (hcurrent : state.currentEquity = some (.finite last))
    (hge : ∀ drawdown, first.sub defaultContext last = .ok drawdown →
      Number.ge (.finite drawdown) limit = .ok true) :
    totalDrawdownGate defaultContext .real policy state ≠ .ok none := by
  cases hsub : first.sub defaultContext last with
  | error e =>
      simp [totalDrawdownGate, hlimit, hinitial, hcurrent, Number.sub, hsub, raiseSignal,
        Except.map, bind, Except.bind]
  | ok drawdown =>
      simp [totalDrawdownGate, hlimit, hinitial, hcurrent, Number.sub, hsub, raiseSignal,
        Except.map, bind, Except.bind, pure, Except.pure, hge drawdown hsub]

omit [Runtime] in
/-- Where the gates let a real command pass, the state is below the limits. -/
theorem Follows.belowLimits {policy : RiskPolicy} {seen : List (String × Finite)}
    {state : RiskState} {today : String} (h : Follows seen state) (hlimits : LimitsHeld policy)
    (hdaily : dailyLossGate .real policy state today = .ok none)
    (htotal : totalDrawdownGate defaultContext .real policy state = .ok none) :
    BelowLimits policy seen today where
  daily last hlast := by
    rintro ⟨limit, opening, hlimit, hopening, hreached⟩
    obtain ⟨opening', loss, hopening', hloss, hleast⟩ := h.loss _ _ hlast
    obtain rfl : opening = opening' := Option.some.inj (hopening.symm.trans hopening')
    refine dailyLossGate_of_reached hlimit hloss ?_ hdaily
    exact ge_of_limitReached hreached fun q hq hle =>
      hleast q.val hle (hlimits q (by simp [← hq, hlimit]))
  total last hlast := by
    rintro ⟨limit, date, first, hlimit, hfirst, hreached⟩
    have hinitial := h.initial
    rw [hfirst] at hinitial
    refine totalDrawdownGate_of_reached hlimit hinitial (h.current _ hlast) ?_ htotal
    intro drawdown hdrawdown
    exact ge_of_limitReached hreached fun q hq hle =>
      le_of_fix (by norm_num) (hlimits q (by simp [← hq, hlimit])) hle
        (Finite.fix_eq_ok.mp hdrawdown)

/-- **The stops trip** after every run of snapshots that can be folded in, unless the last
equity is zero and the policy has a total limit. -/
theorem drawdown_stops_trip {policy : RiskPolicy} {snapshots : List (Instant × Dict)}
    (hfolds : ∀ s ∈ snapshots, FoldsIn s.2) (hlimits : LimitsHeld policy)
    (hzero : ∀ e, (equitiesSeen snapshots).getLast? = some e → e.2.val = 0 →
      policy.maxTotalDrawdown = none) :
    StopsTrip policy snapshots := by
  intro state command now last hstate hlast hreached hpasses
  have hgates := evaluate_passes_iff.mp hpasses
  have hbelow := (tracks_fileAfter hfolds state hstate).belowLimits hlimits hgates.dailyLoss
    hgates.totalDrawdown
  obtain ⟨before, hseen⟩ := List.getLast?_eq_some_iff.mp hlast
  rcases hreached with hdaily | htotal
  · refine hbelow.daily last ?_ hdaily
    rw [hseen, lastOfDay_concat, if_pos rfl]
  · have hne : last.val ≠ 0 := fun h => by
      obtain ⟨limit, _, _, hlimit, _⟩ := htotal
      rw [hzero _ hlast h] at hlimit
      cases hlimit
    refine hbelow.total last ?_ htotal
    rw [hseen, lastNonzero_concat, if_neg hne]

end File

/-! ### The equity the stop does not see -/

namespace Sample

def snapshot (usdEquity : String) : Dict :=
  [("balances", .list [.dict [("currency", "USDT"), ("usdEquity", usdEquity)]])]

/-- A minute passes between the two snapshots. -/
def twoSnapshots (first last : String) : List (Instant × Dict) :=
  [(now, snapshot first), (now + 60000000, snapshot last)]

def totalPolicy : RiskPolicy := { policy with maxDailyLoss := none }

theorem foldsIn_snapshot {usdEquity : String} {n : ℤ}
    (h : @dollarEquities runtime (snapshot usdEquity) = .ok [.ofInt n]) (hn : 0 ≤ n)
    (hheld : defaultContext.Holds (Finite.ofInt n).val) : @FoldsIn runtime (snapshot usdEquity) := by
  refine @FoldsIn.mk runtime _ ⟨_, h, fun e he => ?_⟩ fun e he => ?_
  · rw [List.mem_singleton.mp he]
    exact Int.cast_nonneg hn
  · unfold equityOf at he
    rw [h] at he
    rw [← Option.some.inj he]
    exact hheld

/-- A run whose last equity reaches the total limit, and whose stored state lets the sample
command pass. -/
theorem not_stopsTrip {first last : String} {n m : ℤ}
    (hpass : (@readRiskState runtime (@fileAfter runtime (twoSnapshots first last)) >>=
      fun state => @evaluateCommandRisk runtime defaultContext (command payload) .real totalPolicy
        state (now + 60000000)) = .ok pass)
    (hseen : @equitiesSeen runtime (twoSnapshots first last) =
      [(utcDate now, .ofInt n), (utcDate (now + 60000000), .ofInt m)])
    (hlimit : 200 ≤ n - m) : ¬@StopsTrip runtime totalPolicy (twoSnapshots first last) := by
  intro h
  obtain ⟨state, hstate, hdecision⟩ := bind_eq_ok.mp hpass
  refine h state (command payload) (now + 60000000) (.ofInt m) hstate ?_ ?_ ⟨_, hdecision, rfl⟩
  · rw [hseen]
    rfl
  · refine Or.inr ⟨_, utcDate now, .ofInt n, rfl, by rw [hseen]; rfl, ?_⟩
    show ((200 : ℤ) : ℚ) ≤ (n : ℚ) - (m : ℚ)
    exact_mod_cast hlimit

end Sample

theorem drawdown_stops_trip_sample :
    @StopsTrip Sample.runtime Sample.policy (Sample.twoSnapshots "1000" "750") := by
  refine @drawdown_stops_trip Sample.runtime _ _ ?_ ?_ ?_
  · intro s hs
    simp only [Sample.twoSnapshots, List.mem_cons, List.not_mem_nil, or_false] at hs
    rcases hs with rfl | rfl
    · exact Sample.foldsIn_snapshot (n := 1000) (by decide +kernel) (by norm_num)
        (by decide +kernel)
    · exact Sample.foldsIn_snapshot (n := 750) (by decide +kernel) (by norm_num)
        (by decide +kernel)
  · intro limit hlimit
    have hcases : limit = .ofInt 100 ∨ limit = .ofInt 200 := by
      simpa [Sample.policy] using hlimit
    rcases hcases with rfl | rfl <;> decide +kernel
  · have hseen : @equitiesSeen Sample.runtime (Sample.twoSnapshots "1000" "750") =
        [(utcDate Sample.now, .ofInt 1000), (utcDate Sample.now, .ofInt 750)] := by
      decide +kernel
    intro e he hzero
    rw [hseen] at he
    rw [← Option.some.inj he] at hzero
    exact absurd hzero (by decide +kernel)

/-- Two runs after which 1000 dollars are gone and a total limit of 200 lets a real command
pass: the last equity is zero, or below. -/
theorem drawdown_stop_missed :
    ¬@StopsTrip Sample.runtime Sample.totalPolicy (Sample.twoSnapshots "1000" "0") ∧
    ¬@StopsTrip Sample.runtime Sample.totalPolicy (Sample.twoSnapshots "1000" "-500") :=
  ⟨Sample.not_stopsTrip (n := 1000) (m := 0) (by decide +kernel) (by decide +kernel) (by norm_num),
    Sample.not_stopsTrip (n := 1000) (m := -500) (by decide +kernel) (by decide +kernel)
      (by norm_num)⟩

end YtmExecutor
