/-
Whether the stored risk state survives its file.

The writer rounds to the default context and takes any number; the readers want amounts
that are not negative and equities that are positive.  So a written state comes back
exactly when it is `ReadsBack`: nothing in it was rounded, and its equities are positive.

A run of updates leaves such a state behind exactly when every equity it stores has at
most 28 digits and the first one is not zero.  An equity the context cannot round at all
is not stored: the update raises, and the file stays as it is.
-/
import YtmExecutor.Drawdown

namespace YtmExecutor

open Python Decimal

/-! ### States that come back -/

/-- An amount that is read back as it was. -/
def KeptAmount (n : Number) : Prop :=
  ∃ d : Finite, n = .finite d ∧ defaultContext.Holds d.val ∧ 0 ≤ d.val

/-- An equity that is read back as it was. -/
def KeptEquity (n : Number) : Prop :=
  ∃ d : Finite, n = .finite d ∧ defaultContext.Holds d.val ∧ 0 < d.val

structure ReadsBack (state : RiskState) : Prop where
  losses : ∀ entry ∈ state.realizedLossByDate, KeptAmount entry.2
  dailyEquity : ∀ entry ∈ state.dailyEquityOpenByDate, KeptAmount entry.2
  initialEquity : ∀ n ∈ state.initialEquity, KeptEquity n
  currentEquity : ∀ n ∈ state.currentEquity, KeptEquity n

section File

variable [Runtime]

theorem toFinite_numberText {d : Finite} {text : String}
    (h : numberText defaultContext (.finite d) = .ok text) (label : String) :
    (Value.str text).toFinite label = .ok d ↔ defaultContext.Holds d.val := by
  obtain ⟨r, hr, hval, hheld⟩ := toFinite_of_numberText h label
  rw [hr]
  constructor
  · intro heq
    rw [← Except.ok.inj heq]
    exact hheld
  · intro heq
    rw [rounded28_of_fix heq] at hval
    rcases r with ⟨r, _⟩
    cases hval
    rfl

/-- Amounts come back exactly when each of them does. -/
theorem readAmounts_eq_iff {amounts : List (String × Number)} {entries : Dict}
    (h : amountEntries defaultContext amounts = .ok entries) (fieldName : String) :
    readAmounts fieldName entries = .ok amounts ↔ ∀ entry ∈ amounts, KeptAmount entry.2 := by
  induction amounts generalizing entries with
  | nil =>
      rw [← Except.ok.inj h]
      simp [readAmounts]
  | cons entry rest ih =>
      obtain ⟨date, amount⟩ := entry
      obtain ⟨text, htext, h⟩ := bind_eq_ok.mp h
      obtain ⟨entries', hentries, h⟩ := bind_eq_ok.mp h
      rw [← Except.ok.inj h, readAmounts, List.forall_mem_cons, ← ih hentries]
      constructor
      · intro hread
        obtain ⟨d, hd, hread⟩ := bind_eq_ok.mp hread
        obtain ⟨rest', hrest, hread⟩ := bind_eq_ok.mp hread
        obtain ⟨hentry, rfl⟩ := List.cons.inj (Except.ok.inj hread)
        obtain rfl : Number.finite d = amount := congrArg Prod.snd hentry
        obtain ⟨hfinite, hnonneg⟩ := nonNegativeDecimal_eq_ok.mp hd
        exact ⟨⟨d, rfl, (toFinite_numberText htext _).mp hfinite, hnonneg⟩, hrest⟩
      · rintro ⟨⟨d, hamount, hheld, hnonneg⟩, hrest⟩
        obtain rfl : amount = .finite d := hamount
        have hd := (toFinite_numberText htext (fieldName ++ "." ++ date)).mpr hheld
        rw [bind_eq_ok]
        refine ⟨d, nonNegativeDecimal_eq_ok.mpr ⟨hd, hnonneg⟩, ?_⟩
        rw [hrest]
        rfl

/-- And so does an equity. -/
theorem optionalPositive_eq_iff {equity : Option Number} {v : Value}
    (h : numberValue defaultContext equity = .ok v) (fieldName : String) :
    optionalPositive v fieldName = .ok equity ↔ ∀ n ∈ equity, KeptEquity n := by
  cases equity with
  | none =>
      rw [← Except.ok.inj h]
      simp [optionalPositive]
  | some n =>
      obtain ⟨text, htext, h⟩ := bind_eq_ok.mp h
      rw [← Except.ok.inj h]
      have hall : (∀ m ∈ some n, KeptEquity m) ↔ KeptEquity n := by simp
      have hread : optionalPositive (.str text) fieldName =
          (do return some (.finite (← (Value.str text).toPositive fieldName).toFinite)) := rfl
      rw [hall, hread, bind_eq_ok]
      constructor
      · rintro ⟨p, hp, heq⟩
        obtain rfl : Number.finite p.toFinite = n := Option.some.inj (Except.ok.inj heq)
        rw [Value.toPositive_eq_ok, toFinite_numberText htext] at hp
        exact ⟨p.toFinite, rfl, hp, p.pos⟩
      · rintro ⟨d, rfl, hheld, hpos⟩
        refine ⟨⟨d, hpos⟩, ?_, rfl⟩
        rw [Value.toPositive_eq_ok, toFinite_numberText htext]
        exact hheld

/-- **A written state is read back as itself exactly when it is `ReadsBack`.** -/
theorem readRiskState_eq_iff {state : RiskState} {content : Value}
    (h : writeRiskState defaultContext state = .ok content) :
    readRiskState (some content) = .ok state ↔ ReadsBack state := by
  obtain ⟨current, daily, initial, losses, hwritten, rfl⟩ := writeRiskState_eq_ok.mp h
  rw [readRiskState_stateContent hwritten.guard, readAmounts_eq_iff hwritten.realizedLoss,
    readAmounts_eq_iff hwritten.dailyEquity, optionalPositive_eq_iff hwritten.initialEquity,
    optionalPositive_eq_iff hwritten.currentEquity]
  constructor
  · rintro ⟨hlosses, hdaily, hinitial, hcurrent⟩
    exact ⟨hlosses, hdaily, hinitial, hcurrent⟩
  · intro h
    exact ⟨h.losses, h.dailyEquity, h.initialEquity, h.currentEquity⟩

end File

/-! ### One equity -/

theorem numberOr_finite (d : Finite) (other : Option Number) :
    numberOr (some (.finite d)) other = if d.val = 0 then other else some (.finite d) := rfl

/-- A state that was stored: it can be written, and comes back. -/
structure Stored (state : RiskState) : Prop where
  writable : Writable state
  readsBack : ReadsBack state

/-- What a day opened with: an amount of the file, or this equity. -/
theorem Stored.opening {state : RiskState} {equity : Finite} {r : ℚ}
    (h : Stored state) (today : String) (hr : defaultContext.fix equity.val = .ok r)
    (hnonneg : 0 ≤ equity.val) :
    ∃ opening : Finite, (ByDate.setDefault state.dailyEquityOpenByDate today
        (.finite equity)).lookup today = some (.finite opening) ∧ 0 ≤ opening.val ∧
      ∃ ro, defaultContext.fix opening.val = .ok ro := by
  rw [ByDate.lookup_setDefault_self]
  cases hlookup : state.dailyEquityOpenByDate.lookup today with
  | none => exact ⟨equity, rfl, hnonneg, r, hr⟩
  | some amount =>
      obtain ⟨before, after, hamounts, _⟩ := List.lookup_eq_some_iff.mp hlookup
      obtain ⟨d, rfl, hheld, hd⟩ := h.readsBack.dailyEquity (today, amount) (by simp [hamounts])
      exact ⟨d, rfl, hd, d.val, hheld⟩

/-- **One more equity**: the next state can be written, and it comes back exactly when the
equity is not rounded, nor zero where it is the first. -/
theorem Stored.next {state : RiskState} {today : String} {equity : Finite} {r : ℚ}
    (h : Stored state) (hday : isPublicKey (.str today) = true)
    (hr : defaultContext.fix equity.val = .ok r) (hnonneg : 0 ≤ equity.val) :
    ∃ next, nextRiskState defaultContext state today (some equity) = .ok next ∧ Writable next ∧
      next.initialEquity ≠ none ∧
      (ReadsBack next ↔ defaultContext.Holds equity.val ∧
        (state.initialEquity = none → equity.val ≠ 0)) := by
  have hequity : ∀ n ∈ some (Number.finite equity), WritableNumber n := by
    intro n hn
    exact ⟨equity, (Option.some.inj hn).symm, r, hr⟩
  obtain ⟨opening, hopening, hnonnegOpening, ro, hro⟩ := h.opening today hr hnonneg
  obtain ⟨loss, hloss, hlossHeld, hlossNonneg, _⟩ := dayLoss_spec hro hr hnonnegOpening hnonneg
  have hnext : nextRiskState defaultContext state today (some equity) = .ok
      ⟨ByDate.put state.realizedLossByDate today (.finite loss),
        ByDate.setDefault state.dailyEquityOpenByDate today (.finite equity),
        numberOr state.initialEquity (some (.finite equity)),
        numberOr (some (.finite equity)) state.currentEquity⟩ := by
    simp only [nextRiskState, Option.map_some, hopening, Option.getD_some, hloss]
    rfl
  refine ⟨_, hnext, ⟨?_, ?_, ?_, ?_⟩, ?_, ?_⟩
  · intro entry hentry
    rcases ByDate.mem_put hentry with hold | rfl
    · exact h.writable.losses entry hold
    · exact ⟨hday, loss, rfl, loss.val, hlossHeld⟩
  · intro entry hentry
    rcases ByDate.mem_setDefault hentry with hold | rfl
    · exact h.writable.dailyEquity entry hold
    · exact ⟨hday, equity, rfl, r, hr⟩
  · exact forall_numberOr h.writable.initialEquity hequity
  · exact forall_numberOr hequity h.writable.currentEquity
  · cases hinitial : state.initialEquity with
    | none => simp [numberOr]
    | some n =>
        obtain ⟨d, rfl, _, hpos⟩ := h.readsBack.initialEquity n hinitial
        simp [numberOr_finite, hpos.ne']
  · constructor
    · intro hback
      have hcurrent := hback.currentEquity
      have hinitial := hback.initialEquity
      dsimp only at hcurrent hinitial
      refine ⟨?_, ?_⟩
      · by_cases hzero : equity.val = 0
        · rw [hzero]
          exact zero_held
        · rw [numberOr_finite, if_neg hzero] at hcurrent
          obtain ⟨d, hd, hheld, _⟩ := hcurrent _ rfl
          rwa [Number.finite.inj hd]
      · intro hnone
        rw [hnone] at hinitial
        obtain ⟨d, hd, _, hpos⟩ := hinitial (.finite equity) rfl
        rw [Number.finite.inj hd]
        exact hpos.ne'
    · rintro ⟨hheld, hfirst⟩
      have hamount : KeptAmount (.finite equity) := ⟨equity, rfl, hheld, hnonneg⟩
      refine ⟨?_, ?_, ?_, ?_⟩
      · intro entry hentry
        rcases ByDate.mem_put hentry with hold | rfl
        · exact h.readsBack.losses entry hold
        · exact ⟨loss, rfl, hlossHeld, hlossNonneg⟩
      · intro entry hentry
        rcases ByDate.mem_setDefault hentry with hold | rfl
        · exact h.readsBack.dailyEquity entry hold
        · exact hamount
      · intro n hn
        cases hinitial : state.initialEquity with
        | none =>
            rw [hinitial] at hn
            obtain rfl : Number.finite equity = n := Option.some.inj hn
            exact ⟨equity, rfl, hheld, lt_of_le_of_ne hnonneg (hfirst hinitial).symm⟩
        | some first =>
            obtain ⟨d, rfl, hd, hpos⟩ := h.readsBack.initialEquity first hinitial
            rw [hinitial, numberOr_finite, if_neg hpos.ne'] at hn
            obtain rfl : Number.finite d = n := Option.some.inj hn
            exact ⟨d, rfl, hd, hpos⟩
      · intro n hn
        by_cases hzero : equity.val = 0
        · rw [numberOr_finite, if_pos hzero] at hn
          exact h.readsBack.currentEquity n hn
        · rw [numberOr_finite, if_neg hzero] at hn
          obtain rfl : Number.finite equity = n := Option.some.inj hn
          exact ⟨equity, rfl, hheld, lt_of_le_of_ne hnonneg (Ne.symm hzero)⟩

/-! ### A run of updates -/

/-- Something holds of every element of a list and those before it. -/
def AtEvery {α : Type} (P : List α → α → Prop) (l : List α) : Prop :=
  ∀ before x after, l = before ++ x :: after → P before x

theorem atEvery_nil {α : Type} {P : List α → α → Prop} : AtEvery P [] := by
  intro before x after h
  simp at h

theorem atEvery_concat {α : Type} {P : List α → α → Prop} {l : List α} {x : α} :
    AtEvery P (l ++ [x]) ↔ AtEvery P l ∧ P l x := by
  constructor
  · intro h
    refine ⟨?_, h l x [] rfl⟩
    intro before y after hl
    exact h before y (after ++ [x]) (by simp [hl])
  · rintro ⟨hall, hlast⟩ before y after h
    rcases List.eq_nil_or_concat after with rfl | ⟨after', z, rfl⟩
    · obtain ⟨rfl, hx⟩ := List.append_inj' h rfl
      obtain rfl : x = y := List.singleton_inj.mp hx
      exact hlast
    · have hsplit : l ++ [x] = (before ++ y :: after') ++ [z] := by simp [h]
      exact hall before y after' (List.append_inj' hsplit rfl).1

section Run

variable [Runtime]

/-- The equity an update stores: what the snapshot reports, unless it overflows. -/
def storedEquity (snapshot : Dict) : Option Finite :=
  match snapshotUsdEquity snapshot with
  | .ok (some equity) =>
      match defaultContext.fix equity.val with
      | .ok _ => some equity
      | .error _ => none
  | _ => none

def storedEquities (snapshots : List (Instant × Dict)) : List Finite :=
  snapshots.filterMap fun s => storedEquity s.2

/-- If the update after a run of snapshots is accepted, the file just written is read as the
state it was written for. -/
def SurvivesFile (before : List (Instant × Dict)) (s : Instant × Dict) : Prop :=
  ∀ state content, updateRiskStateFromReconciliationSnapshot defaultContext (fileAfter before)
      s.2 s.1 = .ok (state, content) → readRiskState (some content) = .ok state

/-- The equity stored, if any, has at most 28 digits, and the first one is not zero. -/
def EquityKept (before : List (Instant × Dict)) (s : Instant × Dict) : Prop :=
  ∀ equity, storedEquity s.2 = some equity →
    defaultContext.Holds equity.val ∧ (storedEquities before = [] → equity.val ≠ 0)

theorem snapshotUsdEquity_nonneg {snapshot : Dict} {equity : Finite}
    (h : snapshotUsdEquity snapshot = .ok (some equity)) : 0 ≤ equity.val := by
  obtain ⟨candidates, hcandidates, h⟩ := bind_eq_ok.mp h
  cases candidates with
  | nil => cases h
  | cons candidate rest =>
      rw [← Option.some.inj (Except.ok.inj h)]
      exact (mapM_nonNegative_iff.mp hcandidates).2 _ (foldl_larger_mem rest candidate)

theorem storedEquity_eq_some {snapshot : Dict} {equity : Finite} :
    storedEquity snapshot = some equity ↔
      snapshotUsdEquity snapshot = .ok (some equity) ∧
        ∃ r, defaultContext.fix equity.val = .ok r := by
  unfold storedEquity
  constructor
  · intro h
    split at h
    · rename_i e he
      split at h
      · rename_i r hr
        obtain rfl : e = equity := Option.some.inj h
        exact ⟨he, r, hr⟩
      · cases h
    · cases h
  · rintro ⟨hequity, r, hr⟩
    simp only [hequity, hr]

/-- The state in the file after a run whose equities were kept. -/
structure Current (before : List (Instant × Dict)) (state : RiskState) : Prop where
  read : readRiskState (fileAfter before) = .ok state
  stored : Stored state
  first : state.initialEquity = none ↔ storedEquities before = []

/-- **An update that stores an equity.** -/
theorem Current.update_some {before : List (Instant × Dict)} {state : RiskState}
    {s : Instant × Dict} {equity : Finite} (h : Current before state)
    (hequity : storedEquity s.2 = some equity) :
    ∃ next content, updateRiskStateFromReconciliationSnapshot defaultContext (fileAfter before)
        s.2 s.1 = .ok (next, content) ∧ Writable next ∧ next.initialEquity ≠ none ∧
      (readRiskState (some content) = .ok next ↔ ReadsBack next) ∧
      (ReadsBack next ↔ EquityKept before s) := by
  obtain ⟨hsnapshot, r, hr⟩ := storedEquity_eq_some.mp hequity
  obtain ⟨next, hnext, hwritable, hinitial, hback⟩ :=
    h.stored.next (isPublicKey_utcDate s.1) hr (snapshotUsdEquity_nonneg hsnapshot)
  obtain ⟨content, hcontent⟩ := writeRiskState_of_writable hwritable
  refine ⟨next, content, ?_, hwritable, hinitial, readRiskState_eq_iff hcontent, ?_⟩
  · exact update_eq_ok.mpr ⟨state, some equity, h.read, hsnapshot, hnext, hcontent⟩
  · rw [hback, h.first]
    unfold EquityKept
    simp only [hequity, Option.some.injEq, forall_eq']

/-- An update that stores none writes the state it has read. -/
theorem Current.update_none {before : List (Instant × Dict)} {state next : RiskState}
    {s : Instant × Dict} {content : Value} (h : Current before state)
    (hequity : storedEquity s.2 = none)
    (hupdate : updateRiskStateFromReconciliationSnapshot defaultContext (fileAfter before)
      s.2 s.1 = .ok (next, content)) :
    next = state ∧ readRiskState (some content) = .ok state := by
  obtain ⟨current, reported, hread, hsnapshot, hnext, hcontent⟩ := update_eq_ok.mp hupdate
  obtain rfl : state = current := Except.ok.inj (h.read.symm.trans hread)
  cases reported with
  | none =>
      rw [nextRiskState_none fun n hn => readRiskState_initialEquity h.read hn] at hnext
      obtain rfl := Except.ok.inj hnext
      exact ⟨rfl, (readRiskState_eq_iff hcontent).mpr h.stored.readsBack⟩
  | some equity =>
      -- The equity overflows, and then the file cannot be written.
      exfalso
      have hoverflow : ¬∃ r, defaultContext.fix equity.val = .ok r := by
        intro hr
        rw [storedEquity_eq_some.mpr ⟨hsnapshot, hr⟩] at hequity
        cases hequity
      have hzero : equity.val ≠ 0 := by
        intro hzero
        exact hoverflow ⟨0, by rw [hzero]; exact zero_held⟩
      obtain ⟨loss, _, hnext⟩ := bind_eq_ok.mp hnext
      have hcurrent : next.currentEquity = some (.finite equity) := by
        rw [← Except.ok.inj hnext]
        exact if_neg hzero
      obtain ⟨_, _, _, _, hwritten, _⟩ := writeRiskState_eq_ok.mp hcontent
      have hcurrentText := hwritten.currentEquity
      rw [hcurrent] at hcurrentText
      obtain ⟨text, htext, _⟩ := bind_eq_ok.mp hcurrentText
      obtain ⟨r, hr, _⟩ := numberText_eq_ok.mp htext
      exact hoverflow ⟨r, hr⟩

/-- What one update asks of its equity. -/
theorem Current.survivesFile_iff {before : List (Instant × Dict)} {state : RiskState}
    (h : Current before state) (s : Instant × Dict) :
    SurvivesFile before s ↔ EquityKept before s := by
  cases hequity : storedEquity s.2 with
  | none =>
      refine iff_of_true ?_ ?_
      · intro next content hupdate
        obtain ⟨rfl, hread⟩ := h.update_none hequity hupdate
        exact hread
      · intro equity hsome
        rw [hequity] at hsome
        cases hsome
  | some equity =>
      obtain ⟨next, content, hupdate, _, _, hread, hback⟩ := h.update_some hequity
      rw [← hback, ← hread]
      constructor
      · intro hsurvives
        exact hsurvives next content hupdate
      · intro hsame next' content' hupdate'
        obtain ⟨rfl, rfl⟩ := Prod.mk.inj (Except.ok.inj (hupdate.symm.trans hupdate'))
        exact hsame

theorem storedEquities_concat (before : List (Instant × Dict)) (s : Instant × Dict) :
    storedEquities (before ++ [s]) = storedEquities before ++ (storedEquity s.2).toList := by
  cases h : storedEquity s.2 <;> simp [storedEquities, h]

/-- **One update**: the file keeps a state that comes back. -/
theorem Current.step {before : List (Instant × Dict)} {state : RiskState} {s : Instant × Dict}
    (h : Current before state) (hkept : EquityKept before s) :
    ∃ next, Current (before ++ [s]) next := by
  have hfile : fileAfter (before ++ [s]) = fileStep (fileAfter before) s := by
    simp [fileAfter, List.foldl_append]
  cases hequity : storedEquity s.2 with
  | none =>
      have hnone : storedEquities (before ++ [s]) = storedEquities before := by
        simp [storedEquities_concat, hequity]
      refine ⟨state, ?_, h.stored, by rw [hnone]; exact h.first⟩
      rw [hfile]
      unfold fileStep
      cases hupdate : updateRiskStateFromReconciliationSnapshot defaultContext (fileAfter before)
          s.2 s.1 with
      | error e => exact h.read
      | ok result => exact (h.update_none hequity hupdate).2
  | some equity =>
      obtain ⟨next, content, hupdate, hwritable, hinitial, hread, hback⟩ :=
        h.update_some hequity
      have hreadsBack : ReadsBack next := hback.mpr hkept
      refine ⟨next, ?_, ⟨hwritable, hreadsBack⟩, ?_⟩
      · rw [hfile]
        unfold fileStep
        rw [hupdate]
        exact hread.mpr hreadsBack
      · simp [storedEquities_concat, hequity, hinitial]

theorem current_nil : Current [] emptyRiskState where
  read := rfl
  stored :=
    { writable := ⟨by simp [emptyRiskState], by simp [emptyRiskState], by simp [emptyRiskState],
        by simp [emptyRiskState]⟩
      readsBack := ⟨by simp [emptyRiskState], by simp [emptyRiskState], by simp [emptyRiskState],
        by simp [emptyRiskState]⟩ }
  first := iff_of_true rfl rfl

/-- **A run of updates** that keeps its equities. -/
theorem exists_current {snapshots : List (Instant × Dict)} (h : AtEvery EquityKept snapshots) :
    ∃ state, Current snapshots state := by
  induction snapshots using List.reverseRecOn with
  | nil => exact ⟨_, current_nil⟩
  | append_singleton before s ih =>
      obtain ⟨hbefore, hlast⟩ := atEvery_concat.mp h
      obtain ⟨state, hstate⟩ := ih hbefore
      exact hstate.step hlast

/-- **The state survives its file at every update of a run** exactly when no equity that is
stored has more than 28 digits and the first one is not zero. -/
theorem riskState_survives_iff (snapshots : List (Instant × Dict)) :
    AtEvery SurvivesFile snapshots ↔ AtEvery EquityKept snapshots := by
  induction snapshots using List.reverseRecOn with
  | nil => exact iff_of_true atEvery_nil atEvery_nil
  | append_singleton before s ih =>
      rw [atEvery_concat, atEvery_concat, ih]
      refine and_congr_right fun hbefore => ?_
      obtain ⟨state, hstate⟩ := exists_current hbefore
      exact hstate.survivesFile_iff s

end Run

/-! ### Two runs that break it -/

namespace Sample

/-- Twenty-nine digits. -/
def longEquity : String := "123.45678901234567890123456789"

end Sample

/-- The file of a first equity of zero is one every later update rejects, and an equity of
29 digits is read back rounded. -/
theorem riskState_lost :
    ¬@AtEvery (Instant × Dict) (@SurvivesFile Sample.runtime)
        [(Sample.now, Sample.snapshot "0")] ∧
      (∀ snapshot now, @updateRiskStateFromReconciliationSnapshot Sample.runtime defaultContext
        (@fileAfter Sample.runtime [(Sample.now, Sample.snapshot "0")]) snapshot now =
          .error (.valueError "initialEquity must be positive")) ∧
      ¬@AtEvery (Instant × Dict) (@SurvivesFile Sample.runtime)
        [(Sample.now, Sample.snapshot Sample.longEquity)] := by
  have hkept : ∀ s, @AtEvery (Instant × Dict) (@SurvivesFile Sample.runtime) [s] →
      @EquityKept Sample.runtime [] s := by
    intro s h
    exact (@Current.survivesFile_iff Sample.runtime _ _ (@current_nil Sample.runtime) s).mp
      (h [] s [] rfl)
  refine ⟨?_, ?_, ?_⟩
  · intro h
    have hequity : @storedEquity Sample.runtime (Sample.snapshot "0") = some (.ofInt 0) := by
      decide +kernel
    exact (hkept _ h _ hequity).2 rfl (by decide +kernel)
  · intro snapshot now
    have hread : (@readRiskState Sample.runtime
        (@fileAfter Sample.runtime [(Sample.now, Sample.snapshot "0")])).map (fun _ => ()) =
          .error (.valueError "initialEquity must be positive") := by
      decide +kernel
    unfold updateRiskStateFromReconciliationSnapshot
    cases hfile : @readRiskState Sample.runtime
        (@fileAfter Sample.runtime [(Sample.now, Sample.snapshot "0")]) with
    | error e =>
        rw [hfile] at hread
        obtain rfl := Except.error.inj hread
        rfl
    | ok state =>
        rw [hfile] at hread
        cases hread
  · intro h
    have hequity : (@storedEquity Sample.runtime (Sample.snapshot Sample.longEquity)).map
        (fun e => e.val) = some (12345678901234567890123456789 / 10 ^ 26) := by
      decide +kernel
    obtain ⟨equity, hstored, hval⟩ := Option.map_eq_some_iff.mp hequity
    have hheld := (hkept _ h equity hstored).1
    rw [hval] at hheld
    exact absurd hheld (by decide +kernel)

end YtmExecutor
