/-
Tightening never unblocks.

The evaluation is a list of objections.  A stricter policy raises every objection a laxer
one raises, and so does a worse state: the switches are compared one by one, and a loss or
a drawdown that is below a limit stays below it when it falls or the limit rises.  Nothing
else is compared with a limit, so no field of a command can turn this round.
-/
import YtmExecutor.RiskRoundTrip

namespace YtmExecutor

open Python Decimal Risk

/-! ### The two orders -/

/-- Whatever `other` limits, `limit` limits at least as much. -/
def LimitNotAbove (limit other : Option Number) : Prop :=
  ∀ n' ∈ other, ∃ n ∈ limit, n.le n' = .ok true

/-- Every restriction of `laxer` is one of `policy`. -/
structure AtLeastAsStrict (policy laxer : RiskPolicy) : Prop where
  configured : policy.configured = true → laxer.configured = true
  enabled : policy.enabled = true → laxer.enabled = true
  killSwitch : laxer.killSwitch = true → policy.killSwitch = true
  paperOnly : laxer.paperOnly = true → policy.paperOnly = true
  dailyLoss : LimitNotAbove policy.maxDailyLoss laxer.maxDailyLoss
  totalDrawdown : LimitNotAbove policy.maxTotalDrawdown laxer.maxTotalDrawdown

/-- Whatever `state` knows of today's loss and of the two equities, `better` knows, and neither
its loss nor its drawdown is above those of `state`. -/
structure AtLeastAsBad (ctx : Context) (today : String) (state better : RiskState) : Prop where
  loss : ∀ loss, state.realizedLossByDate.lookup today = some loss →
    ∃ loss', better.realizedLossByDate.lookup today = some loss' ∧ loss'.le loss = .ok true
  drawdown : ∀ initial current drawdown, state.initialEquity = some initial →
    state.currentEquity = some current → initial.sub ctx current = .ok drawdown →
    ∃ initial' current' drawdown', better.initialEquity = some initial' ∧
      better.currentEquity = some current' ∧ initial'.sub ctx current' = .ok drawdown' ∧
      drawdown'.le drawdown = .ok true

/-! ### The gates on the limits -/

section Gates

variable {ctx : Context} {policy laxer : RiskPolicy} {state better : RiskState}

theorem dailyLossGate_mono {mode : ExecutionMode} {today : String}
    (hpolicy : AtLeastAsStrict policy laxer) (hstate : AtLeastAsBad ctx today state better)
    (h : dailyLossGate mode policy state today = .ok none) :
    dailyLossGate mode laxer better today = .ok none := by
  cases mode with
  | externalPaper => rfl
  | real =>
      rw [dailyLossGate_eq_none] at h ⊢
      intro limit' hlimit'
      obtain ⟨limit, hlimit, hle⟩ := hpolicy.dailyLoss limit' hlimit'
      obtain ⟨loss, hloss, hbelow⟩ := h limit hlimit
      obtain ⟨loss', hloss', hnotAbove⟩ := hstate.loss loss hloss
      exact ⟨loss', hloss', Number.ge_false_of_le hnotAbove hbelow hle⟩

theorem totalDrawdownGate_mono {mode : ExecutionMode} {today : String}
    (hpolicy : AtLeastAsStrict policy laxer) (hstate : AtLeastAsBad ctx today state better)
    (h : totalDrawdownGate ctx mode policy state = .ok none) :
    totalDrawdownGate ctx mode laxer better = .ok none := by
  cases mode with
  | externalPaper => rfl
  | real =>
      rw [totalDrawdownGate_eq_none] at h ⊢
      intro limit' hlimit'
      obtain ⟨limit, hlimit, hle⟩ := hpolicy.totalDrawdown limit' hlimit'
      obtain ⟨initial, current, drawdown, hinitial, hcurrent, hsub, hbelow⟩ := h limit hlimit
      obtain ⟨initial', current', drawdown', hinitial', hcurrent', hsub', hnotAbove⟩ :=
        hstate.drawdown initial current drawdown hinitial hcurrent hsub
      exact ⟨initial', current', drawdown', hinitial', hcurrent', hsub',
        Number.ge_false_of_le hnotAbove hbelow hle⟩

end Gates

/-! ### The evaluation -/

section Evaluation

variable [Runtime] {ctx : Context} {command : Dict} {mode : ExecutionMode}
variable {policy laxer : RiskPolicy} {state better : RiskState} {now : Instant}

/-- The evaluation lets a command pass. -/
def RiskPasses (ctx : Context) (command : Dict) (mode : ExecutionMode) (policy : RiskPolicy)
    (state : RiskState) (now : Instant) : Prop :=
  ∃ d, evaluateCommandRisk ctx command mode policy state now = .ok d ∧ d.passed = true

theorem RiskPassed.mono (h : RiskPassed ctx command mode policy state now)
    (hpolicy : AtLeastAsStrict policy laxer)
    (hstate : AtLeastAsBad ctx (utcDate now) state better) :
    RiskPassed ctx command mode laxer better now where
  configured := hpolicy.configured h.configured
  enabled := hpolicy.enabled h.enabled
  killSwitch := by
    cases hkill : laxer.killSwitch with
    | false => rfl
    | true =>
        rw [← h.killSwitch]
        exact (hpolicy.killSwitch hkill).symm
  paperOnly := by
    intro hreal
    cases hpaper : laxer.paperOnly with
    | false => rfl
    | true =>
        rw [← h.paperOnly hreal]
        exact (hpolicy.paperOnly hpaper).symm
  attested := h.attested
  market := h.market
  futures := h.futures
  dailyLoss := dailyLossGate_mono hpolicy hstate h.dailyLoss
  totalDrawdown := totalDrawdownGate_mono hpolicy hstate h.totalDrawdown

/-- Paper asks for less than real. -/
theorem RiskPassed.paper (h : RiskPassed ctx command .real policy state now) :
    RiskPassed ctx command .externalPaper policy state now where
  configured := h.configured
  enabled := h.enabled
  killSwitch := h.killSwitch
  paperOnly := by
    intro hreal
    cases hreal
  attested := by
    intro hreal
    cases hreal
  market := h.market
  futures := h.futures
  dailyLoss := rfl
  totalDrawdown := rfl

/-- **Tightening never unblocks**: what passes under a stricter policy and a worse state passes
under the laxer policy and the better state, and what passes as real passes as paper. -/
theorem tightening_never_unblocks (ctx : Context) (command : Dict) (now : Instant) :
    (∀ mode policy state laxer better, AtLeastAsStrict policy laxer →
      AtLeastAsBad ctx (utcDate now) state better →
      RiskPasses ctx command mode policy state now →
      RiskPasses ctx command mode laxer better now) ∧
    ∀ policy state, RiskPasses ctx command .real policy state now →
      RiskPasses ctx command .externalPaper policy state now := by
  refine ⟨?_, ?_⟩
  · intro mode policy state laxer better hpolicy hstate hpasses
    exact evaluate_passes_iff.mpr ((evaluate_passes_iff.mp hpasses).mono hpolicy hstate)
  · intro policy state hpasses
    exact evaluate_passes_iff.mpr (evaluate_passes_iff.mp hpasses).paper

end Evaluation

namespace Sample

/-- A policy with a higher daily limit and no total one. -/
def laxerPolicy : RiskPolicy :=
  { policy with maxDailyLoss := some (.finite (.ofInt 150)), maxTotalDrawdown := none }

/-- A smaller loss today, and a new peak. -/
def betterState : RiskState :=
  { riskState with
    realizedLossByDate := [("2026-05-10", .finite (.ofInt 5))]
    currentEquity := some (.finite (.ofInt 1100)) }

theorem atLeastAsStrict_laxerPolicy : AtLeastAsStrict policy laxerPolicy where
  configured := id
  enabled := id
  killSwitch := id
  paperOnly := id
  dailyLoss := by
    intro n' hn'
    refine ⟨.finite (.ofInt 100), rfl, ?_⟩
    rw [← Option.some.inj hn']
    decide +kernel
  totalDrawdown := by
    intro n' hn'
    cases hn'

theorem atLeastAsBad_betterState :
    AtLeastAsBad defaultContext (utcDate now) riskState betterState where
  loss := by
    intro loss hloss
    have hlosses : riskState.realizedLossByDate.lookup (utcDate now) =
        some (.finite (.ofInt 10)) := by decide +kernel
    refine ⟨.finite (.ofInt 5), by decide +kernel, ?_⟩
    rw [hlosses] at hloss
    rw [← Option.some.inj hloss]
    decide +kernel
  drawdown := by
    intro initial current drawdown hinitial hcurrent hsub
    refine ⟨.finite (.ofInt 1000), .finite (.ofInt 1100), .finite (.ofInt (-100)), rfl, rfl,
      by decide +kernel, ?_⟩
    have hten : Number.sub defaultContext (.finite (.ofInt 1000)) (.finite (.ofInt 990)) =
        .ok (.finite (.ofInt 10)) := by decide +kernel
    rw [← Option.some.inj hinitial, ← Option.some.inj hcurrent, hten] at hsub
    rw [← Except.ok.inj hsub]
    decide +kernel

end Sample

theorem tightening_never_unblocks_sample :
    @RiskPasses Sample.runtime defaultContext (Sample.command Sample.payload) .real
        Sample.laxerPolicy Sample.betterState Sample.now ∧
      @RiskPasses Sample.runtime defaultContext (Sample.command Sample.payload) .externalPaper
        Sample.policy Sample.riskState Sample.now := by
  have hpasses : @RiskPasses Sample.runtime defaultContext (Sample.command Sample.payload) .real
      Sample.policy Sample.riskState Sample.now := ⟨pass, by decide +kernel, rfl⟩
  have h := @tightening_never_unblocks Sample.runtime defaultContext
    (Sample.command Sample.payload) Sample.now
  exact ⟨h.1 _ _ _ _ _ Sample.atLeastAsStrict_laxerPolicy Sample.atLeastAsBad_betterState hpasses,
    h.2 _ _ hpasses⟩

/-! ### States the executor stores

For these an exact comparison is enough: rounding keeps the order of drawdowns, and their
difference does not overflow.
-/

theorem atLeastAsBad_of_exact {today : String} {state better : RiskState}
    (hstate : ReadsBack state) (hbetter : ReadsBack better)
    (hloss : ∀ loss, state.realizedLossByDate.lookup today = some loss →
      ∃ loss', better.realizedLossByDate.lookup today = some loss' ∧ loss'.le loss = .ok true)
    (hdrawdown : ∀ initial current : Finite, state.initialEquity = some (.finite initial) →
      state.currentEquity = some (.finite current) → ∃ initial' current' : Finite,
        better.initialEquity = some (.finite initial') ∧
        better.currentEquity = some (.finite current') ∧
        initial'.val - current'.val ≤ initial.val - current.val) :
    AtLeastAsBad defaultContext today state better where
  loss := hloss
  drawdown := by
    intro initial current drawdown hinitial hcurrent hsub
    obtain ⟨a, rfl, _, _⟩ := hstate.initialEquity initial hinitial
    obtain ⟨b, rfl, _, _⟩ := hstate.currentEquity current hcurrent
    obtain ⟨a', b', ha', hb', hle⟩ := hdrawdown a b hinitial hcurrent
    obtain ⟨p, hp, hheldA, hposA⟩ := hbetter.initialEquity _ ha'
    obtain rfl := Number.finite.inj hp
    obtain ⟨q, hq, hheldB, hposB⟩ := hbetter.currentEquity _ hb'
    obtain rfl := Number.finite.inj hq
    obtain ⟨r, hr⟩ := fix_sub_of_fix (by norm_num) (by norm_num) hposA.le hposB.le hheldA hheldB
    let drawdown' : Finite :=
      ⟨r, defaultContext.fix_isDecimal (a'.isDecimal.sub b'.isDecimal) hr⟩
    have hsub' : a'.sub defaultContext b' = .ok drawdown' := Finite.fix_eq_ok.mpr hr
    refine ⟨_, _, .finite drawdown', ha', hb', ?_, ?_⟩
    · simp only [Number.sub, hsub', Except.map]
    · cases hround : a.sub defaultContext b with
      | error e =>
          simp only [Number.sub, hround, Except.map] at hsub
          cases hsub
      | ok d =>
          simp only [Number.sub, hround, Except.map] at hsub
          obtain rfl := Except.ok.inj hsub
          rw [Number.le_finite, Except.ok.injEq, decide_eq_true_eq]
          exact fix_mono (by norm_num) hle hr (Finite.fix_eq_ok.mp hround)

end YtmExecutor
