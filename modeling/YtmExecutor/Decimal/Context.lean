/-
Decimal arithmetic as its values.

A finite decimal number is read as the rational it denotes, so 1.0 and 1.00 are one
number.  An operation computes the exact result and then applies the context's `fix`,
which rounds it or signals.  Two contexts matter: `exact`, which never rounds, and
`ofPrecision prec emin emax`, which rounds half to even at `prec` significant digits,
loses digits below the smallest exponent and overflows above the largest.

What proofs use of a context is not its algorithm.  `fix_mono` says that rounding keeps
the order of numbers and `fix_fix` that a rounded number is not rounded again;
between them they say that a comparison with a number the context holds exactly can be
read off the rounded result.
-/
import Mathlib.Data.Int.Log
import Mathlib.Data.Rat.Floor
import Mathlib.Algebra.Order.Field.Power
import Mathlib.Tactic.Linarith
import Mathlib.Tactic.NormNum
import Mathlib.Tactic.Positivity
import Mathlib.Tactic.FieldSimp
import Mathlib.Tactic.Ring

namespace Decimal

/-! ### Decimal fractions -/

/-- A number with finitely many decimal places. -/
def IsDecimal (q : ℚ) : Prop := ∃ (n : ℤ) (k : ℕ), q = n / 10 ^ k

theorem isDecimal_intCast (n : ℤ) : IsDecimal n := ⟨n, 0, by simp⟩

theorem IsDecimal.mul {p q : ℚ} (hp : IsDecimal p) (hq : IsDecimal q) : IsDecimal (p * q) := by
  obtain ⟨m, j, rfl⟩ := hp
  obtain ⟨n, k, rfl⟩ := hq
  refine ⟨m * n, j + k, ?_⟩
  push_cast
  rw [pow_add, div_mul_div_comm]

theorem IsDecimal.neg {q : ℚ} (hq : IsDecimal q) : IsDecimal (-q) := by
  obtain ⟨n, k, rfl⟩ := hq
  exact ⟨-n, k, by push_cast; ring⟩

theorem IsDecimal.add {p q : ℚ} (hp : IsDecimal p) (hq : IsDecimal q) : IsDecimal (p + q) := by
  obtain ⟨m, j, rfl⟩ := hp
  obtain ⟨n, k, rfl⟩ := hq
  refine ⟨m * 10 ^ k + n * 10 ^ j, j + k, ?_⟩
  push_cast
  rw [pow_add]
  field_simp

theorem IsDecimal.sub {p q : ℚ} (hp : IsDecimal p) (hq : IsDecimal q) : IsDecimal (p - q) := by
  rw [sub_eq_add_neg]
  exact hp.add hq.neg

theorem isDecimal_zpow (e : ℤ) : IsDecimal ((10 : ℚ) ^ e) := by
  rcases Int.le_total 0 e with h | h
  · obtain ⟨n, rfl⟩ := Int.eq_ofNat_of_zero_le h
    exact ⟨10 ^ n, 0, by simp⟩
  · obtain ⟨n, hn⟩ := Int.eq_ofNat_of_zero_le (Int.neg_nonneg.mpr h)
    refine ⟨1, n, ?_⟩
    rw [show e = -(n : ℤ) by omega, zpow_neg, zpow_natCast]
    simp

/-! ### Rounding to an integer, half to even -/

/-- The integer nearest `q`; of two equally near, the even one. -/
def roundHalfEven (q : ℚ) : ℤ :=
  if q - ⌊q⌋ < 1 / 2 then ⌊q⌋
  else if 1 / 2 < q - ⌊q⌋ then ⌊q⌋ + 1
  else if ⌊q⌋ % 2 = 0 then ⌊q⌋
  else ⌊q⌋ + 1

theorem roundHalfEven_eq (q : ℚ) : roundHalfEven q = ⌊q⌋ ∨ roundHalfEven q = ⌊q⌋ + 1 := by
  unfold roundHalfEven
  split_ifs <;> simp

@[simp] theorem roundHalfEven_intCast (n : ℤ) : roundHalfEven n = n := by
  unfold roundHalfEven
  simp

theorem roundHalfEven_mono {p q : ℚ} (h : p ≤ q) : roundHalfEven p ≤ roundHalfEven q := by
  have hfloor : ⌊p⌋ ≤ ⌊q⌋ := Int.floor_le_floor h
  rcases Int.lt_or_eq_of_le hfloor with hlt | heq
  · -- A whole integer lies between them, and neither rounds past it.
    rcases roundHalfEven_eq p with hp | hp <;> rcases roundHalfEven_eq q with hq | hq <;> omega
  · -- The same integer part: the fractional parts decide.
    unfold roundHalfEven
    rw [heq]
    split_ifs <;> first | omega | (exfalso; linarith)

theorem roundHalfEven_le {q : ℚ} {n : ℤ} (h : q ≤ n) : roundHalfEven q ≤ n := by
  have := roundHalfEven_mono h
  rwa [roundHalfEven_intCast] at this

theorem le_roundHalfEven {q : ℚ} {n : ℤ} (h : n ≤ q) : n ≤ roundHalfEven q := by
  have := roundHalfEven_mono h
  rwa [roundHalfEven_intCast] at this

/-- Rounding moves a number by at most a half. -/
theorem abs_roundHalfEven_sub_le (q : ℚ) : |(roundHalfEven q : ℚ) - q| ≤ 1 / 2 := by
  have hlow := Int.floor_le q
  have hhigh := Int.lt_floor_add_one q
  unfold roundHalfEven
  rw [abs_le]
  split_ifs <;> push_cast <;> constructor <;> linarith

/-- A number and its negative round alike: of two equally near integers the even one is
on the same side. -/
theorem roundHalfEven_neg (q : ℚ) : roundHalfEven (-q) = -roundHalfEven q := by
  by_cases hq : q = ⌊q⌋
  · rw [hq, ← Int.cast_neg, roundHalfEven_intCast, roundHalfEven_intCast]
  · have hlt : (⌊q⌋ : ℚ) < q := lt_of_le_of_ne (Int.floor_le q) (Ne.symm hq)
    have hfloor : ⌊-q⌋ = -⌊q⌋ - 1 := by
      rw [Int.floor_eq_iff]
      push_cast
      have := Int.lt_floor_add_one q
      constructor <;> linarith
    unfold roundHalfEven
    rw [hfloor]
    push_cast
    split_ifs <;> first | omega | (exfalso; linarith)

/-! ### Contexts -/

/-- What an operation signals instead of returning a number. -/
inductive Signal where
  | overflow
  | divisionByZero
  | invalidOperation
  deriving DecidableEq, Repr

/-- How an exact result becomes the result of an operation. -/
structure Context where
  fix : ℚ → Except Signal ℚ
  /-- Rounding makes no fraction that has no decimal form. -/
  fix_isDecimal : ∀ {q r : ℚ}, IsDecimal q → fix q = .ok r → IsDecimal r

namespace Context

/-- Every result is the exact one. -/
def exact : Context where
  fix := .ok
  fix_isDecimal := by
    intro q r hq h
    cases h
    exact hq

@[simp] theorem exact_fix (q : ℚ) : exact.fix q = .ok q := rfl

/-- The exponent of the last digit kept of `q`. -/
def lastPlace (prec : ℕ) (emin : ℤ) (q : ℚ) : ℤ := max (Int.log 10 |q|) emin - (prec - 1)

/-- `q` rounded at its last place. -/
def rounded (prec : ℕ) (emin : ℤ) (q : ℚ) : ℚ :=
  roundHalfEven (q / 10 ^ lastPlace prec emin q) * 10 ^ lastPlace prec emin q

/-- Rounding half to even at `prec` digits, with exponents from `emin` to `emax`. -/
def ofPrecision (prec : ℕ) (emin emax : ℤ) : Context where
  fix q := if emax < Int.log 10 |rounded prec emin q| then .error .overflow
    else .ok (rounded prec emin q)
  fix_isDecimal := by
    intro q r _ h
    split at h
    · cases h
    · cases h
      exact (isDecimal_intCast _).mul (isDecimal_zpow _)

/-! The four operations of a context. -/

variable (ctx : Context)

def add (a b : ℚ) : Except Signal ℚ := ctx.fix (a + b)

def sub (a b : ℚ) : Except Signal ℚ := ctx.fix (a - b)

def mul (a b : ℚ) : Except Signal ℚ := ctx.fix (a * b)

def div (a b : ℚ) : Except Signal ℚ :=
  if b = 0 then .error (if a = 0 then .invalidOperation else .divisionByZero)
  else ctx.fix (a / b)

/-- A number the context leaves as it is. -/
def Holds (q : ℚ) : Prop := ctx.fix q = .ok q

instance (q : ℚ) : Decidable (ctx.Holds q) :=
  match h : ctx.fix q with
  | .ok r => if hr : r = q then isTrue (by rw [Holds, h, hr]) else isFalse (by
      intro hq
      rw [Holds, h, Except.ok.injEq] at hq
      exact hr hq)
  | .error e => isFalse (by
      intro hq
      rw [Holds, h] at hq
      cases hq)

end Context

/-! ### Rounding keeps the order -/

section Precision

variable {prec : ℕ} {emin emax : ℤ}

open Context

theorem ten_zpow_pos (e : ℤ) : (0 : ℚ) < 10 ^ e := by positivity

theorem rounded_zero : rounded prec emin 0 = 0 := by
  unfold rounded
  simp [show roundHalfEven 0 = 0 from roundHalfEven_intCast 0]

/-- A power of ten is on every finer grid. -/
theorem zpow_on_grid {a e : ℤ} (h : e ≤ a) : ∃ m : ℤ, (10 : ℚ) ^ a = m * 10 ^ e := by
  refine ⟨10 ^ (a - e).toNat, ?_⟩
  have hcast : (((10 : ℤ) ^ (a - e).toNat : ℤ) : ℚ) = (10 : ℚ) ^ (a - e) := by
    push_cast
    rw [← zpow_natCast, Int.toNat_of_nonneg (by omega)]
  rw [hcast, ← zpow_add₀ (by norm_num)]
  congr 1
  omega

/-- Rounding does not pass a grid point above. -/
theorem rounded_le {q : ℚ} {m : ℤ} (h : q ≤ m * 10 ^ lastPlace prec emin q) :
    rounded prec emin q ≤ m * 10 ^ lastPlace prec emin q := by
  have hpos := ten_zpow_pos (lastPlace prec emin q)
  have hq : q / 10 ^ lastPlace prec emin q ≤ m := by rwa [div_le_iff₀ hpos]
  have hle : (roundHalfEven (q / 10 ^ lastPlace prec emin q) : ℚ) ≤ m := by
    exact_mod_cast roundHalfEven_le hq
  exact mul_le_mul_of_nonneg_right hle hpos.le

/-- Nor one below. -/
theorem le_rounded {q : ℚ} {m : ℤ} (h : m * 10 ^ lastPlace prec emin q ≤ q) :
    m * 10 ^ lastPlace prec emin q ≤ rounded prec emin q := by
  have hpos := ten_zpow_pos (lastPlace prec emin q)
  have hq : (m : ℚ) ≤ q / 10 ^ lastPlace prec emin q := by rwa [le_div_iff₀ hpos]
  have hle : (m : ℚ) ≤ roundHalfEven (q / 10 ^ lastPlace prec emin q) := by
    exact_mod_cast le_roundHalfEven hq
  exact mul_le_mul_of_nonneg_right hle hpos.le

theorem lastPlace_le_succ_log (hprec : 1 ≤ prec) {q : ℚ} (h : emin ≤ Int.log 10 |q|) :
    lastPlace prec emin q ≤ Int.log 10 |q| := by
  unfold lastPlace
  omega

theorem lastPlace_mono {p q : ℚ} (hp : 0 < p) (h : p ≤ q) :
    lastPlace prec emin p ≤ lastPlace prec emin q := by
  have hlog : Int.log 10 |p| ≤ Int.log 10 |q| := by
    rw [abs_of_pos hp, abs_of_pos (lt_of_lt_of_le hp h)]
    exact Int.log_mono_right hp h
  unfold lastPlace
  omega

/-- Rounding keeps the order of positive numbers. -/
theorem rounded_mono_of_pos (hprec : 1 ≤ prec) {p q : ℚ} (hp : 0 < p) (h : p ≤ q) :
    rounded prec emin p ≤ rounded prec emin q := by
  have hq : 0 < q := lt_of_lt_of_le hp h
  have hplaces : lastPlace prec emin p ≤ lastPlace prec emin q := lastPlace_mono hp h
  rcases Int.lt_or_eq_of_le hplaces with hlt | heq
  · -- Different grids: a power of ten lies between, on both of them.
    have hlog : Int.log 10 |p| < Int.log 10 |q| ∧ emin < Int.log 10 |q| := by
      unfold lastPlace at hlt
      omega
    have hpq : p < 10 ^ Int.log 10 q := by
      rw [abs_of_pos hp, abs_of_pos hq] at hlog
      simpa using (Int.lt_zpow_iff_log_lt (b := 10) (by norm_num) hp).mpr hlog.1
    have hqq : (10 : ℚ) ^ Int.log 10 q ≤ q := by
      simpa using Int.zpow_log_le_self (b := 10) (by norm_num) hq
    have hgridq : lastPlace prec emin q ≤ Int.log 10 q := by
      have hlast : lastPlace prec emin q ≤ Int.log 10 |q| :=
        lastPlace_le_succ_log hprec (by omega)
      rwa [abs_of_pos hq] at hlast
    obtain ⟨m, hm⟩ := zpow_on_grid (hlt.le.trans hgridq)
    obtain ⟨n, hn⟩ := zpow_on_grid hgridq
    calc rounded prec emin p
        ≤ m * 10 ^ lastPlace prec emin p := rounded_le (by rw [← hm]; exact hpq.le)
      _ = n * 10 ^ lastPlace prec emin q := by rw [← hm, hn]
      _ ≤ rounded prec emin q := le_rounded (by rw [← hn]; exact hqq)
  · unfold rounded
    rw [heq]
    have hpos := ten_zpow_pos (lastPlace prec emin q)
    have hdiv : p / 10 ^ lastPlace prec emin q ≤ q / 10 ^ lastPlace prec emin q :=
      div_le_div_of_nonneg_right h hpos.le
    have hround : (roundHalfEven (p / 10 ^ lastPlace prec emin q) : ℚ)
        ≤ roundHalfEven (q / 10 ^ lastPlace prec emin q) := by
      exact_mod_cast roundHalfEven_mono hdiv
    exact mul_le_mul_of_nonneg_right hround hpos.le

/-- Rounding moves a number by at most half a unit of its last place. -/
theorem abs_rounded_sub_le (q : ℚ) :
    |rounded prec emin q - q| ≤ 10 ^ lastPlace prec emin q / 2 := by
  have hpos := ten_zpow_pos (lastPlace prec emin q)
  have hq : q = q / 10 ^ lastPlace prec emin q * 10 ^ lastPlace prec emin q :=
    (div_mul_cancel₀ q hpos.ne').symm
  have herror := abs_roundHalfEven_sub_le (q / 10 ^ lastPlace prec emin q)
  calc |rounded prec emin q - q|
      = |((roundHalfEven (q / 10 ^ lastPlace prec emin q) : ℚ) - q / 10 ^ lastPlace prec emin q)
          * 10 ^ lastPlace prec emin q| := by
        rw [sub_mul, ← hq]
        rfl
    _ = |(roundHalfEven (q / 10 ^ lastPlace prec emin q) : ℚ) - q / 10 ^ lastPlace prec emin q|
          * 10 ^ lastPlace prec emin q := by rw [abs_mul, abs_of_pos hpos]
    _ ≤ 1 / 2 * 10 ^ lastPlace prec emin q := mul_le_mul_of_nonneg_right herror hpos.le
    _ = 10 ^ lastPlace prec emin q / 2 := by ring

/-- Where no digits are lost below the smallest exponent, that is a fixed fraction of the
number. -/
theorem abs_rounded_sub_le_mul {q : ℚ} (hq : (10 : ℚ) ^ emin ≤ q) :
    |rounded prec emin q - q| ≤ q * 10 ^ (1 - prec : ℤ) / 2 := by
  have hpos : 0 < q := (ten_zpow_pos emin).trans_le hq
  have hlog : emin ≤ Int.log 10 |q| := by
    rw [abs_of_pos hpos]
    exact (Int.zpow_le_iff_le_log (b := 10) (by norm_num) hpos).mp (by simpa using hq)
  have hplace : lastPlace prec emin q = Int.log 10 |q| + (1 - prec : ℤ) := by
    unfold lastPlace
    omega
  have hlow : (10 : ℚ) ^ Int.log 10 |q| ≤ q := by
    have h := Int.zpow_log_le_self (b := 10) (by norm_num) (abs_pos.mpr hpos.ne')
    rw [abs_of_pos hpos] at h ⊢
    simpa using h
  refine (abs_rounded_sub_le q).trans ?_
  rw [hplace, zpow_add₀ (by norm_num)]
  have hmul := mul_le_mul_of_nonneg_right hlow (ten_zpow_pos (1 - prec : ℤ)).le
  linarith

theorem rounded_neg (q : ℚ) : rounded prec emin (-q) = -rounded prec emin q := by
  have hplace : lastPlace prec emin (-q) = lastPlace prec emin q := by
    unfold lastPlace
    rw [abs_neg]
  unfold rounded
  rw [hplace, neg_div, roundHalfEven_neg]
  push_cast
  ring

theorem rounded_nonneg {q : ℚ} (h : 0 ≤ q) : 0 ≤ rounded prec emin q := by
  have hzero : ((0 : ℤ) : ℚ) * 10 ^ lastPlace prec emin q ≤ rounded prec emin q :=
    le_rounded (by simpa using h)
  simpa using hzero

theorem rounded_nonpos {q : ℚ} (h : q ≤ 0) : rounded prec emin q ≤ 0 := by
  have hneg : 0 ≤ rounded prec emin (-q) := rounded_nonneg (by linarith)
  rw [rounded_neg] at hneg
  linarith

/-- **Rounding keeps the order.** -/
theorem rounded_mono (hprec : 1 ≤ prec) {p q : ℚ} (h : p ≤ q) :
    rounded prec emin p ≤ rounded prec emin q := by
  rcases lt_or_ge 0 p with hp | hp
  · exact rounded_mono_of_pos hprec hp h
  rcases lt_or_ge q 0 with hq | hq
  · have hneg : rounded prec emin (-q) ≤ rounded prec emin (-p) :=
      rounded_mono_of_pos hprec (by linarith) (by linarith)
    rw [rounded_neg, rounded_neg] at hneg
    linarith
  · exact (rounded_nonpos hp).trans (rounded_nonneg hq)

/-- A number already on its grid is not changed. -/
theorem rounded_of_grid {q : ℚ} {m : ℤ} (h : q = m * 10 ^ lastPlace prec emin q) :
    rounded prec emin q = q := by
  unfold rounded
  have hdiv : q / 10 ^ lastPlace prec emin q = m := by
    rw [div_eq_iff (ten_zpow_pos _).ne']
    exact h
  rw [hdiv, roundHalfEven_intCast]
  exact h.symm

/-- Rounding never gets past the next power of ten. -/
theorem abs_rounded_le (hprec : 1 ≤ prec) (q : ℚ) :
    |rounded prec emin q| ≤ 10 ^ max (Int.log 10 |q| + 1) emin := by
  have hgrid : lastPlace prec emin q ≤ max (Int.log 10 |q| + 1) emin := by
    unfold lastPlace
    omega
  obtain ⟨m, hm⟩ := zpow_on_grid hgrid
  have hq : |q| ≤ 10 ^ max (Int.log 10 |q| + 1) emin := by
    have hlt : |q| < 10 ^ (Int.log 10 |q| + 1) := by
      simpa using Int.lt_zpow_succ_log_self (b := 10) (by norm_num) |q|
    exact hlt.le.trans (zpow_le_zpow_right₀ (by norm_num) (le_max_left _ _))
  obtain ⟨hlow, hhigh⟩ := abs_le.mp hq
  rw [hm] at hlow hhigh ⊢
  rw [abs_le]
  refine ⟨?_, rounded_le hhigh⟩
  have hbelow : ((-m : ℤ) : ℚ) * 10 ^ lastPlace prec emin q ≤ rounded prec emin q :=
    le_rounded (by push_cast; linarith)
  push_cast at hbelow
  linarith

/-- **A rounded number is not rounded again.** -/
theorem rounded_rounded (hprec : 1 ≤ prec) (q : ℚ) :
    rounded prec emin (rounded prec emin q) = rounded prec emin q := by
  set r := rounded prec emin q with hr
  by_cases hr0 : r = 0
  · rw [hr0, rounded_zero]
  by_cases hle : lastPlace prec emin r ≤ lastPlace prec emin q
  · obtain ⟨m, hm⟩ := zpow_on_grid hle
    refine rounded_of_grid (m := roundHalfEven (q / 10 ^ lastPlace prec emin q) * m) ?_
    push_cast
    rw [mul_assoc, ← hm]
    exact hr
  · -- Rounding up carried into the next power of ten, and `r` is that power.
    have hlow : (10 : ℚ) ^ Int.log 10 |r| ≤ |r| := by
      simpa using Int.zpow_log_le_self (b := 10) (by norm_num) (abs_pos.mpr hr0)
    have hhigh : |r| ≤ 10 ^ max (Int.log 10 |q| + 1) emin := abs_rounded_le hprec q
    have hexp : Int.log 10 |r| ≤ max (Int.log 10 |q| + 1) emin :=
      (zpow_le_zpow_iff_right₀ (by norm_num)).mp (hlow.trans hhigh)
    have heq : Int.log 10 |r| = max (Int.log 10 |q| + 1) emin := by
      unfold lastPlace at hle
      omega
    have habs : |r| = 10 ^ Int.log 10 |r| := le_antisymm (heq ▸ hhigh) hlow
    have hgrid : lastPlace prec emin r ≤ Int.log 10 |r| := by
      unfold lastPlace at hle ⊢
      omega
    obtain ⟨m, hm⟩ := zpow_on_grid hgrid
    rcases abs_choice r with hpos | hneg
    · refine rounded_of_grid (m := m) ?_
      rw [← hm, ← habs, hpos]
    · refine rounded_of_grid (m := -m) ?_
      push_cast
      rw [neg_mul, ← hm, ← habs, hneg, neg_neg]

theorem fix_eq_rounded {q r : ℚ} (h : (ofPrecision prec emin emax).fix q = .ok r) :
    r = rounded prec emin q := by
  simp only [ofPrecision] at h
  split at h
  · cases h
  · cases h
    rfl

/-- What an operation returned, the context holds. -/
theorem fix_fix (hprec : 1 ≤ prec) {q r : ℚ} (h : (ofPrecision prec emin emax).fix q = .ok r) :
    (ofPrecision prec emin emax).Holds r := by
  have hr := fix_eq_rounded h
  subst hr
  simp only [ofPrecision, Context.Holds] at h ⊢
  rw [rounded_rounded hprec]
  exact h

/-- A result is no smaller than that of a smaller exact result. -/
theorem fix_mono (hprec : 1 ≤ prec) {p q a b : ℚ} (h : p ≤ q)
    (ha : (ofPrecision prec emin emax).fix p = .ok a)
    (hb : (ofPrecision prec emin emax).fix q = .ok b) : a ≤ b := by
  rw [fix_eq_rounded ha, fix_eq_rounded hb]
  exact rounded_mono hprec h

/-- A number no larger than one that does not overflow does not either. -/
theorem fix_of_le (hprec : 1 ≤ prec) (hemax : 0 ≤ emax) {p q r : ℚ} (hp : 0 ≤ p) (h : p ≤ q)
    (hq : (ofPrecision prec emin emax).fix q = .ok r) :
    (ofPrecision prec emin emax).fix p = .ok (rounded prec emin p) := by
  have hround : rounded prec emin q = r := (fix_eq_rounded hq).symm
  have hle : rounded prec emin p ≤ r := hround ▸ rounded_mono hprec h
  have hnn : 0 ≤ rounded prec emin p := rounded_nonneg hp
  have hlog : ¬ emax < Int.log 10 |rounded prec emin p| := by
    simp only [ofPrecision] at hq
    split at hq
    · cases hq
    · rename_i hlt
      rw [hround] at hlt
      rcases hnn.eq_or_lt with h0 | hpos
      · rw [← h0, abs_zero, Int.log_zero_right]
        omega
      · have := Int.log_mono_right (b := 10) hpos hle
        rw [abs_of_pos hpos]
        rw [abs_of_pos (lt_of_lt_of_le hpos hle)] at hlt
        omega
  simp only [ofPrecision, if_neg hlog]

theorem fix_neg {q r : ℚ} (h : (ofPrecision prec emin emax).fix q = .ok r) :
    (ofPrecision prec emin emax).fix (-q) = .ok (-r) := by
  rw [fix_eq_rounded h]
  simp only [ofPrecision] at h ⊢
  split at h
  · cases h
  · rename_i hlog
    rw [rounded_neg, abs_neg, if_neg hlog]

/-- The difference of two non-negative numbers that do not overflow does not either. -/
theorem fix_sub_of_fix (hprec : 1 ≤ prec) (hemax : 0 ≤ emax) {a b ra rb : ℚ} (ha : 0 ≤ a)
    (hb : 0 ≤ b) (hA : (ofPrecision prec emin emax).fix a = .ok ra)
    (hB : (ofPrecision prec emin emax).fix b = .ok rb) :
    ∃ r, (ofPrecision prec emin emax).fix (a - b) = .ok r := by
  rcases le_total b a with hle | hle
  · exact ⟨_, fix_of_le hprec hemax (sub_nonneg.mpr hle) (sub_le_self a hb) hA⟩
  · have hfix := fix_of_le hprec hemax (sub_nonneg.mpr hle) (sub_le_self b ha) hB
    have hneg := fix_neg hfix
    rw [neg_sub] at hneg
    exact ⟨_, hneg⟩

/-- A number the context holds and the exact result is no smaller than is no larger than
the result. -/
theorem le_of_fix (hprec : 1 ≤ prec) {p q r : ℚ} (hp : (ofPrecision prec emin emax).Holds p)
    (h : p ≤ q) (hr : (ofPrecision prec emin emax).fix q = .ok r) : p ≤ r :=
  fix_mono hprec h hp hr

end Precision

end Decimal
