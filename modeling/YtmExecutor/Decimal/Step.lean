/-
Rounding to a multiple of a step, down and up.

Two numbers rounded in opposite directions can meet or cross when they are less than a
step apart.  The lemmas say exactly when they do, in terms of the multiples that lie
between them.

A number rounded down is a count of steps, taken times the step again.  Where count and
product are rounded to digits on the way, the result is the same exactly when neither
rounding does anything, as long as the count has no more digits than are kept.
-/
import YtmExecutor.Decimal.Context

namespace Decimal

variable {a b q t : ℚ}

/-- The largest multiple of `t` up to `q`. -/
def floorTo (t q : ℚ) : ℚ := ⌊q / t⌋ * t

/-- The smallest multiple of `t` from `q` on. -/
def ceilTo (t q : ℚ) : ℚ := ⌈q / t⌉ * t

theorem isDecimal_floorTo (h : IsDecimal t) (q : ℚ) : IsDecimal (floorTo t q) :=
  (isDecimal_intCast _).mul h

theorem isDecimal_ceilTo (h : IsDecimal t) (q : ℚ) : IsDecimal (ceilTo t q) :=
  (isDecimal_intCast _).mul h

theorem ceilTo_pos (ht : 0 < t) (hq : 0 < q) : 0 < ceilTo t q := by
  have hceil : 0 < ⌈q / t⌉ := Int.ceil_pos.mpr (div_pos hq ht)
  exact mul_pos (by exact_mod_cast hceil) ht

/-! Rounding moves a number by less than a step. -/

theorem floorTo_le (ht : 0 < t) (q : ℚ) : floorTo t q ≤ q := by
  unfold floorTo
  rw [← le_div_iff₀ ht]
  exact Int.floor_le (q / t)

theorem lt_floorTo_add (ht : 0 < t) (q : ℚ) : q < floorTo t q + t := by
  have h : q < (⌊q / t⌋ + 1) * t := (div_lt_iff₀ ht).mp (Int.lt_floor_add_one (q / t))
  rwa [add_mul, one_mul] at h

theorem le_ceilTo (ht : 0 < t) (q : ℚ) : q ≤ ceilTo t q := by
  unfold ceilTo
  rw [← div_le_iff₀ ht]
  exact Int.le_ceil (q / t)

theorem ceilTo_lt_add (ht : 0 < t) (q : ℚ) : ceilTo t q < q + t := by
  have h : (⌈q / t⌉ : ℚ) * t < (q / t + 1) * t :=
    mul_lt_mul_of_pos_right (Int.ceil_lt_add_one (q / t)) ht
  rwa [add_mul, one_mul, div_mul_cancel₀ q ht.ne'] at h

/-- Rounding down leaves something exactly from one step on. -/
theorem floorTo_pos_iff (ht : 0 < t) : 0 < floorTo t q ↔ t ≤ q := by
  unfold floorTo
  rw [mul_pos_iff_of_pos_right ht, Int.cast_pos, Int.floor_pos, one_le_div ht]

/-- `a` rounded up is below `b` rounded down exactly when two multiples lie between. -/
theorem ceilTo_lt_floorTo_iff (ht : 0 < t) :
    ceilTo t a < floorTo t b ↔ ∃ n : ℤ, a ≤ n * t ∧ (n + 1) * t ≤ b := by
  unfold ceilTo floorTo
  rw [mul_lt_mul_iff_of_pos_right ht, Int.cast_lt]
  constructor
  · intro h
    refine ⟨⌈a / t⌉, (div_le_iff₀ ht).mp (Int.le_ceil _), (le_div_iff₀ ht).mp ?_⟩
    have hfloor : ((⌈a / t⌉ + 1 : ℤ) : ℚ) ≤ b / t := Int.le_floor.mp h
    exact_mod_cast hfloor
  · rintro ⟨n, ha, hb⟩
    have hceil : ⌈a / t⌉ ≤ n := Int.ceil_le.mpr ((div_le_iff₀ ht).mpr ha)
    have hfloor : n + 1 ≤ ⌊b / t⌋ := by
      refine Int.le_floor.mpr ((le_div_iff₀ ht).mpr ?_)
      push_cast
      exact hb
    omega

/-- `b` rounded down is below `a` rounded up exactly when no multiple lies from `a` to `b`. -/
theorem floorTo_lt_ceilTo_iff (ht : 0 < t) :
    floorTo t b < ceilTo t a ↔ ¬∃ n : ℤ, a ≤ n * t ∧ n * t ≤ b := by
  unfold ceilTo floorTo
  rw [mul_lt_mul_iff_of_pos_right ht, Int.cast_lt, ← not_le, not_iff_not]
  constructor
  · intro h
    exact ⟨⌈a / t⌉, (div_le_iff₀ ht).mp (Int.le_ceil _),
      (le_div_iff₀ ht).mp (Int.le_floor.mp h)⟩
  · rintro ⟨n, ha, hb⟩
    exact (Int.ceil_le.mpr ((div_le_iff₀ ht).mpr ha)).trans
      (Int.le_floor.mpr ((le_div_iff₀ ht).mpr hb))

/-! Counting steps with digits. -/

/-- Rounding takes no number of steps to another one, up to as many as have all their digits. -/
theorem steps_eq_of_rounded {prec : ℕ} {emin n m : ℤ} (hprec : 2 ≤ prec)
    (ht : (10 : ℚ) ^ emin ≤ t) (hn : 0 < n) (hm : m ≤ 10 ^ (prec - 1))
    (h : Context.rounded prec emin (n * t) = m * t) : n = m := by
  have hpos : 0 < t := lt_of_lt_of_le (ten_zpow_pos emin) ht
  have hone : (1 : ℚ) ≤ n := by exact_mod_cast hn
  have hpower : (10 : ℚ) ^ (1 - prec : ℤ) = 1 / 10 ^ (prec - 1) := by
    rw [one_div, ← zpow_natCast, ← zpow_neg]
    congr 1
    omega
  have hten : (10 : ℚ) ≤ 10 ^ (prec - 1) := le_self_pow₀ (by norm_num) (by omega)
  -- Divided by the step, the error is a fraction of the number of steps.
  have herror : |(m : ℚ) - n| ≤ n / (2 * 10 ^ (prec - 1)) := by
    have hround : |Context.rounded prec emin (n * t) - n * t| ≤ n * t * 10 ^ (1 - prec : ℤ) / 2 :=
      abs_rounded_sub_le_mul (ht.trans (le_mul_of_one_le_left hpos.le hone))
    rw [h, hpower, ← sub_mul, abs_mul, abs_of_pos hpos] at hround
    refine le_of_mul_le_mul_right (hround.trans_eq ?_) hpos
    ring
  by_contra hne
  have hapart : (1 : ℚ) ≤ |(m : ℚ) - n| := by
    exact_mod_cast Int.one_le_abs (sub_ne_zero.mpr (Ne.symm hne))
  have hbound : (m : ℚ) ≤ 10 ^ (prec - 1) := by exact_mod_cast hm
  have hmany : 2 * 10 ^ (prec - 1) ≤ (n : ℚ) := by
    have hquotient := hapart.trans herror
    rwa [le_div_iff₀ (by positivity), one_mul] at hquotient
  have hshare : (n : ℚ) / (2 * 10 ^ (prec - 1)) ≤ n / 4 := by
    rw [div_le_div_iff₀ (by positivity) (by norm_num)]
    have := mul_le_mul_of_nonneg_left (show (4 : ℚ) ≤ 2 * 10 ^ (prec - 1) by linarith)
      (zero_le_one.trans hone)
    linarith
  linarith [(abs_le.mp herror).1]

/-- **`n` steps are rounded to `b` rounded down exactly when** they are as many as are in `b`, and
what they come to is not rounded. -/
theorem rounded_steps_eq_floorTo_iff {prec : ℕ} {emin n : ℤ} (hprec : 2 ≤ prec)
    (ht : (10 : ℚ) ^ emin ≤ t) (hpos : 0 < floorTo t b) (hb : b ≤ 10 ^ (prec - 1) * t) :
    Context.rounded prec emin (n * t) = floorTo t b ↔
      n = ⌊b / t⌋ ∧ Context.rounded prec emin (floorTo t b) = floorTo t b := by
  have htpos : 0 < t := lt_of_lt_of_le (ten_zpow_pos emin) ht
  constructor
  · intro h
    have hn : 0 < n := by
      by_contra hnot
      have hproduct : (n : ℚ) * t ≤ 0 :=
        mul_nonpos_of_nonpos_of_nonneg (by exact_mod_cast not_lt.mp hnot) htpos.le
      rw [← h] at hpos
      exact absurd hpos (not_lt.mpr (rounded_nonpos hproduct))
    have hm : ⌊b / t⌋ ≤ 10 ^ (prec - 1) := by
      have hquotient := (Int.floor_le (b / t)).trans ((div_le_iff₀ htpos).mpr hb)
      exact_mod_cast hquotient
    have hsame := steps_eq_of_rounded hprec ht hn hm h
    rw [hsame] at h
    exact ⟨hsame, h⟩
  · rintro ⟨rfl, h⟩
    exact h

end Decimal
