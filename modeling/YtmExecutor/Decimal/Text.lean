/-
Decimal numbers as text, both ways.

`plainText` writes a decimal fraction without an exponent and without needless zeros.
`parse` reads the numeric strings of the general decimal arithmetic: a sign, digits with
a point anywhere among them, an exponent, or one of the special values.  Which
characters are digits is left to the caller, since a language may accept more of them
than the ten of ASCII.

`parse_plainText` is the round trip: what `plainText` wrote of a decimal fraction is
read back as that fraction.
-/
import YtmExecutor.Decimal.Context
import Mathlib.Data.Nat.Log
import Mathlib.Data.Nat.Digits.Defs
import Mathlib.Data.Rat.Lemmas

namespace Decimal

/-! ### Writing -/

/-- How many decimal places a fraction with denominator `d` needs. -/
def places (d : ℕ) : ℕ :=
  ((List.range (Nat.log2 d + 1)).find? fun k => 10 ^ k % d = 0).getD 0

/-- The digits of `q` without its sign and point, at least one before the point. -/
def paddedDigits (q : ℚ) : List Char :=
  let k := places q.den
  let ds := Nat.toDigits 10 (q.num.natAbs * (10 ^ k / q.den))
  List.replicate (k + 1 - ds.length) '0' ++ ds

/-- `q` in plain positional notation. -/
def plainChars (q : ℚ) : List Char :=
  let k := places q.den
  let ds := paddedDigits q
  (if q < 0 then ['-'] else []) ++ ds.take (ds.length - k)
    ++ (if k = 0 then [] else '.' :: ds.drop (ds.length - k))

def plainText (q : ℚ) : String := String.ofList (plainChars q)

/-! ### Reading -/

/-- What a numeric string says. -/
inductive Literal where
  | finite (negative : Bool) (coefficient : ℕ) (exponent : ℤ)
  | infinity (negative : Bool)
  | nan (signaling : Bool)
  deriving DecidableEq, Repr

/-- The number a finite literal denotes. -/
def Literal.value? : Literal → Option ℚ
  | .finite negative coefficient exponent =>
      some ((if negative then -1 else 1) * coefficient * 10 ^ exponent)
  | _ => none

def splitSign : List Char → Bool × List Char
  | '-' :: cs => (true, cs)
  | '+' :: cs => (false, cs)
  | cs => (false, cs)

variable (digit : Char → Option ℕ)

/-- The run of digits a text begins with, and what follows it. -/
def spanDigits : List Char → List ℕ × List Char
  | [] => ([], [])
  | c :: cs =>
      match digit c with
      | some d => (d :: (spanDigits cs).1, (spanDigits cs).2)
      | none => ([], c :: cs)

def digitsVal (ds : List ℕ) : ℕ := ds.foldl (fun acc d => acc * 10 + d) 0

/-- The digits after a point, when there is one. -/
def spanFraction : List Char → List ℕ × List Char
  | '.' :: cs => spanDigits digit cs
  | cs => ([], cs)

def parseExponent : List Char → Option ℤ
  | [] => some 0
  | c :: cs =>
      if c = 'e' ∨ c = 'E' then
        let (negative, cs) := splitSign cs
        let (ds, rest) := spanDigits digit cs
        if ds = [] ∨ rest ≠ [] then none
        else some (if negative then -(digitsVal ds : ℤ) else digitsVal ds)
      else none

/-- A number without its sign. -/
def parseFinite (negative : Bool) (cs : List Char) : Option Literal :=
  let (whole, rest) := spanDigits digit cs
  let (fraction, rest) := spanFraction digit rest
  if whole ++ fraction = [] then none
  else (parseExponent digit rest).map fun e =>
    .finite negative (digitsVal (whole ++ fraction)) (e - fraction.length)

/-- The special values, in any case; the digits after `nan` are a payload. -/
def parseSpecial (negative : Bool) (cs : List Char) : Option Literal :=
  match cs.map Char.toLower with
  | ['i', 'n', 'f'] => some (.infinity negative)
  | ['i', 'n', 'f', 'i', 'n', 'i', 't', 'y'] => some (.infinity negative)
  | 'n' :: 'a' :: 'n' :: payload =>
      if (spanDigits digit payload).2 = [] then some (.nan false) else none
  | 's' :: 'n' :: 'a' :: 'n' :: payload =>
      if (spanDigits digit payload).2 = [] then some (.nan true) else none
  | _ => none

def parse (cs : List Char) : Option Literal :=
  let (negative, cs) := splitSign cs
  match parseSpecial digit negative cs with
  | some special => some special
  | none => parseFinite digit negative cs

/-! ### The number of places -/

/-- A divisor of a power of ten divides one whose exponent its size bounds. -/
theorem exists_places {d : ℕ} (hd : d ≠ 0) {n : ℕ} (h : d ∣ 10 ^ n) :
    ∃ k, d ∣ 10 ^ k ∧ 2 ^ k ≤ d := by
  induction n generalizing d with
  | zero => exact ⟨0, h, Nat.one_le_iff_ne_zero.mpr hd⟩
  | succ n ih =>
      by_cases hg : Nat.gcd d 10 = 1
      · -- Nothing in common with ten: the divisor is one.
        have hone : d ∣ 1 := by
          have hcop : Nat.Coprime d (10 ^ (n + 1)) := Nat.Coprime.pow_right _ hg
          rw [← Nat.Coprime.gcd_eq_one hcop]
          exact Nat.dvd_gcd dvd_rfl h
        exact ⟨0, by simpa using hone, Nat.one_le_iff_ne_zero.mpr hd⟩
      · have hgpos : 0 < Nat.gcd d 10 := Nat.gcd_pos_of_pos_left _ (Nat.pos_of_ne_zero hd)
        have hgd : Nat.gcd d 10 ∣ d := Nat.gcd_dvd_left d 10
        have hcop : Nat.Coprime (d / Nat.gcd d 10) (10 / Nat.gcd d 10) :=
          Nat.coprime_div_gcd_div_gcd hgpos
        have hdiv : d / Nat.gcd d 10 ∣ (10 / Nat.gcd d 10) * 10 ^ n := by
          refine Nat.dvd_of_mul_dvd_mul_right hgpos ?_
          rw [Nat.div_mul_cancel hgd, mul_right_comm,
            Nat.div_mul_cancel (Nat.gcd_dvd_right d 10), ← pow_succ']
          exact h
        have hne : d / Nat.gcd d 10 ≠ 0 := by
          rw [Nat.div_ne_zero_iff]
          exact ⟨hgpos.ne', Nat.le_of_dvd (Nat.pos_of_ne_zero hd) hgd⟩
        obtain ⟨k, hk, hsize⟩ := ih hne (hcop.dvd_of_dvd_mul_left hdiv)
        refine ⟨k + 1, ?_, ?_⟩
        · calc d = d / Nat.gcd d 10 * Nat.gcd d 10 := (Nat.div_mul_cancel hgd).symm
            _ ∣ 10 ^ k * 10 := Nat.mul_dvd_mul hk (Nat.gcd_dvd_right d 10)
            _ = 10 ^ (k + 1) := (pow_succ 10 k).symm
        · calc 2 ^ (k + 1) = 2 ^ k * 2 := pow_succ 2 k
            _ ≤ d / Nat.gcd d 10 * Nat.gcd d 10 := Nat.mul_le_mul hsize (by omega)
            _ = d := Nat.div_mul_cancel hgd

/-- With its places written out, a decimal fraction is an integer. -/
theorem dvd_places {d : ℕ} (hd : d ≠ 0) {n : ℕ} (h : d ∣ 10 ^ n) : d ∣ 10 ^ places d := by
  obtain ⟨k, hk, hsize⟩ := exists_places hd h
  have hlog : k < Nat.log2 d + 1 := by
    have := (Nat.le_log2 hd).mpr hsize
    omega
  unfold places
  cases hfind : (List.range (Nat.log2 d + 1)).find? fun k => 10 ^ k % d = 0 with
  | none =>
      rw [List.find?_eq_none] at hfind
      have := hfind k (List.mem_range.mpr hlog)
      simp only [decide_eq_true_eq] at this
      exact absurd (Nat.mod_eq_zero_of_dvd hk) this
  | some i =>
      have := List.find?_some hfind
      simp only [decide_eq_true_eq] at this
      exact Nat.dvd_of_mod_eq_zero this

/-- No fewer places would do. -/
theorem places_le {d k : ℕ} (hd : d ≠ 0) (h : d ∣ 10 ^ k) : places d ≤ k := by
  obtain ⟨j, hj, hsize⟩ := exists_places hd h
  have hlog : j < Nat.log2 d + 1 := by
    have := (Nat.le_log2 hd).mpr hsize
    omega
  unfold places
  cases hfind : (List.range (Nat.log2 d + 1)).find? fun k => 10 ^ k % d = 0 with
  | none => simp
  | some i =>
      rw [List.find?_range_eq_some] at hfind
      by_contra hlt
      have hki : k < i := by simpa using hlt
      have := hfind.2.2 k hki
      simp only [Bool.not_eq_true', decide_eq_false_iff_not] at this
      exact this (Nat.mod_eq_zero_of_dvd h)

theorem den_dvd_pow {q : ℚ} {m : ℤ} {k : ℕ} (h : q = m / 10 ^ k) : q.den ∣ 10 ^ k := by
  have hdvd := Rat.den_dvd m (10 ^ k)
  have hq : q = Rat.divInt m (10 ^ k) := by
    rw [h, Rat.divInt_eq_div]
    push_cast
    rfl
  rw [← hq] at hdvd
  exact_mod_cast hdvd

theorem IsDecimal.den_dvd {q : ℚ} (h : IsDecimal q) : ∃ n, q.den ∣ 10 ^ n := by
  obtain ⟨m, k, hq⟩ := h
  exact ⟨k, den_dvd_pow hq⟩

/-- The digits written for `q` are those of `|q|` with its places shifted out. -/
theorem cast_digits {q : ℚ} (hq : IsDecimal q) :
    ((q.num.natAbs * (10 ^ places q.den / q.den) : ℕ) : ℚ) = |q| * 10 ^ places q.den := by
  obtain ⟨n, hn⟩ := hq.den_dvd
  obtain ⟨m, hm⟩ := dvd_places q.den_nz hn
  have hden : (q.den : ℚ) ≠ 0 := by exact_mod_cast q.den_nz
  have hpow : (10 : ℚ) ^ places q.den = q.den * m := by exact_mod_cast hm
  have habs : |q| * q.den = q.num.natAbs := by
    have hnum : ((q.num.natAbs : ℤ) : ℚ) = |(q.num : ℚ)| := by
      rw [Int.natCast_natAbs, Int.cast_abs]
    rw [Int.cast_natCast] at hnum
    rw [hnum, ← Rat.mul_den_eq_num, abs_mul, Nat.abs_cast]
  rw [hm, Nat.mul_div_cancel_left _ (Nat.pos_of_ne_zero q.den_nz), hpow, ← mul_assoc, habs]
  push_cast
  rfl

/-! ### What is written is read back -/

/-- The number an ASCII digit stands for. -/
def digitOf (c : Char) : ℕ := c.toNat - '0'.toNat

theorem digitsVal_append_one (ds : List ℕ) (d : ℕ) :
    digitsVal (ds ++ [d]) = digitsVal ds * 10 + d := by
  simp [digitsVal, List.foldl_append]

theorem digitsVal_zero_cons (ds : List ℕ) : digitsVal (0 :: ds) = digitsVal ds := rfl

theorem digitsVal_zeros (n : ℕ) (ds : List ℕ) :
    digitsVal (List.replicate n 0 ++ ds) = digitsVal ds := by
  induction n with
  | zero => rfl
  | succ n ih => rw [List.replicate_succ, List.cons_append, digitsVal_zero_cons, ih]

theorem digitOf_digitChar {d : ℕ} (h : d < 10) : digitOf (Nat.digitChar d) = d := by
  match d, h with
  | 0, _ | 1, _ | 2, _ | 3, _ | 4, _ | 5, _ | 6, _ | 7, _ | 8, _ | 9, _ => rfl

/-- The digits of `n` denote `n`. -/
theorem digitsVal_toDigits (n : ℕ) : digitsVal ((Nat.toDigits 10 n).map digitOf) = n := by
  induction n using Nat.strong_induction_on with
  | _ n ih =>
      by_cases h : n < 10
      · rw [Nat.toDigits_of_lt_base h, List.map_singleton, digitOf_digitChar h]
        exact Nat.zero_add n
      · rw [Nat.toDigits_of_base_le (by omega) (by omega), List.map_append, List.map_singleton,
          digitOf_digitChar (Nat.mod_lt _ (by omega)), digitsVal_append_one,
          ih (n / 10) (by omega)]
        omega

theorem paddedDigits_isDigit {q : ℚ} {c : Char} (h : c ∈ paddedDigits q) : c.isDigit := by
  rcases List.mem_append.mp h with hzero | hdigit
  · rw [List.eq_of_mem_replicate hzero]
    rfl
  · exact Nat.isDigit_of_mem_toDigits (by omega) (by omega) hdigit

theorem length_paddedDigits (q : ℚ) : places q.den < (paddedDigits q).length := by
  unfold paddedDigits
  rw [List.length_append, List.length_replicate]
  omega

theorem digitsVal_paddedDigits (q : ℚ) :
    digitsVal ((paddedDigits q).map digitOf) = q.num.natAbs * (10 ^ places q.den / q.den) := by
  unfold paddedDigits
  rw [List.map_append, List.map_replicate, show digitOf '0' = 0 from rfl, digitsVal_zeros,
    digitsVal_toDigits]

section RoundTrip

variable {digit : Char → Option ℕ}

/-- A reader that knows the digits of ASCII, and does not take the point for one. -/
structure ReadsDigits (digit : Char → Option ℕ) : Prop where
  ascii : ∀ c, c.isDigit = true → digit c = some (digitOf c)
  point : digit '.' = none

theorem spanDigits_append (hd : ReadsDigits digit) {cs rest : List Char}
    (hcs : ∀ c ∈ cs, c.isDigit = true) (hrest : spanDigits digit rest = ([], rest)) :
    spanDigits digit (cs ++ rest) = (cs.map digitOf, rest) := by
  induction cs with
  | nil => exact hrest
  | cons c cs ih =>
      have hc := hd.ascii c (hcs c (by simp))
      have hih := ih fun c hc => hcs c (List.mem_cons_of_mem _ hc)
      rw [List.cons_append, spanDigits, hc, hih]
      rfl

theorem spanDigits_all (hd : ReadsDigits digit) {cs : List Char}
    (hcs : ∀ c ∈ cs, c.isDigit = true) : spanDigits digit cs = (cs.map digitOf, []) := by
  have h := spanDigits_append hd hcs (rfl : spanDigits digit [] = ([], []))
  rwa [List.append_nil] at h

theorem isDigit_ne {c : Char} (h : c.isDigit = true) (d : Char) (hd : d.isDigit = false) :
    c ≠ d := by
  intro hcd
  rw [hcd, hd] at h
  exact Bool.noConfusion h

theorem splitSign_digit {c : Char} (h : c.isDigit = true) (cs : List Char) :
    splitSign (c :: cs) = (false, c :: cs) := by
  unfold splitSign
  split
  · rename_i heq
    exact absurd (List.cons.inj heq).1 (isDigit_ne h '-' rfl)
  · rename_i heq
    exact absurd (List.cons.inj heq).1 (isDigit_ne h '+' rfl)
  · rfl

theorem toLower_digit {c : Char} (h : c.isDigit = true) : c.toLower = c := by
  have hle : c.val ≤ '9'.val := by
    simp only [Char.isDigit, Bool.and_eq_true, decide_eq_true_eq] at h
    exact h.2
  unfold Char.toLower
  rw [dif_neg]
  intro hupper
  exact absurd (UInt32.le_trans hupper.1 hle) (by decide)

theorem parseSpecial_digit {c : Char} (h : c.isDigit = true) (negative : Bool)
    (cs : List Char) : parseSpecial digit negative (c :: cs) = none := by
  unfold parseSpecial
  rw [List.map_cons, toLower_digit h]
  split <;> rename_i heq
  · exact absurd (List.cons.inj heq).1 (isDigit_ne h 'i' rfl)
  · exact absurd (List.cons.inj heq).1 (isDigit_ne h 'i' rfl)
  · exact absurd (List.cons.inj heq).1 (isDigit_ne h 'n' rfl)
  · exact absurd (List.cons.inj heq).1 (isDigit_ne h 's' rfl)
  · rfl

/-- Digits, and then a point with more digits unless there are none. -/
theorem parseFinite_digits (hd : ReadsDigits digit) (negative : Bool) {ds : List Char}
    (hds : ∀ c ∈ ds, c.isDigit = true) {k : ℕ} (hk : k < ds.length) :
    parseFinite digit negative (ds.take (ds.length - k)
        ++ (if k = 0 then [] else '.' :: ds.drop (ds.length - k))) =
      some (.finite negative (digitsVal (ds.map digitOf)) (-k)) := by
  have htake : ∀ c ∈ ds.take (ds.length - k), c.isDigit = true :=
    fun c hc => hds c (List.mem_of_mem_take hc)
  have hdrop : ∀ c ∈ ds.drop (ds.length - k), c.isDigit = true :=
    fun c hc => hds c (List.mem_of_mem_drop hc)
  have hne : ds.map digitOf ≠ [] := by
    intro h
    rw [List.map_eq_nil_iff] at h
    rw [h] at hk
    exact absurd hk (by simp)
  by_cases h0 : k = 0
  · subst h0
    have hspan := spanDigits_all hd hds
    simp [parseFinite, hspan, spanFraction, parseExponent, hne]
  · have hpoint : spanDigits digit ('.' :: ds.drop (ds.length - k))
        = ([], '.' :: ds.drop (ds.length - k)) := by
      rw [spanDigits, hd.point]
    have hwhole := spanDigits_append hd htake hpoint
    have hfraction := spanDigits_all hd hdrop
    have happend : (ds.take (ds.length - k)).map digitOf ++ (ds.drop (ds.length - k)).map digitOf
        = ds.map digitOf := by
      rw [← List.map_append, List.take_append_drop]
    have hlen : ds.length - (ds.length - k) = k := by omega
    rw [if_neg h0]
    simp only [parseFinite, hwhole, spanFraction, hfraction, happend, hne, parseExponent,
      Option.map_some, if_false, List.length_map, List.length_drop, hlen]
    simp

/-- The sign, the digits and the point, as `plainChars` puts them. -/
theorem parse_plainChars (hd : ReadsDigits digit) (q : ℚ) :
    parse digit (plainChars q) = some (.finite (decide (q < 0))
      (q.num.natAbs * (10 ^ places q.den / q.den)) (-places q.den)) := by
  have hlen := length_paddedDigits q
  have hfin := parseFinite_digits hd (decide (q < 0)) (fun c => paddedDigits_isDigit) hlen
  rw [digitsVal_paddedDigits] at hfin
  obtain ⟨c, cs, hcs⟩ : ∃ c cs, (paddedDigits q).take ((paddedDigits q).length - places q.den)
      = c :: cs := by
    apply List.exists_cons_of_ne_nil
    rw [Ne, List.take_eq_nil_iff]
    rintro (h | h)
    · omega
    · rw [h] at hlen
      exact absurd hlen (by simp)
  have hc : c.isDigit = true := by
    have hmem : c ∈ (paddedDigits q).take ((paddedDigits q).length - places q.den) := by
      rw [hcs]
      exact List.mem_cons_self
    exact paddedDigits_isDigit (List.mem_of_mem_take hmem)
  rw [hcs] at hfin
  unfold parse plainChars
  simp only [hcs]
  by_cases hneg : q < 0
  · simp only [hneg, if_true, decide_true, List.cons_append, List.nil_append,
      splitSign, parseSpecial_digit hc] at hfin ⊢
    exact hfin
  · simp only [hneg, if_false, decide_false, List.cons_append, List.nil_append,
      splitSign_digit hc, parseSpecial_digit hc] at hfin ⊢
    exact hfin

/-- **What was written of a decimal fraction denotes that fraction.** -/
theorem parse_plainText (hd : ReadsDigits digit) {q : ℚ} (hq : IsDecimal q) :
    (parse digit (plainText q).toList).bind Literal.value? = some q := by
  have hpow : (10 : ℚ) ^ places q.den * 10 ^ (-(places q.den : ℤ)) = 1 := by
    rw [← zpow_natCast, ← zpow_add₀ (by norm_num), add_neg_cancel, zpow_zero]
  rw [plainText, String.toList_ofList, parse_plainChars hd, Option.bind_some]
  simp only [Literal.value?, Option.some.injEq]
  rw [cast_digits hq, mul_assoc, mul_assoc, hpow, mul_one]
  by_cases hneg : q < 0
  · simp [hneg, abs_of_neg hneg]
  · simp [hneg, abs_of_nonneg (not_lt.mp hneg)]

end RoundTrip

/-! ### Numbers a context holds are short -/

section Size

open Context

variable {prec : ℕ} {emin emax : ℤ}

/-- A held number has a bounded number of places and of digits. -/
theorem fits_of_holds {k : ℕ} (hk : (prec : ℤ) - 1 - emin ≤ k) (hemax : 0 ≤ emax) {q : ℚ}
    (h : (ofPrecision prec emin emax).Holds q) :
    places q.den ≤ k ∧
      -(places q.den : ℤ) + (if q.num.natAbs * (10 ^ places q.den / q.den) = 0 then 0
        else Nat.log 10 (q.num.natAbs * (10 ^ places q.den / q.den))) ≤ emax := by
  have hround : q = rounded prec emin q := fix_eq_rounded h
  have hlog : Int.log 10 |q| ≤ emax := by
    simp only [ofPrecision, Context.Holds] at h
    split at h
    · cases h
    · rename_i hlt
      rw [← hround] at hlt
      omega
  have hplace : -(k : ℤ) ≤ lastPlace prec emin q := by
    unfold lastPlace
    omega
  obtain ⟨m, hm⟩ := zpow_on_grid hplace
  have hgrid : q = (roundHalfEven (q / 10 ^ lastPlace prec emin q) * m : ℤ) / 10 ^ k := by
    calc q = roundHalfEven (q / 10 ^ lastPlace prec emin q) * 10 ^ lastPlace prec emin q := hround
      _ = roundHalfEven (q / 10 ^ lastPlace prec emin q) * (m * 10 ^ (-(k : ℤ))) :=
        congrArg _ hm
      _ = (roundHalfEven (q / 10 ^ lastPlace prec emin q) * m : ℤ) / 10 ^ k := by
        push_cast
        rw [zpow_neg, zpow_natCast, div_eq_mul_inv _ ((10 : ℚ) ^ k), mul_assoc]
  have hdecimal : IsDecimal q := ⟨_, _, hgrid⟩
  refine ⟨places_le q.den_nz (den_dvd_pow hgrid), ?_⟩
  split
  · omega
  · rename_i hne
    obtain ⟨e, rfl⟩ := Int.eq_ofNat_of_zero_le hemax
    have hlt : |q| < 10 ^ ((e : ℤ) + 1) := by
      have h1 : |q| < 10 ^ (Int.log 10 |q| + 1) := by
        simpa using Int.lt_zpow_succ_log_self (b := 10) (by norm_num) |q|
      exact h1.trans_le (zpow_le_zpow_right₀ (by norm_num) (by omega))
    have hsize : q.num.natAbs * (10 ^ places q.den / q.den) < 10 ^ (e + 1 + places q.den) := by
      have hcast : ((q.num.natAbs * (10 ^ places q.den / q.den) : ℕ) : ℚ)
          < 10 ^ (e + 1 + places q.den) := by
        rw [cast_digits hdecimal, pow_add]
        have hlt' : |q| < 10 ^ (e + 1) := by exact_mod_cast hlt
        exact mul_lt_mul_of_pos_right hlt' (by positivity)
      exact_mod_cast hcast
    have := Nat.log_lt_of_lt_pow hne hsize
    omega

end Size

end Decimal
