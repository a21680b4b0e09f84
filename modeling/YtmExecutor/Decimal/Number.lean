/-
Decimal numbers with their special values.

A `Finite` is a decimal fraction together with the proof that it is one, so whatever is
held as a `Finite` can be written out and read back.  A `Number` may also be an infinity
or a NaN.  Comparing with a NaN signals, as the trap of the default context has it.
-/
import YtmExecutor.Decimal.Text

namespace Decimal

/-- A number with finitely many decimal places. -/
structure Finite where
  val : ℚ
  isDecimal : IsDecimal val
  deriving DecidableEq

/-- A decimal fraction above zero. -/
structure Positive extends Finite where
  pos : 0 < val
  deriving DecidableEq

inductive Number where
  | finite (d : Finite)
  | infinity (negative : Bool)
  | nan (signaling : Bool)
  deriving DecidableEq

namespace Finite

def ofInt (n : ℤ) : Finite := ⟨n, isDecimal_intCast n⟩

/-- The rounded result of an operation whose exact result is a decimal fraction. -/
def fix (ctx : Context) (d : Finite) : Except Signal Finite :=
  match h : ctx.fix d.val with
  | .ok r => .ok ⟨r, ctx.fix_isDecimal d.isDecimal h⟩
  | .error e => .error e

theorem fix_eq_ok {ctx : Context} {d r : Finite} :
    d.fix ctx = .ok r ↔ ctx.fix d.val = .ok r.val := by
  unfold fix
  split
  · rename_i v hv
    rcases r with ⟨w, hw⟩
    simp only [Except.ok.injEq, Finite.mk.injEq, hv]
  · rename_i e he
    simp only [he, reduceCtorEq]

def sub (ctx : Context) (a b : Finite) : Except Signal Finite :=
  fix ctx ⟨a.val - b.val, a.isDecimal.sub b.isDecimal⟩

end Finite

/-- The number a literal denotes. -/
def Literal.toNumber : Literal → Number
  | .finite negative coefficient exponent =>
      .finite ⟨(if negative then -1 else 1) * coefficient * 10 ^ exponent, by
        refine IsDecimal.mul ?_ (isDecimal_zpow exponent)
        refine ⟨(if negative then -1 else 1) * coefficient, 0, ?_⟩
        cases negative <;> simp⟩
  | .infinity negative => .infinity negative
  | .nan signaling => .nan signaling

/-! ### The limits of a literal

The widest context there is bounds the exponents a literal may have.
-/

def maxExponent : ℤ := 999999999999999999

def minPlace : ℤ := -1999999999999999997

/-- A literal that can be held without rounding. -/
def Literal.fits : Literal → Bool
  | .finite _ coefficient exponent =>
      decide (minPlace ≤ exponent) &&
        decide (exponent + (if coefficient = 0 then 0 else Nat.log 10 coefficient) ≤ maxExponent)
  | _ => true

namespace Number

def isFinite : Number → Bool
  | .finite _ => true
  | _ => false

def isNan : Number → Bool
  | .nan _ => true
  | _ => false

/-- How two numbers compare; a NaN compares with nothing. -/
def compare : Number → Number → Except Signal Ordering
  | .nan _, _ | _, .nan _ => .error .invalidOperation
  | .finite a, .finite b => .ok (Ord.compare a.val b.val)
  | .infinity true, .infinity true | .infinity false, .infinity false => .ok .eq
  | .infinity true, _ | _, .infinity false => .ok .lt
  | .infinity false, _ | _, .infinity true => .ok .gt

def lt (a b : Number) : Except Signal Bool := (compare a b).map fun o => decide (o = .lt)

def le (a b : Number) : Except Signal Bool := (compare a b).map fun o => decide (o ≠ .gt)

def ge (a b : Number) : Except Signal Bool := le b a

def sub (ctx : Context) : Number → Number → Except Signal Number
  | .finite a, .finite b => (a.sub ctx b).map .finite
  | .nan true, _ | _, .nan true => .error .invalidOperation
  | .nan false, _ | _, .nan false => .ok (.nan false)
  | .infinity m, .infinity n => if m = n then .error .invalidOperation else .ok (.infinity m)
  | .infinity m, _ => .ok (.infinity m)
  | _, .infinity n => .ok (.infinity (!n))

theorem le_finite (a b : Finite) :
    le (.finite a) (.finite b) = .ok (decide (a.val ≤ b.val)) := by
  have h : (Ord.compare a.val b.val ≠ .gt) ↔ a.val ≤ b.val := compare_le_iff_le
  simp only [le, compare, Except.map, h]

theorem ge_finite (a b : Finite) :
    ge (.finite a) (.finite b) = .ok (decide (b.val ≤ a.val)) := le_finite b a

theorem lt_finite (a b : Finite) :
    lt (.finite a) (.finite b) = .ok (decide (a.val < b.val)) := by
  have h : (Ord.compare a.val b.val = .lt) ↔ a.val < b.val := compare_lt_iff_lt
  simp only [lt, compare, Except.map, h]

/-- Two numbers compare unless one is a NaN. -/
theorem compare_ok_iff {a b : Number} :
    (∃ o, compare a b = .ok o) ↔ a.isNan = false ∧ b.isNan = false := by
  rcases a with p | m | s <;> rcases b with q | n | t
  case nan.finite | nan.infinity | nan.nan => simp [compare, isNan]
  case finite.nan | infinity.nan => simp [compare, isNan]
  case finite.finite => simp [compare, isNan]
  case finite.infinity => cases n <;> simp [compare, isNan]
  case infinity.finite => cases m <;> simp [compare, isNan]
  case infinity.infinity => cases m <;> cases n <;> simp [compare, isNan]

theorem ge_ok_iff {a b : Number} :
    (∃ r, ge a b = .ok r) ↔ a.isNan = false ∧ b.isNan = false := by
  rw [and_comm, ← compare_ok_iff]
  unfold ge le
  cases compare b a with
  | error e => exact iff_of_false (fun ⟨_, h⟩ => by cases h) fun ⟨_, h⟩ => by cases h
  | ok o => exact iff_of_true ⟨_, rfl⟩ ⟨o, rfl⟩

/-- Turning a comparison round. -/
theorem compare_swap {a b : Number} {o : Ordering} (h : compare a b = .ok o) :
    compare b a = .ok o.swap := by
  have hfinite (p q : ℚ) : (Ord.compare p q).swap = Ord.compare q p := (Std.OrientedCmp.eq_swap).symm
  rcases a with p | m | s <;> rcases b with q | n | t
  · simp only [compare, Except.ok.injEq] at h ⊢
    rw [← h, hfinite]
  all_goals
    try cases m
    all_goals
      try cases n
      all_goals
        simp only [compare, Except.ok.injEq, reduceCtorEq] at h ⊢
        try subst h
        try rfl

/-- What is not at least a number is below it. -/
theorem lt_of_not_ge {a b : Number} (h : ge a b = .ok false) : lt a b = .ok true := by
  unfold ge le at h
  cases hc : compare b a with
  | error e => simp [hc, Except.map] at h
  | ok o =>
      have ho : o = .gt := by simpa [hc, Except.map] using h
      subst ho
      rw [lt, compare_swap hc]
      rfl

/-- Where a number stands among the rationals and the two infinities; a NaN stands nowhere. -/
def extended : Number → Option (WithBot (WithTop ℚ))
  | .finite d => some ((d.val : WithTop ℚ) : WithBot (WithTop ℚ))
  | .infinity false => some ((⊤ : WithTop ℚ) : WithBot (WithTop ℚ))
  | .infinity true => some ⊥
  | .nan _ => none

/-- Comparing is comparing the places. -/
theorem le_of_extended {a b : Number} {x y : WithBot (WithTop ℚ)} (ha : a.extended = some x)
    (hb : b.extended = some y) : le a b = .ok (decide (x ≤ y)) := by
  rcases a with p | m | s
  · obtain rfl := Option.some.inj ha
    rcases b with q | n | t
    · obtain rfl := Option.some.inj hb
      rw [le_finite]
      simp
    · cases n <;> obtain rfl := Option.some.inj hb <;> simp [le, compare, Except.map]
    · cases hb
  · rcases b with q | n | t
    · obtain rfl := Option.some.inj hb
      cases m <;> obtain rfl := Option.some.inj ha <;> simp [le, compare, Except.map]
    · cases m <;> cases n <;> obtain rfl := Option.some.inj ha <;>
        obtain rfl := Option.some.inj hb <;> simp [le, compare, Except.map]
    · cases hb
  · cases ha

theorem exists_extended_of_le {a b : Number} {r : Bool} (h : le a b = .ok r) :
    ∃ x y, a.extended = some x ∧ b.extended = some y := by
  have hnan : ∀ n : Number, n.isNan = false → ∃ x, n.extended = some x := by
    intro n hn
    rcases n with d | m | s
    · exact ⟨_, rfl⟩
    · cases m <;> exact ⟨_, rfl⟩
    · cases hn
  obtain ⟨hb, ha⟩ := ge_ok_iff.mp ⟨r, h⟩
  obtain ⟨x, hx⟩ := hnan a ha
  obtain ⟨y, hy⟩ := hnan b hb
  exact ⟨x, y, hx, hy⟩

/-- A number below a limit stays below it when the number falls or the limit rises. -/
theorem ge_false_of_le {a a' b b' : Number} (ha : le a' a = .ok true) (h : ge a b = .ok false)
    (hb : le b b' = .ok true) : ge a' b' = .ok false := by
  obtain ⟨x', x, hx', hx⟩ := exists_extended_of_le ha
  obtain ⟨y, y', hy, hy'⟩ := exists_extended_of_le hb
  rw [le_of_extended hx' hx, Except.ok.injEq, decide_eq_true_eq] at ha
  rw [le_of_extended hy hy', Except.ok.injEq, decide_eq_true_eq] at hb
  rw [ge, le_of_extended hy hx, Except.ok.injEq, decide_eq_false_iff_not, not_le] at h
  rw [ge, le_of_extended hy' hx', Except.ok.injEq, decide_eq_false_iff_not, not_le]
  exact (ha.trans_lt h).trans_le hb

/-- Rounded to the context and written without an exponent. -/
def toText (ctx : Context) : Number → Except Signal String
  | .finite d => (d.fix ctx).map fun r => Decimal.plainText r.val
  | .infinity negative => .ok (if negative then "-Infinity" else "Infinity")
  | .nan true => .error .invalidOperation
  | .nan false => .ok "NaN"

end Number

end Decimal
