/-
Two programs an observer cannot tell apart.

`Alike same p q` says that `p` and `q` make the same calls up to `same`, whatever they
are answered by, and come to the same outcome.  It is what a two-run property of a
program needs: fed the same answers, the two make lists of calls that agree up to
`same` entry by entry, so anything read off a call that `same` respects is equal.

It is also the one walk over a program that serves several ends: a program alike to
itself for calls of a kind makes calls of that kind only.
-/
import YtmExecutor.Interaction.Safe
import Mathlib.Data.List.Forall2

namespace Interaction

namespace Prog

variable {C V ε α β : Type}

/-- The same calls up to `same`, and the same outcome, for every answer. -/
inductive Alike (same : C → C → Prop) : Prog C V ε α → Prog C V ε α → Prop
  | done (a : α) : Alike same (done a) (done a)
  | raise (e : ε) : Alike same (raise e) (raise e)
  | call {c c' : C} {k k' : Except ε V → Prog C V ε α} (h : same c c')
      (hk : ∀ r, Alike same (k r) (k' r)) : Alike same (call c k) (call c' k')

variable {same : C → C → Prop}

theorem Alike.refl (h : ∀ c, same c c) (p : Prog C V ε α) : Alike same p p := by
  induction p with
  | done a => exact Alike.done a
  | raise e => exact Alike.raise e
  | call c k ih => exact Alike.call (h c) ih

theorem Alike.ofExcept (x : Except ε α) :
    Alike same (ofExcept x : Prog C V ε α) (Prog.ofExcept x) := by
  cases x with
  | ok a => exact Alike.done a
  | error e => exact Alike.raise e

theorem Alike.perform {c c' : C} (h : same c c') :
    Alike same (perform c : Prog C V ε V) (perform c') :=
  Alike.call h fun r => Alike.ofExcept r

theorem Alike.bind {p q : Prog C V ε α} {f g : α → Prog C V ε β} (h : Alike same p q)
    (hf : ∀ a, Alike same (f a) (g a)) : Alike same (p >>= f) (q >>= g) := by
  induction h with
  | done a => exact hf a
  | raise e => exact Alike.raise e
  | call h _ ih => exact Alike.call h ih

theorem Alike.handle {p q : Prog C V ε α} {h h' : ε → Option (Prog C V ε α)}
    (hpq : Alike same p q) (hh : ∀ e, Option.Rel (Alike same) (h e) (h' e)) :
    Alike same (p.handle h) (q.handle h') := by
  induction hpq with
  | done a => exact Alike.done a
  | raise e =>
      have he := hh e
      unfold Prog.handle
      cases hq : h e <;> cases hq' : h' e <;> rw [hq, hq'] at he <;> cases he
      · exact Alike.raise e
      · rename_i hrel
        exact hrel
  | call h _ ih => exact Alike.call h ih

/-- Values related by `R`, or the same exception. -/
inductive AgreeUpTo {α' : Type} (R : α → α' → Prop) : Except ε α → Except ε α' → Prop
  | ok {a : α} {a' : α'} (h : R a a') : AgreeUpTo R (.ok a) (.ok a')
  | error (e : ε) : AgreeUpTo R (.error e) (.error e)

theorem AgreeUpTo.bind {α' β' : Type} {R : α → α' → Prop} {S : β → β' → Prop}
    {x : Except ε α} {y : Except ε α'} {f : α → Except ε β} {g : α' → Except ε β'}
    (h : AgreeUpTo R x y) (hfg : ∀ a a', R a a' → AgreeUpTo S (f a) (g a')) :
    AgreeUpTo S (x >>= f) (y >>= g) := by
  cases h with
  | ok hR => exact hfg _ _ hR
  | error e => exact AgreeUpTo.error e

/-- The same steps on both sides, from the same value on. -/
theorem AgreeUpTo.after {β' : Type} {S : β → β' → Prop} (x : Except ε α)
    {f : α → Except ε β} {g : α → Except ε β'}
    (hfg : ∀ a, x = .ok a → AgreeUpTo S (f a) (g a)) : AgreeUpTo S (x >>= f) (x >>= g) := by
  cases x with
  | ok a => exact hfg a rfl
  | error e => exact AgreeUpTo.error e

/-- Going on from values that differ, without a call to show it. -/
theorem AgreeUpTo.alike_bind {α' : Type} {R : α → α' → Prop} {x : Except ε α}
    {y : Except ε α'} {f : α → Prog C V ε β} {g : α' → Prog C V ε β} (h : AgreeUpTo R x y)
    (hfg : ∀ a a', R a a' → Alike same (f a) (g a')) :
    Alike same (Prog.ofExcept x >>= f) (Prog.ofExcept y >>= g) := by
  cases h with
  | ok hR => exact hfg _ _ hR
  | error e => exact Alike.raise e

/-- The same steps without a call on both sides, from the same value on. -/
theorem Alike.after (x : Except ε α) {f g : α → Prog C V ε β}
    (hfg : ∀ a, x = .ok a → Alike same (f a) (g a)) :
    Alike same (Prog.ofExcept x >>= f) (Prog.ofExcept x >>= g) := by
  cases x with
  | ok a => exact hfg a rfl
  | error e => exact Alike.raise e

/-- A program walked once as alike to itself is walked for the kind of its calls as well. -/
theorem Alike.callsOnly {Q : C → Prop} {p q : Prog C V ε α} (h : Alike same p q)
    (hQ : ∀ c c', same c c' → Q c) : CallsOnly Q p := by
  induction h with
  | done a => trivial
  | raise e => trivial
  | call h _ ih => exact ⟨hQ _ _ h, fun r _ _ => ih r⟩

theorem CallsOnly.alike {Q : C → Prop} {p : Prog C V ε α} (h : CallsOnly Q p) :
    Alike (fun c _ => Q c) p p := by
  induction p with
  | done a => exact Alike.done a
  | raise e => exact Alike.raise e
  | call c k ih => exact Alike.call h.1 fun r => ih r (h.2 r () trivial)

/-- The calls `p` makes while it is fed the answers `rs`. -/
def calls : List (Except ε V) → Prog C V ε α → List C
  | [], call c _ => [c]
  | r :: rs, call c k => c :: calls rs (k r)
  | _, _ => []

/-- Fed the same answers, alike programs make alike calls. -/
theorem Alike.calls {p q : Prog C V ε α} (h : Alike same p q) :
    ∀ rs : List (Except ε V), List.Forall₂ same (calls rs p) (Prog.calls rs q) := by
  induction h with
  | done a => intro rs; cases rs <;> exact List.Forall₂.nil
  | raise e => intro rs; cases rs <;> exact List.Forall₂.nil
  | call h _ ih =>
      intro rs
      cases rs with
      | nil => exact List.Forall₂.cons h List.Forall₂.nil
      | cons r rs => exact List.Forall₂.cons h (ih r rs)

/-- What can be read off a call up to `same` is read off both runs alike. -/
theorem Alike.filterMap_calls {γ : Type} {p q : Prog C V ε α} (h : Alike same p q)
    {f : C → Option γ} (hf : ∀ c c', same c c' → f c = f c') (rs : List (Except ε V)) :
    (Prog.calls rs p).filterMap f = (Prog.calls rs q).filterMap f := by
  have hcalls := h.calls rs
  generalize Prog.calls rs p = xs at hcalls
  generalize Prog.calls rs q = ys at hcalls
  induction hcalls with
  | nil => rfl
  | cons hxy _ ih => rw [List.filterMap_cons, List.filterMap_cons, hf _ _ hxy, ih]

end Prog

end Interaction
