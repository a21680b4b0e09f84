/-
Programs that call the outside world.

A `Prog` is the tree of everything a piece of code may do: it has finished, it has
raised, or it makes one call and goes on with whatever the call is answered by.  An
answer is a value or an exception, and nothing else is known of it, so a statement
about every path of the tree is a statement about every behaviour of the world.

`handle` is `try`/`except`: the handler names the exceptions it takes and lets the
others through.
-/
import Mathlib.Logic.Basic

namespace Interaction

/-- Code that calls `C`, is answered by a `V` or an exception `ε`, and yields an `α`. -/
inductive Prog (C V ε α : Type) : Type where
  | done (a : α)
  | raise (e : ε)
  | call (c : C) (k : Except ε V → Prog C V ε α)

namespace Prog

variable {C C' V ε α β γ : Type}

/-- Run `p`, then `f` on what it yields.  An exception skips `f`. -/
def bind : Prog C V ε α → (α → Prog C V ε β) → Prog C V ε β
  | done a, f => f a
  | raise e, _ => raise e
  | call c k, f => call c fun r => (k r).bind f

/-- Run `p`; an exception the handler takes is replaced by the handler's program. -/
def handle (h : ε → Option (Prog C V ε α)) : Prog C V ε α → Prog C V ε α
  | done a => done a
  | raise e => (h e).getD (raise e)
  | call c k => call c fun r => (k r).handle h

/-- A computation that makes no call. -/
def ofExcept : Except ε α → Prog C V ε α
  | .ok a => done a
  | .error e => raise e

/-- Make one call and yield its answer. -/
def perform (c : C) : Prog C V ε V := call c ofExcept

/-- The same program with its calls under other names. -/
def mapCalls (f : C → C') : Prog C V ε α → Prog C' V ε α
  | done a => done a
  | raise e => raise e
  | call c k => call (f c) fun r => (k r).mapCalls f

instance : Monad (Prog C V ε) where
  pure := done
  bind := bind

instance : MonadLift (Except ε) (Prog C V ε) where
  monadLift := ofExcept

@[simp] theorem pure_eq (a : α) : (pure a : Prog C V ε α) = done a := rfl

@[simp] theorem bind_done (a : α) (f : α → Prog C V ε β) : (done a >>= f) = f a := rfl

@[simp] theorem bind_raise (e : ε) (f : α → Prog C V ε β) : (raise e >>= f) = raise e := rfl

@[simp] theorem bind_call (c : C) (k : Except ε V → Prog C V ε α) (f : α → Prog C V ε β) :
    (call c k >>= f) = call c fun r => k r >>= f := rfl

@[simp] theorem lift_eq (x : Except ε α) : (liftM x : Prog C V ε α) = ofExcept x := rfl

@[simp] theorem ofExcept_ok (a : α) : (ofExcept (.ok a) : Prog C V ε α) = done a := rfl

@[simp] theorem ofExcept_error (e : ε) : (ofExcept (.error e) : Prog C V ε α) = raise e := rfl

/-- Steps that make no call are one step that makes none. -/
theorem ofExcept_bind (x : Except ε α) (g : α → Except ε β) :
    (ofExcept x >>= fun a => ofExcept (g a) : Prog C V ε β) = ofExcept (x >>= g) := by
  cases x <;> rfl

theorem bind_assoc (p : Prog C V ε α) (f : α → Prog C V ε β) (g : β → Prog C V ε γ) :
    (p >>= f) >>= g = p >>= fun a => f a >>= g := by
  induction p with
  | done a => rfl
  | raise e => rfl
  | call c k ih =>
      show call c (fun r => (k r >>= f) >>= g) = call c fun r => k r >>= fun a => f a >>= g
      exact congrArg (call c) (funext fun r => ih r)

theorem map_id (p : Prog C V ε α) : id <$> p = p := by
  show p.bind done = p
  induction p with
  | done a => rfl
  | raise e => rfl
  | call c k ih => exact congrArg (call c) (funext ih)

/-! Renaming the calls goes through all ways of putting programs together. -/

instance : LawfulMonad (Prog C V ε) :=
  LawfulMonad.mk' _ map_id (fun _ _ => rfl) bind_assoc

end Prog

end Interaction
