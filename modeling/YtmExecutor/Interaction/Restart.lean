/-
A process that crashes and is started again.

The world outlives the process.  Between runs somebody starts a new program; while it
runs the world answers its calls; at any moment the process may be gone, and with it
everything but the world.  A call whose effect took place just before a crash is an
answer followed by a crash, so a lost reply needs no case of its own.

`running_safe` is the one induction over such histories: an invariant of the world that
every started program is safe under holds for ever, and the program that is running is
safe wherever it stands.
-/
import YtmExecutor.Interaction.Safe
import Mathlib.Logic.Relation

namespace Interaction

namespace Restart

open Prog

variable {σ C V ε α : Type}

/-- One step of the history: the world, and the program running in it if there is one. -/
inductive Step (start : σ → Prog C V ε α → σ → Prop) (step : σ → C → Except ε V → σ → Prop) :
    σ × Option (Prog C V ε α) → σ × Option (Prog C V ε α) → Prop
  | start {s s' : σ} {p : Prog C V ε α} (h : start s p s') : Step start step (s, none) (s', some p)
  | answer {s s' : σ} {c : C} {r : Except ε V} {k : Except ε V → Prog C V ε α}
      (h : step s c r s') : Step start step (s, some (call c k)) (s', some (k r))
  | finish (s : σ) (p : Prog C V ε α) (h : p.next? = none) : Step start step (s, some p) (s, none)
  | crash (s : σ) (p : Prog C V ε α) : Step start step (s, some p) (s, none)

/-- The states a history from `s₀`, with nothing running, can be in. -/
def Reachable (start : σ → Prog C V ε α → σ → Prop) (step : σ → C → Except ε V → σ → Prop)
    (s₀ : σ) : σ × Option (Prog C V ε α) → Prop :=
  Relation.ReflTransGen (Step start step) (s₀, none)

variable {start : σ → Prog C V ε α → σ → Prop} {step : σ → C → Except ε V → σ → Prop}
variable {ok : σ → C → Prop}

/-- A run of one program is a stretch of the history. -/
theorem reachable_reaches {s₀ s s' : σ} {p p' : Prog C V ε α}
    (h : Reachable start step s₀ (s, some p)) (hr : Reaches step s p s' p') :
    Reachable start step s₀ (s', some p') := by
  induction hr with
  | refl => exact h
  | answer hs _ ih => exact ih (h.tail (Step.answer hs))

/--
**Safe programs stay safe through any number of crashes and restarts.**  The world's
invariant is kept by every call that is `ok`; a program is only ever started where it is
safe; so the program that is running is safe, and the invariant holds.
-/
theorem running_safe {I : σ → Prop} {s₀ : σ} (hinit : I s₀)
    (hstart : ∀ s p s', I s → start s p s' →
      I s' ∧ Safe step ok (fun _ _ => True) p s')
    (hstep : ∀ s c r s', I s → ok s c → step s c r s' → I s')
    {x : σ × Option (Prog C V ε α)} (h : Reachable start step s₀ x) :
    I x.1 ∧ ∀ p, x.2 = some p → Safe step ok (fun _ _ => True) p x.1 := by
  induction h with
  | refl => exact ⟨hinit, by simp⟩
  | tail _ hs ih =>
      obtain ⟨hinv, hsafe⟩ := ih
      cases hs with
      | start h =>
          obtain ⟨hinv', hsafe'⟩ := hstart _ _ _ hinv h
          refine ⟨hinv', ?_⟩
          intro p hp
          simp only [Option.some.injEq] at hp
          subst hp
          exact hsafe'
      | answer h =>
          have hcall := hsafe _ rfl
          refine ⟨hstep _ _ _ _ hinv hcall.1 h, ?_⟩
          intro p hp
          simp only [Option.some.injEq] at hp
          subst hp
          exact hcall.2 _ _ h
      | finish _ _ _ => exact ⟨hinv, by simp⟩
      | crash _ _ => exact ⟨hinv, by simp⟩

/-- The call a running program is about to make is `ok`. -/
theorem running_ok {I : σ → Prop} {s₀ : σ} (hinit : I s₀)
    (hstart : ∀ s p s', I s → start s p s' →
      I s' ∧ Safe step ok (fun _ _ => True) p s')
    (hstep : ∀ s c r s', I s → ok s c → step s c r s' → I s')
    {s : σ} {c : C} {k : Except ε V → Prog C V ε α}
    (h : Reachable start step s₀ (s, some (call c k))) : ok s c :=
  ((running_safe hinit hstart hstep h).2 _ rfl).1

end Restart

end Interaction
