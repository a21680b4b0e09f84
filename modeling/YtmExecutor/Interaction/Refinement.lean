/-
Histories with a transcript, and what they refine.

`Recorded` keeps, beside the world, every call of a history with its answer, over all its
crashes and restarts.  So a statement about two calls of one history, made perhaps by two
runs of the program, is a statement about one state.

`simulates` is the rule for comparing a history with an abstract system: where every call
that is `ok` takes one step of that system or none, whatever the history reaches is
something the abstract system reaches too.
-/
import YtmExecutor.Interaction.Restart
import YtmExecutor.Interaction.Run

namespace Interaction

open Relation

namespace Prog

variable {σ C V ε α : Type}

/-- A step of the world that is put down in the transcript. -/
def Recording (step : σ → C → Except ε V → σ → Prop) (x : σ × Transcript C V ε) (c : C)
    (r : Except ε V) (x' : σ × Transcript C V ε) : Prop :=
  step x.1 c r x'.1 ∧ x'.2 = x.2 ++ [(c, r)]

variable {step : σ → C → Except ε V → σ → Prop} {ok : σ → C → Prop}

/-- What is safe is safe when somebody takes notes. -/
theorem Safe.recording {post : σ → Except ε α → Prop} {p : Prog C V ε α} {s : σ}
    (h : Safe step ok post p s) (t : Transcript C V ε) :
    Safe (Recording step) (fun x c => ok x.1 c) (fun x r => post x.1 r) p (s, t) := by
  induction p generalizing s t with
  | done a => exact h
  | raise e => exact h
  | call c k ih =>
      refine ⟨h.1, ?_⟩
      rintro r ⟨s', t'⟩ ⟨hstep, _⟩
      exact ih r (h.2 r s' hstep) t'

/-! ### Computing a history -/

variable {ρ : Type}

/-- A move of the world that is put down in the transcript. -/
def recordMove (move : σ → C → ρ → Option (Except ε V × σ)) (x : σ × Transcript C V ε) (c : C)
    (m : ρ) : Option (Except ε V × (σ × Transcript C V ε)) :=
  (move x.1 c m).map fun y => (y.1, (y.2, x.2 ++ [(c, y.1)]))

theorem recordMove_step {move : σ → C → ρ → Option (Except ε V × σ)}
    {step : σ → C → Except ε V → σ → Prop}
    (hmove : ∀ s c m r s', move s c m = some (r, s') → step s c r s')
    {x x' : σ × Transcript C V ε} {c : C} {m : ρ} {r : Except ε V}
    (h : recordMove move x c m = some (r, x')) : Recording step x c r x' := by
  obtain ⟨y, hy, hx'⟩ := Option.map_eq_some_iff.mp h
  obtain ⟨rfl, rfl⟩ := Prod.mk.inj hx'
  exact ⟨hmove _ _ _ _ _ hy, rfl⟩

end Prog

namespace Restart

open Prog

variable {σ τ C V ε α : Type}

def StartRecording (start : σ → Prog C V ε α → σ → Prop) (x : σ × Transcript C V ε)
    (p : Prog C V ε α) (x' : σ × Transcript C V ε) : Prop :=
  start x.1 p x'.1 ∧ x'.2 = x.2

/-- The states of the histories from `s₀`, each with its transcript. -/
def Recorded (start : σ → Prog C V ε α → σ → Prop) (step : σ → C → Except ε V → σ → Prop)
    (s₀ : σ) : (σ × Transcript C V ε) × Option (Prog C V ε α) → Prop :=
  Reachable (StartRecording start) (Recording step) (s₀, [])

variable {start : σ → Prog C V ε α → σ → Prop} {step : σ → C → Except ε V → σ → Prop}

/-- Nothing that was said is forgotten. -/
theorem transcript_extends {x y : (σ × Transcript C V ε) × Option (Prog C V ε α)}
    (h : ReflTransGen (Step (StartRecording start) (Recording step)) x y) :
    ∃ later, y.1.2 = x.1.2 ++ later := by
  induction h with
  | refl => exact ⟨[], (List.append_nil _).symm⟩
  | tail _ hs ih =>
      obtain ⟨later, hlater⟩ := ih
      cases hs with
      | start h => exact ⟨later, h.2.trans hlater⟩
      | answer h => exact ⟨_, by rw [h.2, hlater, List.append_assoc]⟩
      | finish _ _ _ => exact ⟨later, hlater⟩
      | crash _ _ => exact ⟨later, hlater⟩

/-! ### Simulation -/

/--
**A history is a run of the abstract system**, seen through `abs`: from any state it has
reached to any later one.  Every call that is `ok` is one step there or none, and starting
a program is none.
-/
theorem simulates (I : σ → Prop) (ok : σ → C → Prop) {abs : σ → τ} {next : τ → τ → Prop}
    {s₀ : σ} (hinit : I s₀)
    (hstart : ∀ s p s', I s → start s p s' →
      (I s' ∧ abs s' = abs s) ∧ Safe step ok (fun _ _ => True) p s')
    (hstep : ∀ s c r s', I s → ok s c → step s c r s' →
      I s' ∧ ReflGen next (abs s) (abs s'))
    {x y : σ × Option (Prog C V ε α)} (hx : Reachable start step s₀ x)
    (hxy : ReflTransGen (Step start step) x y) : ReflTransGen next (abs x.1) (abs y.1) := by
  have hsafe {z : σ × Option (Prog C V ε α)} (hz : Reachable start step s₀ z) :
      I z.1 ∧ ∀ p, z.2 = some p → Safe step ok (fun _ _ => True) p z.1 := by
    refine running_safe hinit (fun s p s' hs h => ?_) (fun s c r s' hs hc h => ?_) hz
    · obtain ⟨⟨hs', _⟩, hp⟩ := hstart s p s' hs h
      exact ⟨hs', hp⟩
    · exact (hstep s c r s' hs hc h).1
  induction hxy with
  | refl => exact ReflTransGen.refl
  | tail hbefore hs ih =>
      obtain ⟨hinv, hrunning⟩ := hsafe (hx.trans hbefore)
      cases hs with
      | start h =>
          rw [(hstart _ _ _ hinv h).1.2]
          exact ih
      | answer h =>
          have hcall := hrunning _ rfl
          exact ih.trans (hstep _ _ _ _ hinv hcall.1 h).2.to_reflTransGen
      | finish _ _ _ => exact ih
      | crash _ _ => exact ih

end Restart

end Interaction
