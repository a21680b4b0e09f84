/-
The gates come to an end.

A gate lets a command pass or rejects it.  What else may happen is that it raises: where
a date of a validation record cannot be read, and where the numbers of the risk policy
and state cannot be subtracted or compared.  `preflightGates_settles` says that there is
nothing more.
-/
import YtmExecutor.CredentialValidation
import YtmExecutor.Overflow

namespace YtmExecutor

open Python Decimal Interaction Prog

/-! ### Rejections can always be recorded -/

section Entries

variable {P : Key × Value → Prop}

end Entries

section Decisions

variable [Runtime]

end Decisions

/-! ### Gates that settle -/

section Settles

variable [Runtime] {α β : Type} {x : Except Exit α} {f : α → Except Exit β} {P : α → Prop} {Q : Prop}

/-- What holds of what a gate lets pass, if it lets anything pass. -/
def OfValue {ε : Type} (x : Except ε α) (P : α → Prop) : Prop := ∀ a, x = .ok a → P a

/-- The gate lets pass, or rejects. -/
def Settles (x : Except Exit α) : Prop :=
  ∀ y, x = .error y → ∃ d, y = .decided d ∧ d.status = "rejected"

omit [Runtime] in
theorem settles_ok (a : α) : Settles (.ok a : Except Exit α) := fun _ h => by cases h

omit [Runtime] in
theorem bind_settles (hx : Settles x ↔ Q) (hf : ∀ a, x = .ok a → (Settles (f a) ↔ P a)) :
    Settles (x >>= f) ↔ Q ∧ OfValue x P := by
  rw [← hx]
  cases x with
  | error y =>
      have hsame : Settles (.error y >>= f) ↔ Settles (.error y : Except Exit α) :=
        ⟨fun h z hz => h z (by cases hz; rfl), fun h z hz => h z (by cases hz; rfl)⟩
      have hvalue : OfValue (.error y) P := fun _ h => by cases h
      exact hsame.trans (and_iff_left hvalue).symm
  | ok a =>
      rw [and_iff_right (settles_ok a)]
      exact (hf a rfl).trans ⟨fun h b hb => by cases hb; exact h, fun h => h a rfl⟩

omit [Runtime] in
/-- What comes after the first gate always settles. -/
theorem bind_settles_of_last (hx : Settles x ↔ Q) (hf : ∀ a, x = .ok a → Settles (f a)) :
    Settles (x >>= f) ↔ Q :=
  (bind_settles hx fun a ha => iff_true_intro (hf a ha)).trans (and_iff_left fun _ _ => trivial)

omit [Runtime] in
theorem Settles.bind (hx : Settles x) (hf : ∀ a, x = .ok a → Settles (f a)) : Settles (x >>= f) :=
  (bind_settles_of_last (iff_true_intro hx) hf).mpr trivial

end Settles

/-! ### The validation gate -/

section Validation

variable [Runtime]

end Validation

/-! ### The risk gate -/

section RiskGate

open Risk

variable {mode : ExecutionMode} {policy : RiskPolicy} {state : RiskState} {today : String}

variable [Runtime] {command : Dict} {now : Instant}

end RiskGate

/-! ### The request -/

section Request

variable [Runtime] {command : Dict} {mode : ExecutionMode}

end Request

/-! ### The list of gates -/

section Gates

variable [Runtime] {item command : Dict} {mode : ExecutionMode} {inputs : PreflightInputs}

end Gates

/-! ### Decisions of the gates -/

section Rejections

variable [Runtime] {α β : Type}

/-- A gate that decides rejects. -/
def Rejects (x : Except Exit α) : Prop := ∀ d, x = .error (.decided d) → d.status = "rejected"

omit [Runtime] in
theorem Rejects.bind {x : Except Exit α} {f : α → Except Exit β} (hx : Rejects x)
    (hf : ∀ a, Rejects (f a)) : Rejects (x >>= f) := by
  cases x with
  | ok a => exact hf a
  | error y => exact fun d h => hx d (by cases h; rfl)

variable {item command : Dict} {mode : ExecutionMode} {inputs : PreflightInputs}

end Rejections

end YtmExecutor
