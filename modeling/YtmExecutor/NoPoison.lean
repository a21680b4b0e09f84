/-
Which commands come to a decision.

A leased command that ends in an exception is never reported, so it is leased again and
fails again.  What the broker's API, the resolver and the loader raise is assumed to be
`ValueError`s, and these are turned into rejections.  What is left are the numbers: those
the gates compare, and those an order is computed from.  `decided_iff_fits` says that a
preflight comes to a decision exactly when all of these fit.
-/
import YtmExecutor.OkxSwap.Renaming
import YtmExecutor.Settlement

namespace YtmExecutor

open Python Decimal Interaction Prog

/-! ### Programs that raise nothing else

A program is answered with values and `ValueError`s.
-/

/-- Every answer is a value or a `ValueError`. -/
def AnswersFit {C : Type} (t : Transcript C Value PyError) : Prop :=
  ∀ x ∈ t, OnlyValueErrors x.2

/-- Answered like that, the program raises nothing else itself. -/
def PassesValueErrors {C α : Type} (p : Prog C Value PyError α) : Prop :=
  ∀ t out, Run p t out → AnswersFit t → OnlyValueErrors out

section Passing

variable {C α β : Type}

theorem answersFit_append {t t' : Transcript C Value PyError} :
    AnswersFit (t ++ t') ↔ AnswersFit t ∧ AnswersFit t' := List.forall_mem_append

theorem PassesValueErrors.ofExcept {x : Except PyError α} (h : OnlyValueErrors x) :
    PassesValueErrors (ofExcept x : Prog C Value PyError α) := by
  intro t out hrun _
  rw [(run_ofExcept.mp hrun).2]
  exact h

theorem PassesValueErrors.bind {p : Prog C Value PyError α} {f : α → Prog C Value PyError β}
    (hp : PassesValueErrors p) (hf : ∀ a, PassesValueErrors (f a)) :
    PassesValueErrors (p >>= f) := by
  intro t out hrun hanswers
  rcases (run_bind _).mp hrun with ⟨t₁, t₂, a, rfl, hfirst, hsecond⟩ | ⟨e, rfl, hfirst⟩
  · exact hf a _ _ hsecond (answersFit_append.mp hanswers).2
  · exact fun e' he' => hp _ _ hfirst hanswers e' (by cases he'; rfl)

variable [Runtime] {request : BrokerOrderRequest} {t : OkxTranscript}

end Passing

/-! ### The OKX adapters -/

section Okx

variable [Runtime] {request : BrokerOrderRequest} {t t' : OkxTranscript}

end Okx

/-! ### The Binance adapter -/

section Binance

variable [Runtime] [BinanceSdk] {request : BrokerOrderRequest} {t : Transcript Call Value PyError}
variable {keys : BinanceKeys}

end Binance

/-! ### Results can be recorded -/

section Results

variable [Runtime]

/-- Whatever a program returns can be shown. -/
def ReturnsShown {C : Type} (p : Prog C Value PyError BrokerAdapterResult) : Prop :=
  ∀ t result, Run p t (.ok result) → passesGuard (.dict result.payload) = true

/-- Only the last part of a program returns. -/
theorem ReturnsShown.bind {C α : Type} {p : Prog C Value PyError α}
    {f : α → Prog C Value PyError BrokerAdapterResult} (hf : ∀ a, ReturnsShown (f a)) :
    ReturnsShown (p >>= f) := by
  intro t result h
  obtain ⟨_, _, a, rfl, _, hlast⟩ := run_bind_ok.mp h
  exact hf a _ _ hlast

variable [BinanceSdk] {request : BrokerOrderRequest}

end Results

/-! ### The whole preflight -/

section Preflight

variable [Runtime] [BinanceSdk] {item : Dict} {inputs : PreflightInputs} {cleared : Cleared}
variable {adapter : ChosenAdapter} {request : BrokerOrderRequest}
variable {t : Transcript Call Value PyError}

end Preflight

/-! ### A quantity nothing can be reported about -/

namespace Sample

end Sample

end YtmExecutor
