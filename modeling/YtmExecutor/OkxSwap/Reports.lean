/-
What the placement adapter reports.

Every payload is built from fixed keys, none of which is a secret's, so the guard never
objects to a report.  That matters once an order is accepted: the guard raises a
`ValueError`, and a `ValueError` of the adapter is a rejection.
-/
import YtmExecutor.OkxSwap.Calls

namespace YtmExecutor

open Python Decimal Interaction Prog

/-! ### Dicts with fixed keys -/

theorem isPublic_dict (entries : Dict) : isPublic (.dict entries) = isPublicEntries entries := rfl

theorem isPublic_append {a b : Dict} (ha : isPublic (.dict a) = true)
    (hb : isPublic (.dict b) = true) : isPublic (.dict (a ++ b)) = true := by
  rw [isPublic_dict] at ha hb ⊢
  rw [isPublicEntries_append, ha, hb]
  rfl

theorem isPublic_optionalEntry {key : String} (hkey : isPublicKey (.str key) = true)
    (text : Option String) : isPublic (.dict (optionalEntry key text)) = true := by
  cases text with
  | none => rfl
  | some text =>
      show (isPublicKey (.str key) && (isPublic (.str text) && isPublicEntries [])) = true
      rw [hkey]
      rfl

theorem isPublic_dictEntry {key : String} (hkey : isPublicKey (.str key) = true)
    {entries : Option Dict} (h : ∀ d, entries = some d → isPublic (.dict d) = true) :
    isPublic (.dict (dictEntry key entries)) = true := by
  cases entries with
  | none => rfl
  | some d =>
      show (isPublicKey (.str key) && (isPublic (.dict d) && isPublicEntries [])) = true
      rw [hkey, h d rfl]
      rfl

theorem isPublic_nonEmptyEntries (entries : List (String × String))
    (h : (entries.all fun entry => isPublicKey (.str entry.1)) = true) :
    isPublic (.dict (nonEmptyEntries entries)) = true := by
  induction entries with
  | nil => rfl
  | cons entry rest ih =>
      obtain ⟨key, text⟩ := entry
      simp only [List.all_cons, Bool.and_eq_true] at h
      rw [nonEmptyEntries]
      split
      · exact ih h.2
      · show (isPublicKey (.str key) && (isPublic (.str text) && isPublicEntries _)) = true
        rw [h.1, ← isPublic_dict, ih h.2]
        rfl

/-- What is read off a public dict is public. -/
theorem isPublic_get {entries : Dict} (h : isPublic (.dict entries) = true) (key : String) :
    isPublic (entries.get key) = true := by
  rw [isPublic_dict] at h
  unfold Dict.get
  induction entries with
  | nil => rfl
  | cons entry rest ih =>
      obtain ⟨k, v⟩ := entry
      simp only [isPublicEntries, Bool.and_eq_true] at h
      rw [Dict.get?]
      split
      · exact h.2.1
      · exact ih h.2.2

theorem isPublic_expectedTriggers (expected : AttachedTpSl) :
    isPublic (.dict (expectedTriggers expected)) = true := by
  refine isPublic_append rfl ?_
  cases expected.takeProfit <;> rfl

theorem isPublic_expectedProtectionPublic (expected : Option AttachedTpSl) :
    isPublic (.dict (expectedProtectionPublic expected)) = true := by
  cases expected with
  | none => rfl
  | some expected =>
      have hone : isPublic (.dict [("algoClientOrderId", .str expected.attachAlgoClOrdId)]) = true :=
        rfl
      exact isPublic_append hone (isPublic_expectedTriggers expected)

/-! ### The protection -/

/-- No `ValueError` is raised. -/
def NoValueError {α : Type} (r : Except PyError α) : Prop := ∀ message, r ≠ .error (.valueError message)

theorem noValueError_ok {α : Type} {a : α} : NoValueError (.ok a : Except PyError α) := nofun

/-- A report without secret-like keys, or an exception. -/
def PublicReport (r : Except PyError Dict) : Prop := ∀ d, r = .ok d → isPublic (.dict d) = true

theorem publicReport_ok {d : Dict} (h : isPublic (.dict d) = true) : PublicReport (.ok d) := by
  intro d' hd
  rw [← Except.ok.inj hd]
  exact h

theorem publicReport_error {e : PyError} : PublicReport (.error e) := nofun

section Protection

variable [Runtime] {ctx : Context} {C : Type} {api : OkxCall → Prog C Value PyError Value}
variable {request : BrokerOrderRequest} {rules : OkxSwapInstrumentRules}
variable {expected : AttachedTpSl} {providerOrderId : String}

omit [Runtime] in
/-- A program whose last step reports publicly does. -/
theorem yields_publicReport_bind {α : Type} {p : Prog C Value PyError α}
    {f : α → Prog C Value PyError Dict} (h : ∀ a, Yields PublicReport (f a)) :
    Yields PublicReport (p >>= f) :=
  Yields.bind (Yields.of_forall (fun _ => trivial) p) (fun a _ => h a) fun _ _ => publicReport_error

omit [Runtime] in
theorem yields_publicReport_done {d : Dict} (h : isPublic (.dict d) = true) :
    Yields PublicReport (done d : Prog C Value PyError Dict) :=
  Yields.ofExcept (publicReport_ok h)

theorem remediatePosition_yields {position : Dict} {reasonCode : String} :
    Yields PublicReport (remediatePosition ctx api request providerOrderId position rules expected
      reasonCode) := by
  refine Yields.handle (P := PublicReport) ?_ (fun _ h => h) (fun _ h _ => h) ?_
  · refine yields_publicReport_bind fun params => ?_
    refine yields_publicReport_bind fun items => ?_
    refine yields_publicReport_bind fun response => yields_publicReport_done ?_
    refine isPublic_append (isPublic_append ?_ (isPublic_expectedTriggers expected)) rfl
    cases okxOptionalText (response.get "algoId") <;> rfl
  · intro e q _ hq
    cases e with
    | valueError message =>
        rw [← Option.some.inj hq]
        refine yields_publicReport_done ?_
        exact isPublic_append (isPublic_append rfl (isPublic_expectedTriggers expected)) rfl
    | decimal signal => cases hq
    | other kind message => cases hq

theorem verifyOrRemediateProtection_yields {params : OrderParams} {response : Dict} :
    Yields PublicReport (verifyOrRemediateProtection ctx api request params response
      providerOrderId rules) := by
  unfold verifyOrRemediateProtection
  split
  · exact yields_publicReport_done rfl
  · rename_i expected _
    have hpending : isPublic (.dict (expectedProtectionPublic (some expected))) = true :=
      isPublic_expectedProtectionPublic _
    dsimp only
    split
    · refine yields_publicReport_bind fun position => ?_
      cases position with
      | some position => exact remediatePosition_yields
      | none => exact yields_publicReport_done (isPublic_append hpending rfl)
    · refine yields_publicReport_bind fun found => ?_
      cases found with
      | some pending =>
          refine yields_publicReport_done (isPublic_append (isPublic_append ?_
            (isPublic_expectedTriggers expected)) rfl)
          cases okxOptionalText (pending.get "algoClOrdId") <;>
            cases okxOptionalText (pending.get "algoId") <;> rfl
      | none =>
          refine yields_publicReport_bind fun position => ?_
          cases position with
          | some position => exact remediatePosition_yields
          | none => exact yields_publicReport_done (isPublic_append hpending rfl)

/-! ### Nothing after the order is a `ValueError` -/

/-- Verifying the protection raises no `ValueError`, and what it reports is public. -/
theorem safeVerifyOrRemediateProtection_yields {params : OrderParams} {response : Dict} :
    Yields (fun r => NoValueError r ∧ PublicReport r)
      (safeVerifyOrRemediateProtection ctx api request params response providerOrderId rules) := by
  refine Yields.handle (P := PublicReport) verifyOrRemediateProtection_yields
    (fun _ h => ⟨noValueError_ok, h⟩) ?_ ?_
  · intro e h hnone
    refine ⟨?_, h⟩
    rintro message heq
    rw [Except.error.inj heq] at hnone
    cases hnone
  · intro e q _ hq
    cases e with
    | valueError message =>
        rw [← Option.some.inj hq]
        refine Yields.ofExcept (x := .ok _) ⟨noValueError_ok, publicReport_ok ?_⟩
        exact isPublic_append (isPublic_append rfl (isPublic_expectedProtectionPublic _)) rfl
    | decimal signal => cases hq
    | other kind message => cases hq

end Protection

/-! ### The order -/

theorem isPublic_publicAttachedStopLoss {item : AttachedTpSl} {d : Dict}
    (h : publicAttachedStopLoss item = some d) : isPublic (.dict d) = true := by
  unfold publicAttachedStopLoss at h
  split at h
  · rw [← Option.some.inj h]
    exact isPublic_nonEmptyEntries _ (by simp only [List.all_cons]; rfl)
  · cases h

theorem isPublic_publicAttachedTakeProfit {item : AttachedTpSl} {d : Dict}
    (h : publicAttachedTakeProfit item = some d) : isPublic (.dict d) = true := by
  unfold publicAttachedTakeProfit at h
  split at h
  · cases h
  · split at h
    · rw [← Option.some.inj h]
      exact isPublic_nonEmptyEntries _ (by simp only [List.all_cons]; rfl)
    · cases h

theorem isPublic_normalizedOrderEntries (params : OrderParams) :
    isPublic (.dict (normalizedOrderEntries params)) = true := by
  refine isPublic_append (isPublic_append (isPublic_append (isPublic_append rfl
    (isPublic_optionalEntry rfl _)) (isPublic_optionalEntry rfl _)) ?_) ?_
  · refine isPublic_dictEntry rfl fun d hd => ?_
    obtain ⟨item, _, hitem⟩ := Option.bind_eq_some_iff.mp hd
    exact isPublic_publicAttachedStopLoss hitem
  · refine isPublic_dictEntry rfl fun d hd => ?_
    obtain ⟨item, _, hitem⟩ := Option.bind_eq_some_iff.mp hd
    exact isPublic_publicAttachedTakeProfit hitem

section Payload

variable [Runtime]

theorem isPublic_verifiedSetLeveragePayload {items : List Dict} {params : LeverageParams}
    {payload : Dict} (h : verifiedSetLeveragePayload items params = .ok payload) :
    isPublic (.dict payload) = true := by
  unfold verifiedSetLeveragePayload at h
  split at h
  · cases h
  · obtain ⟨_, _, h⟩ := bind_eq_ok.mp h
    rw [← Except.ok.inj h]
    exact isPublic_append rfl (isPublic_optionalEntry rfl _)
  · cases h

/-- The normalized order is always shown. -/
theorem publicNormalizedOrder_ok (params : OrderParams) :
    publicNormalizedOrder params = .ok (normalizedOrderEntries params) := by
  unfold publicNormalizedOrder
  rw [rejectSecretFields_of_isPublic (isPublic_normalizedOrderEntries params)]
  rfl

/-- The dicts a preparation carries are public. -/
structure PublicPreparation (preparation : Preparation) : Prop where
  leverage : ∀ d, preparation.leverage = some d → isPublic (.dict d) = true
  precheck : isPublic (.dict preparation.precheck) = true

omit [Runtime] in
theorem isPublic_placementEntries {preparation : Preparation} {entered : EnteredOrder}
    {protection normalizedOrder : Dict} (hpreparation : PublicPreparation preparation)
    (hprotection : isPublic (.dict protection) = true)
    (horder : isPublic (.dict normalizedOrder) = true) :
    isPublic (.dict (placementEntries preparation entered protection normalizedOrder)) = true := by
  have hleverage : isPublic ((preparation.leverage.map .dict).getD .none) = true := by
    cases h : preparation.leverage with
    | none => rfl
    | some d => exact hpreparation.leverage d h
  have hstatus := isPublic_get hprotection "status"
  refine isPublic_append (isPublic_append ?_ (isPublic_optionalEntry rfl _))
    (isPublic_optionalEntry rfl _)
  rw [isPublic_dict]
  simp only [isPublicEntries, Bool.and_eq_true]
  exact ⟨rfl, rfl, rfl, rfl, rfl, rfl, rfl, rfl, rfl, rfl, rfl, rfl, rfl, rfl, rfl, hleverage, rfl,
    horder, rfl, hpreparation.precheck, rfl, hprotection, rfl, hstatus, rfl, rfl, rfl, rfl, rfl,
    rfl, trivial⟩

/-- The result of an accepted order is always shown. -/
theorem placementPayload_ok {preparation : Preparation} {entered : EnteredOrder} {protection : Dict}
    (hpreparation : PublicPreparation preparation) (hprotection : isPublic (.dict protection) = true) :
    placementPayload preparation entered protection = .ok (placementEntries preparation entered
      protection (normalizedOrderEntries preparation.params)) := by
  have hpublic : isPublic (.dict (placementEntries preparation entered protection _)) = true :=
    isPublic_placementEntries hpreparation hprotection
      (isPublic_normalizedOrderEntries preparation.params)
  unfold placementPayload
  rw [publicNormalizedOrder_ok]
  show (rejectSecretFields [] (.dict (placementEntries _ _ _ _)) >>= fun _ => _) = _
  rw [rejectSecretFields_of_isPublic hpublic]
  rfl

end Payload

end YtmExecutor
