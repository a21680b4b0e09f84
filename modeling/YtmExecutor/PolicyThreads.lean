/-
The policy's file between the operator and the executor.

`risk init` writes the policy, in a process of its own; a turn reads it when it begins and
once more right before a real order.  So an operator can turn the kill switch on while a
turn is under way, and the second reading is there for him.

`risk init` does not look at the policy in the file, it only may refuse to overwrite one.
So the file is a register whose value is what the last `risk init` has made, and one that
was torn is repaired by the next.  Whoever changes something at the broker has twice read
a policy that some `risk init` wrote to allow it, the second one not before the first
(`change_permitted`).
-/
import YtmExecutor.CredentialEvidence
import YtmExecutor.PolicyRoundTrip
import YtmExecutor.RiskThreads
import YtmExecutor.ValidationStore

namespace YtmExecutor

open Python Decimal Interaction Prog Relation

/-! ### A policy, written and read back -/

/-- A value without parts is read back as it was. -/
theorem loads_of_isScalar {v : Value} (h : Validation.isScalar v = true) {j : Json}
    (hj : dumps v = .ok j) : loads j = v := by
  cases v with
  | none | bool | int | str =>
      cases hj
      rfl
  | float | list | tuple | dict => cases h

theorem mem_of_get? {entries : Dict} {key : String} {v : Value}
    (h : Dict.get? entries key = some v) : (.str key, v) ∈ entries := by
  induction entries with
  | nil => cases h
  | cons entry rest ih =>
      obtain ⟨k, w⟩ := entry
      rw [Dict.get?] at h
      split at h
      · rename_i hkey
        rw [hkey, Option.some.inj h]
        exact List.mem_cons_self
      · exact List.mem_cons_of_mem _ (ih h)

/-- A dict of such values has the same entries when it is read back. -/
theorem get?_reload_of_isFlat {entries : Dict} (h : Validation.isFlat entries = true) :
    Dict.get? (reload entries) = Dict.get? entries := by
  obtain ⟨_, hjson, _⟩ := Validation.isFlat_spec h
  funext key
  rcases get?_reload hjson key with ⟨hnone, hnone'⟩ | ⟨v, j, hv, hj, hreload⟩
  · rw [hnone, hnone']
  · have hscalar : Validation.isScalar v = true := by
      obtain ⟨hall, _⟩ := (Bool.and_eq_true _ _).mp h
      have hentry := List.all_eq_true.mp hall _ (mem_of_get? hv)
      exact ((Bool.and_eq_true _ _).mp hentry).2
    rw [hv, hreload, loads_of_isScalar hscalar hj]

section Policy

variable [Runtime]

omit [Runtime] in
theorem isFlat_policyPayload (policy : RiskPolicy) (daily total : Option String) :
    Validation.isFlat (policyPayload policy daily total) = true := by
  have hkeys : ∀ key ∈ ["enabled", "killSwitch", "paperOnly", "version", "maxDailyLoss",
      "maxTotalDrawdown"], isPublicKey (.str key) = true := by decide +kernel
  simp only [List.forall_mem_cons] at hkeys
  cases daily <;> cases total <;>
    simp [Validation.isFlat, Validation.isScalar, policyPayload, limitTextEntry, hkeys]

/-- **What is read of the file is what is read of what was written.** -/
theorem readRiskPolicy_of_dumps {policy : RiskPolicy} {content : Value} {j : Json}
    (hwrite : writeRiskPolicy defaultContext policy = .ok content) (hj : dumps content = .ok j) :
    readRiskPolicy (some (loads j)) = readRiskPolicy (some content) := by
  obtain ⟨_, daily, total, _, _, rfl⟩ := writeRiskPolicy_eq_ok.mp hwrite
  have hflat := isFlat_policyPayload policy daily total
  obtain ⟨_, hjson, _⟩ := Validation.isFlat_spec hflat
  obtain ⟨j', hj', _, hloads⟩ := reload_spec hjson
  rw [hj] at hj'
  rw [Except.ok.inj hj', hloads]
  have hguard := rejectSecretFields_policyPayload policy daily total
  have hguard' : rejectSecretFields [] (.dict (reload (policyPayload policy daily total))) =
      .ok () := by
    rw [rejectSecretFields_eq_ok, ValidationStore.passesGuard_reload hjson]
    exact rejectSecretFields_eq_ok.mp hguard
  have hget? := get?_reload_of_isFlat hflat
  have hget : Dict.get (reload (policyPayload policy daily total)) =
      Dict.get (policyPayload policy daily total) := by
    funext key
    rw [Dict.get, hget?, Dict.get]
  have hbool : boolField (reload (policyPayload policy daily total)) =
      boolField (policyPayload policy daily total) := by
    funext key default
    rw [boolField, hget?, boolField]
  simp only [readRiskPolicy, hguard, hguard', hget?, hget, hbool]

/-! ### The file -/

/-- `risk init`: its arguments, and whether it may overwrite a policy. -/
structure RiskInit where
  args : RiskInitArgs
  force : Bool

/-- The tree `risk init` writes, unless it raises. -/
def initTree (init : RiskInit) : Option Json :=
  (riskPolicyFromArgs init.args >>= fun policy =>
    writeRiskPolicy defaultContext policy >>= dumps).toOption

/-- `risk init` overwrites a file only if it is told to, whatever is in it. -/
def riskInit (init : RiskInit) : Option (Option Json) → Option Json
  | some none => initTree init
  | _ => if init.force then initTree init else none

theorem overwrites_riskInit : FileRegister.Overwrites initTree riskInit := by
  intro init answer j hj
  unfold riskInit at hj
  split at hj
  · exact hj
  · split at hj
    · exact hj
    · cases hj

/-- A policy as it is read of a file that `risk init` has written. -/
structure WrittenBy (init : RiskInit) (policy : RiskPolicy) : Prop where
  written : ∃ initial content, riskPolicyFromArgs init.args = .ok initial ∧
    writeRiskPolicy defaultContext initial = .ok content ∧
    readRiskPolicy (some content) = .ok policy

/-- It has the switches the operator asked for. -/
theorem WrittenBy.switches {init : RiskInit} {policy : RiskPolicy} (h : WrittenBy init policy) :
    policy.killSwitch = !init.args.killSwitchOff ∧ policy.paperOnly = !init.args.allowReal := by
  obtain ⟨initial, content, hinitial, hwrite, hread⟩ := h.written
  obtain ⟨_, rfl⟩ := (readRiskPolicy_eq_ok hwrite).mp hread
  unfold riskPolicyFromArgs at hinitial
  obtain ⟨_, _, hinitial⟩ := bind_eq_ok.mp hinitial
  obtain ⟨_, _, hinitial⟩ := bind_eq_ok.mp hinitial
  obtain ⟨_, _, hinitial⟩ := bind_eq_ok.mp hinitial
  obtain ⟨_, _, hinitial⟩ := bind_eq_ok.mp hinitial
  obtain ⟨_, _, hinitial⟩ := bind_eq_ok.mp hinitial
  obtain ⟨_, _, hinitial⟩ := bind_eq_ok.mp hinitial
  obtain ⟨_, _, hinitial⟩ := bind_eq_ok.mp hinitial
  rw [← Except.ok.inj hinitial]
  exact ⟨rfl, rfl⟩

theorem readRiskPolicy_initTree {init : RiskInit} {j : Json} {policy : RiskPolicy}
    (hj : initTree init = some j) (hread : readRiskPolicy (some (loads j)) = .ok policy) :
    WrittenBy init policy := by
  obtain ⟨initial, hinitial, hwrite⟩ := bind_eq_ok.mp (toOption_eq_some.mp hj)
  obtain ⟨content, hcontent, hdumps⟩ := bind_eq_ok.mp hwrite
  rw [readRiskPolicy_of_dumps hcontent hdumps] at hread
  exact ⟨⟨initial, content, hinitial, hcontent, hread⟩⟩

variable [Json.FloatRepr]

theorem valid_initTree (init : RiskInit) (j : Json) (hj : initTree init = some j) :
    jsonCodec.Valid j := by
  obtain ⟨initial, _, hwrite⟩ := bind_eq_ok.mp (toOption_eq_some.mp hj)
  obtain ⟨content, hcontent, hdumps⟩ := bind_eq_ok.mp hwrite
  obtain ⟨_, daily, total, _, _, rfl⟩ := writeRiskPolicy_eq_ok.mp hcontent
  obtain ⟨_, _, hfloats⟩ := Validation.isFlat_spec (isFlat_policyPayload initial daily total)
  refine ⟨?_, allFloats_dumps hdumps (hfloats _)⟩
  obtain ⟨fields, rfl⟩ := exists_object_of_dumps hdumps
  trivial

/-- The file of the policy, and the operator who writes it. -/
abbrev PolicyFile := FileRegister.State Char RiskInit

/-- A `risk init` that is not refused begins to write, goes on, or is killed. -/
def PolicyFile.Step : PolicyFile → PolicyFile → Prop := FileRegister.Step jsonCodec riskInit

/-- `read_risk_policy` of the file as it is at this moment. -/
def readRiskPolicyText (file : Option (List Char)) : Except PyError RiskPolicy := do
  readRiskPolicy ((← ExecutionStore.decode file).map loads)

/-- What is read after some `risk init`: no policy, or the one the last of them has written. -/
def ReadAfter (done : List RiskInit) (policy : RiskPolicy) : Prop :=
  (done = [] ∧ policy = missingRiskPolicy) ∨
    ∃ init, done.getLast? = some init ∧ WrittenBy init policy

omit [Json.FloatRepr] in
theorem readAfter_of_lastMade {done : List RiskInit} {tree : Option Json} {policy : RiskPolicy}
    (hmade : FileRegister.LastMade initTree none done tree)
    (hread : readRiskPolicy (tree.map loads) = .ok policy) : ReadAfter done policy := by
  cases hmade with
  | first => exact Or.inl ⟨rfl, (Except.ok.inj hread).symm⟩
  | @made done init j hj =>
      exact Or.inr ⟨init, List.getLast?_concat, readRiskPolicy_initTree hj hread⟩

/-- **What is read twice** are policies the operator has written, or none at first. -/
theorem policies_read {s₁ s₂ : PolicyFile} {policy₁ policy₂ : RiskPolicy}
    (h₁ : ReflTransGen PolicyFile.Step (FileRegister.initial none) s₁)
    (h₂ : ReflTransGen PolicyFile.Step s₁ s₂) (hread₁ : readRiskPolicyText s₁.file = .ok policy₁)
    (hread₂ : readRiskPolicyText s₂.file = .ok policy₂) :
    ∃ done later, FileRegister.Between s₁.finished done s₁.begun ∧
      FileRegister.Between s₂.finished (done ++ later) s₂.begun ∧ ReadAfter done policy₁ ∧
      ReadAfter (done ++ later) policy₂ := by
  obtain ⟨tree₁, htree₁, hpolicy₁⟩ := bind_eq_ok.mp hread₁
  obtain ⟨tree₂, htree₂, hpolicy₂⟩ := bind_eq_ok.mp hread₂
  have hmissing : ∀ w, FileRegister.read jsonCodec none = some w → w = none :=
    fun _ hw => (Option.some.inj hw).symm
  obtain ⟨done, later, hdone, hlater, hmade₁, hmade₂⟩ :=
    FileRegister.read_of_overwriting overwrites_riskInit valid_initTree (by simp) hmissing h₁ h₂
      (read_of_decode htree₁) (read_of_decode htree₂)
  exact ⟨done, later, hdone, hlater, readAfter_of_lastMade hmade₁ hpolicy₁,
    readAfter_of_lastMade hmade₂ hpolicy₂⟩

end Policy

/-! ### The command thread -/

section Commands

variable [Runtime] [BinanceSdk] [Json.FloatRepr]

/-- A turn reads the policy when the file is as in `s₁`, and again when it is as in `s₂`. -/
structure FindsPolicies (inputs : LocalInputs) (s₁ s₂ : PolicyFile) : Prop where
  first : inputs.riskPolicy = readRiskPolicyText s₁.file
  final : inputs.finalRiskPolicy = readRiskPolicyText s₂.file

omit [BinanceSdk] [Json.FloatRepr] in
/-- Under such a policy a real order was allowed by the operator. -/
theorem ReadAfter.allowed {done : List RiskInit} {policy : RiskPolicy} {ctx : Context}
    {command : Dict} {state : RiskState} {now : Instant} (h : ReadAfter done policy)
    (hrisk : RiskPassed ctx command .real policy state now) :
    ∃ init, done.getLast? = some init ∧ init.args.killSwitchOff = true ∧
      init.args.allowReal = true := by
  rcases h with ⟨_, rfl⟩ | ⟨init, hlast, hwritten⟩
  · cases hrisk.configured
  · obtain ⟨hkill, hpaper⟩ := hwritten.switches
    rw [hrisk.killSwitch] at hkill
    rw [hrisk.paperOnly rfl] at hpaper
    exact ⟨init, hlast, by simpa using hkill.symm, by simpa using hpaper.symm⟩

/-- **Whoever changes something at OKX was allowed to, twice.**  Both times the turn has read
the policy of the last `risk init` that was done by then, and with both of them the operator
had switched the kill switch off and allowed real orders. -/
theorem change_permitted {session : Session} {ctx : Context} {leaseResponse : Dict}
    {inputs : LocalInputs} {s₁ s₂ : PolicyFile} {c : Call}
    (h₁ : ReflTransGen PolicyFile.Step (FileRegister.initial none) s₁)
    (h₂ : ReflTransGen PolicyFile.Step s₁ s₂) (hfinds : FindsPolicies inputs s₁ s₂)
    (hmakes : Makes (processLeaseResponse session ctx leaseResponse inputs) c)
    (hchange : ChangesOkx c) :
    ∃ done later first final, FileRegister.Between s₁.finished done s₁.begun ∧
      FileRegister.Between s₂.finished (done ++ later) s₂.begun ∧
      done.getLast? = some first ∧ (done ++ later).getLast? = some final ∧
      ∀ init ∈ [first, final], init.args.killSwitchOff = true ∧ init.args.allowReal = true := by
  have hbroker : IsBrokerCall c := by
    obtain ⟨keys, op, rfl, _⟩ := hchange
    trivial
  obtain ⟨item, preflight, _, hpreflight, hmakes⟩ := preflight_of_brokerCall hmakes hbroker
  obtain ⟨command, state, policy₁, policy₂, _, hpolicy₁, hpolicy₂, hrisk₁, hrisk₂⟩ :=
    riskPassed_of_change hpreflight hmakes hchange
  rw [hfinds.first] at hpolicy₁
  rw [hfinds.final] at hpolicy₂
  obtain ⟨done, later, hdone, hlater, hread₁, hread₂⟩ := policies_read h₁ h₂ hpolicy₁ hpolicy₂
  obtain ⟨first, hfirst, hkill₁, hreal₁⟩ := hread₁.allowed hrisk₁
  obtain ⟨final, hfinal, hkill₂, hreal₂⟩ := hread₂.allowed hrisk₂
  refine ⟨done, later, first, final, hdone, hlater, hfirst, hfinal, ?_⟩
  intro init hinit
  rcases List.mem_cons.mp hinit with rfl | hinit
  · exact ⟨hkill₁, hreal₁⟩
  · rw [List.mem_singleton.mp hinit]
    exact ⟨hkill₂, hreal₂⟩

end Commands

/-! ### Two policies and a command -/

namespace Sample

/-- `risk init --kill-switch-off --allow-real --max-daily-loss 1000`. -/
def allowing : RiskInit := ⟨initArgs "1000", false⟩

/-- The same with a limit of 500, over the first. -/
def tightening : RiskInit := ⟨initArgs "500", true⟩

/-- The file that holds what a `risk init` wrote, after these. -/
def policyFile (last : RiskInit) (done : List RiskInit) : PolicyFile :=
  ⟨(@initTree runtime last).map (@jsonCodec ExecutionStore.Sample.floatRepr).encode, none, done,
    done⟩

theorem exists_initTree : ∀ init ∈ [allowing, tightening], ∃ j, @initTree runtime init = some j := by
  intro init hinit
  simp only [List.mem_cons, List.not_mem_nil, or_false] at hinit
  rcases hinit with rfl | rfl
  · exact Option.isSome_iff_exists.mp (by decide +kernel)
  · exact Option.isSome_iff_exists.mp (by decide +kernel)

theorem policyFile_runs :
    ReflTransGen (@PolicyFile.Step runtime ExecutionStore.Sample.floatRepr)
        (FileRegister.initial none) (policyFile allowing [allowing]) ∧
      ReflTransGen (@PolicyFile.Step runtime ExecutionStore.Sample.floatRepr)
        (policyFile allowing [allowing]) (policyFile tightening [allowing, tightening]) := by
  let _ : Runtime := runtime
  let _ : Json.FloatRepr := ExecutionStore.Sample.floatRepr
  obtain ⟨j₁, h₁⟩ := exists_initTree allowing (by simp)
  obtain ⟨j₂, h₂⟩ := exists_initTree tightening (by simp)
  have hread : FileRegister.read jsonCodec (some (jsonCodec.encode j₁)) = some (some j₁) :=
    FileRegister.read_whole (valid_initTree allowing j₁ h₁)
  unfold policyFile
  rw [h₁, h₂]
  constructor
  · exact FileRegister.run_update (s := FileRegister.initial none) (i := allowing) rfl h₁
  · refine FileRegister.run_update (s := ⟨some (jsonCodec.encode j₁), none, [allowing],
      [allowing]⟩) (i := tightening) rfl ?_
    exact (congrArg (riskInit tightening) hread).trans h₂

/-- The turn under which the policy is written again. -/
def allowedInputs : LocalInputs :=
  { localInputs with
    riskPolicy := @readRiskPolicy runtime ((@initTree runtime allowing).map loads)
    finalRiskPolicy := @readRiskPolicy runtime ((@initTree runtime tightening).map loads) }

theorem findsPolicies_allowedInputs :
    @FindsPolicies runtime ExecutionStore.Sample.floatRepr allowedInputs
      (policyFile allowing [allowing]) (policyFile tightening [allowing, tightening]) := by
  let _ : Runtime := runtime
  let _ : Json.FloatRepr := ExecutionStore.Sample.floatRepr
  have hread (init : RiskInit) (done : List RiskInit) :
      readRiskPolicyText (policyFile init done).file =
        readRiskPolicy ((initTree init).map loads) := by
    have hdecode : ExecutionStore.decode (policyFile init done).file = .ok (initTree init) :=
      decode_map_encode (valid_initTree init)
    rw [readRiskPolicyText, hdecode]
    rfl
  exact ⟨(hread allowing [allowing]).symm, (hread tightening [allowing, tightening]).symm⟩

end Sample

theorem change_permitted_sample : let _ : Runtime := Sample.runtime
    let _ : Json.FloatRepr := ExecutionStore.Sample.floatRepr
    let _ : BinanceSdk := Sample.sdk
    ∃ s₁ s₂ c, ReflTransGen PolicyFile.Step (FileRegister.initial none) s₁ ∧
      ReflTransGen PolicyFile.Step s₁ s₂ ∧ s₁.begun = [Sample.allowing] ∧
      s₂.begun = [Sample.allowing, Sample.tightening] ∧
      FindsPolicies Sample.allowedInputs s₁ s₂ ∧
      Makes (processLeaseResponse Sample.session defaultContext Sample.leaseResponse
        Sample.allowedInputs) c ∧ ChangesOkx c ∧
      ∃ done later first final, FileRegister.Between s₁.finished done s₁.begun ∧
        FileRegister.Between s₂.finished (done ++ later) s₂.begun ∧
        done.getLast? = some first ∧ (done ++ later).getLast? = some final ∧
        ∀ init ∈ [first, final],
          init.args.killSwitchOff = true ∧ init.args.allowReal = true := by
  intro _ _ _
  obtain ⟨keys, op, hcall, hop⟩ := stateChange_of_isSome
    (c := (feed [.ok (.dict []), Sample.accountReply, Sample.instrumentReply]
      (processLeaseResponse Sample.session defaultContext Sample.leaseResponse
        Sample.allowedInputs)).next?) (by decide +kernel)
  have hmakes := makes_of_feed _ hcall
  have hchange : ChangesOkx (.okx keys op) := ⟨keys, op, rfl, hop⟩
  obtain ⟨hfirst, hsecond⟩ := Sample.policyFile_runs
  have hfinds := Sample.findsPolicies_allowedInputs
  exact ⟨_, _, _, hfirst, hsecond, rfl, rfl, hfinds, hmakes, hchange,
    change_permitted hfirst hsecond hfinds hmakes hchange⟩

end YtmExecutor
