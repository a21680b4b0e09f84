/-
What YTM is told does not depend on the secrets.

Two machines hold credentials of the same names, with other secrets in them.  Their
secret stores agree on which credentials there are, so they agree on the heartbeat; and
they agree on which required fields are blank, so they come to the same adapter or the
same objection to it.  From there on the two differ only in the keys their API calls are
signed with.  So as long as the brokers answer alike, the two executors post alike.
-/
import YtmExecutor.FailClosed

namespace YtmExecutor

open Python Decimal Interaction Prog

/-! ### Equal up to the secrets -/

/-- The same call, to whoever does not see the keys. -/
inductive SameButKeys : Call → Call → Prop
  | same (c : Call) : SameButKeys c c
  | okx (keys keys' : OkxKeys) (op : OkxCall) : SameButKeys (.okx keys op) (.okx keys' op)
  | binance (keys keys' : BinanceKeys) (op : Binance.BinanceCall) :
      SameButKeys (.binance keys op) (.binance keys' op)

/-- The fields the adapters of a provider want to find in a secret. -/
def requiredFields : String → List String
  | "okx" => ["apiKey", "apiSecret", "passphrase"]
  | "binance" => ["apiKey", "apiSecret"]
  | _ => []

/-- Any two secrets, as long as the same required fields are blank. -/
def SameBlanks (provider : String) (secret secret' : Secret) : Prop :=
  ∀ field ∈ requiredFields provider,
    secretField secret field = "" ↔ secretField secret' field = ""

/-- Two records of one credential, each with its own secret. -/
structure SameCredential (store store' : SecretStore) (item item' : Dict) : Prop where
  provider : item.get "provider" = item'.get "provider"
  name : item.get "name" = item'.get "name"
  secret : ∀ provider, (item.get "provider").isText provider = true →
    AgreeUpTo (SameBlanks provider) (store.decrypt item) (store'.decrypt item')

/-- The same credentials in the same order; what is in them may differ. -/
def SameCredentials (store store' : SecretStore) : Prop :=
  AgreeUpTo (List.Forall₂ (SameCredential store store')) store.records store'.records

/-- The same turn on two machines that differ in their secrets. -/
structure SameButSecrets (inputs inputs' : LocalInputs) : Prop where
  secrets : SameCredentials inputs.secrets inputs'.secrets
  rest : inputs' = { inputs with secrets := inputs'.secrets }

section Stores

variable [Runtime] {store store' : SecretStore}

/-! ### The secret store -/

theorem mapM_summaryOf {items items' : List Dict}
    (h : List.Forall₂ (SameCredential store store') items items') :
    items.mapM SecretStore.summaryOf = items'.mapM SecretStore.summaryOf := by
  induction h with
  | nil => rfl
  | @cons item item' _ _ hitem _ ih =>
      have hsummary : SecretStore.summaryOf item = SecretStore.summaryOf item' := by
        unfold SecretStore.summaryOf
        rw [hitem.provider, hitem.name]
      rw [List.mapM_cons, List.mapM_cons, ih, hsummary]

theorem SameCredentials.list_eq (h : SameCredentials store store') : store.list = store'.list := by
  unfold SecretStore.list
  unfold SameCredentials at h
  generalize store.records = x at h
  generalize store'.records = y at h
  cases h with
  | ok hitems => exact mapM_summaryOf hitems
  | error e => rfl

theorem SameCredentials.heartbeatCapability_eq (h : SameCredentials store store')
    (validations : List Dict) :
    store.heartbeatCapability validations = store'.heartbeatCapability validations := by
  unfold SecretStore.heartbeatCapability
  rw [h.list_eq]

omit [Runtime] in
/-- Two stores find a credential in the same place, if at all. -/
theorem find_agree {items items' : List Dict} {provider name : String}
    (h : List.Forall₂ (SameCredential store store') items items') (e : PyError) :
    AgreeUpTo (SameBlanks provider)
      (match items.find? fun item => SecretStore.sameRecord item provider name with
        | some item => store.decrypt item
        | none => .error e)
      (match items'.find? fun item => SecretStore.sameRecord item provider name with
        | some item => store'.decrypt item
        | none => .error e) := by
  induction h with
  | nil => exact AgreeUpTo.error e
  | @cons item item' _ _ hitem _ ih =>
      have hsame : SecretStore.sameRecord item' provider name =
          SecretStore.sameRecord item provider name := by
        unfold SecretStore.sameRecord
        rw [hitem.provider, hitem.name]
      rw [List.find?_cons, List.find?_cons, hsame]
      by_cases hrecord : SecretStore.sameRecord item provider name = true
      · rw [hrecord]
        exact hitem.secret provider (Bool.and_eq_true_iff.mp hrecord).1
      · rw [Bool.not_eq_true] at hrecord
        rw [hrecord]
        exact ih

/-- The secrets two stores have under one name. -/
theorem SameCredentials.get_agree (h : SameCredentials store store') {provider : String}
    (hprovider : storeRequiredText provider "provider" = .ok provider) (name : String) :
    AgreeUpTo (SameBlanks provider) (store.get provider name) (store'.get provider name) := by
  refine AgreeUpTo.after _ fun normalizedProvider hnormalized => ?_
  rw [hprovider] at hnormalized
  cases hnormalized
  refine AgreeUpTo.after _ fun normalizedName _ => ?_
  exact AgreeUpTo.bind h fun items items' hitems => find_agree hitems _

end Stores

/-! ### The adapter -/

section Adapter

variable {ctx : Context}

/-- The same adapter, each with keys of its own. -/
inductive SameAdapter : ChosenAdapter → ChosenAdapter → Prop
  | disabled : SameAdapter .disabled .disabled
  | okxPrecheck (keys keys' : OkxKeys) : SameAdapter (.okxPrecheck keys) (.okxPrecheck keys')
  | okxPlacement (keys keys' : OkxKeys) : SameAdapter (.okxPlacement keys) (.okxPlacement keys')
  | binanceOrderTest (keys keys' : BinanceKeys) :
      SameAdapter (.binanceOrderTest keys) (.binanceOrderTest keys')

/-- Resolvers that agree on the credentials of the two brokers. -/
def ResolversAgree (resolve resolve' : String → String → Except PyError Secret) : Prop :=
  ∀ provider ∈ ["okx", "binance"], ∀ name,
    AgreeUpTo (SameBlanks provider) (resolve provider name) (resolve' provider name)

theorem SameCredentials.resolversAgree [Runtime] {store store' : SecretStore}
    (h : SameCredentials store store') : ResolversAgree store.get store'.get := by
  intro provider hprovider name
  refine h.get_agree ?_ name
  simp only [List.mem_cons, List.not_mem_nil, or_false] at hprovider
  have hstrip : strip "okx" = "okx" ∧ strip "binance" = "binance" := by decide +kernel
  rcases hprovider with rfl | rfl
  · rw [storeRequiredText_str, hstrip.1, if_neg (by decide)]
  · rw [storeRequiredText_str, hstrip.2, if_neg (by decide)]

variable {resolve resolve' : String → String → Except PyError Secret}

/-- The same objection, or none. -/
theorem agree_raiseIf {α : Type} {R : α → α → Prop} {c c' : Prop} [Decidable c] [Decidable c']
    {message : String} (hc : c ↔ c') {x y : Except PyError α} (h : AgreeUpTo R x y) :
    AgreeUpTo R (raiseIf c message >>= fun _ => x) (raiseIf c' message >>= fun _ => y) := by
  unfold raiseIf
  by_cases hcase : c
  · rw [if_pos hcase, if_pos (hc.mp hcase)]
    exact AgreeUpTo.error _
  · rw [if_neg hcase, if_neg fun h => hcase (hc.mpr h)]
    exact h

theorem okxAdapterForCommand_agree (h : ResolversAgree resolve resolve') (command : Dict)
    (name provider : String) (executionMode : ExecutionMode) :
    AgreeUpTo SameAdapter
      (okxAdapterForCommand command name provider executionMode (some resolve))
      (okxAdapterForCommand command name provider executionMode (some resolve')) := by
  refine AgreeUpTo.after _ fun _ hprovider => ?_
  obtain rfl := Decidable.not_not.mp (raiseIf_eq_ok.mp hprovider)
  refine (h "okx" (by simp) _).bind fun secret secret' hsecret => ?_
  refine agree_raiseIf ?_ ?_
  · exact or_congr (hsecret "apiKey" (by decide))
      (or_congr (hsecret "apiSecret" (by decide)) (hsecret "passphrase" (by decide)))
  · by_cases hname : name = okxSwapMainnetOrderAdapter
    · rw [if_pos hname, if_pos hname]
      exact AgreeUpTo.after _ fun _ _ => AgreeUpTo.ok (SameAdapter.okxPlacement _ _)
    · rw [if_neg hname, if_neg hname]
      exact AgreeUpTo.ok (SameAdapter.okxPrecheck _ _)

theorem binanceAdapterForCommand_agree (h : ResolversAgree resolve resolve') (command : Dict)
    (provider : String) (executionMode : ExecutionMode) :
    AgreeUpTo SameAdapter
      (binanceAdapterForCommand command provider executionMode (some resolve))
      (binanceAdapterForCommand command provider executionMode (some resolve')) := by
  refine AgreeUpTo.after _ fun _ hprovider => ?_
  obtain rfl := Decidable.not_not.mp (raiseIf_eq_ok.mp hprovider)
  refine AgreeUpTo.after _ fun _ _ => ?_
  refine (h "binance" (by simp) _).bind fun secret secret' hsecret => ?_
  refine agree_raiseIf ?_ ?_
  · exact or_congr (hsecret "apiKey" (by decide)) (hsecret "apiSecret" (by decide))
  · exact AgreeUpTo.ok (SameAdapter.binanceOrderTest _ _)

theorem adapterForCommand_agree [Runtime] (h : ResolversAgree resolve resolve') (cleared : Cleared) :
    AgreeUpTo SameAdapter (adapterForCommand cleared (some resolve))
      (adapterForCommand cleared (some resolve')) := by
  unfold adapterForCommand
  dsimp only
  split
  · exact okxAdapterForCommand_agree h _ _ _ _
  · split
    · exact AgreeUpTo.ok SameAdapter.disabled
    · exact binanceAdapterForCommand_agree h _ _ _

variable [Runtime] [BinanceSdk]

theorem SameAdapter.prepareOrder_alike {adapter adapter' : ChosenAdapter}
    (h : SameAdapter adapter adapter') (request : BrokerOrderRequest) :
    Alike SameButKeys (prepareOrder ctx adapter request) (prepareOrder ctx adapter' request) := by
  cases h with
  | disabled => exact Alike.ofExcept _
  | okxPrecheck keys keys' =>
      exact okxPrecheckPrepareOrder_alike (Alike.perform (SameButKeys.okx keys keys' _))
        (fun _ _ => Alike.perform (SameButKeys.okx keys keys' _))
        fun _ => Alike.perform (SameButKeys.okx keys keys' _)
  | okxPlacement keys keys' =>
      exact okxPlacementPrepareOrder_alike fun op => Alike.perform (SameButKeys.okx keys keys' op)
  | binanceOrderTest keys keys' =>
      exact binancePrepareOrder_alike fun op => Alike.perform (SameButKeys.binance keys keys' op)

/-! ### The preflight -/

/-- The same preflight, but for the secrets that are resolved. -/
structure SamePreflight (inputs inputs' : PreflightInputs) : Prop where
  resolver : ∃ resolve resolve', inputs.localSecretResolver = some resolve ∧
    inputs'.localSecretResolver = some resolve' ∧ ResolversAgree resolve resolve'
  rest : inputs' = { inputs with localSecretResolver := inputs'.localSecretResolver }

omit [BinanceSdk] in
theorem SamePreflight.gates_eq {inputs inputs' : PreflightInputs}
    (h : SamePreflight inputs inputs') (item : Dict) :
    preflightGates ctx item inputs = preflightGates ctx item inputs' := by
  rw [h.rest]
  rfl

theorem runAdapter_alike {inputs inputs' : PreflightInputs} (h : SamePreflight inputs inputs')
    (cleared : Cleared) :
    Alike SameButKeys (runAdapter ctx cleared inputs) (runAdapter ctx cleared inputs') := by
  obtain ⟨resolve, resolve', hresolve, hresolve', hagree⟩ := h.resolver
  unfold runAdapter
  rw [hresolve, hresolve']
  refine takeValueError_alike ?_
  refine (adapterForCommand_agree hagree cleared).alike_bind fun adapter adapter' hadapter => ?_
  exact (hadapter.prepareOrder_alike cleared.request).bind fun _ => Alike.ofExcept (.ok _)

/-- **The preflight calls and decides alike**, whatever the secrets are. -/
theorem preflightCommand_alike {inputs inputs' : PreflightInputs}
    (h : SamePreflight inputs inputs') (item : Dict) :
    Alike SameButKeys (preflightCommand ctx item inputs) (preflightCommand ctx item inputs') := by
  unfold preflightCommand
  rw [h.gates_eq]
  split
  · refine (runAdapter_alike h _).bind fun outcome => ?_
    cases outcome with
    | inl d => exact Alike.done d
    | inr adapterResult => exact Alike.ofExcept _
  · exact Alike.done _
  · exact Alike.raise _

end Adapter

/-! ### The loop -/

section Loop

variable [Runtime] {ctx : Context} {session : Session} {inputs inputs' : LocalInputs}

theorem sendHeartbeat_alike (h : SameButSecrets inputs inputs') :
    Alike SameButKeys (sendHeartbeat session inputs) (sendHeartbeat session inputs') := by
  have heq : sendHeartbeat session inputs = sendHeartbeat session inputs' := by
    unfold sendHeartbeat
    rw [h.rest]
    simp only [h.secrets.heartbeatCapability_eq]
  rw [heq]
  exact Alike.refl SameButKeys.same _

theorem preflightInputs_agree (h : SameButSecrets inputs inputs') :
    AgreeUpTo SamePreflight (preflightInputs inputs) (preflightInputs inputs') := by
  unfold preflightInputs
  rw [h.rest, ← h.secrets.list_eq]
  refine AgreeUpTo.after _ fun _ _ => ?_
  refine AgreeUpTo.after _ fun _ _ => ?_
  refine AgreeUpTo.after _ fun _ _ => ?_
  refine AgreeUpTo.after _ fun _ _ => ?_
  exact AgreeUpTo.ok ⟨⟨_, _, rfl, rfl, h.secrets.resolversAgree⟩, rfl⟩

variable [BinanceSdk]

theorem processCommand_alike (h : SameButSecrets inputs inputs') (item command : Dict)
    (commandId : String) :
    Alike SameButKeys (processCommand session ctx item command commandId inputs)
      (processCommand session ctx item command commandId inputs') := by
  have hrecorded : inputs'.recordedAt = inputs.recordedAt := by rw [h.rest]
  refine (preflightInputs_agree h).alike_bind fun _ _ hpreflight => ?_
  refine (preflightCommand_alike hpreflight item).bind fun decision => ?_
  rw [hrecorded]
  exact Alike.refl SameButKeys.same _

theorem processLeaseResponse_alike (h : SameButSecrets inputs inputs') (leaseResponse : Dict) :
    Alike SameButKeys (processLeaseResponse session ctx leaseResponse inputs)
      (processLeaseResponse session ctx leaseResponse inputs') := by
  unfold processLeaseResponse
  split
  · refine (Alike.ofExcept _).bind fun command => ?_
    refine (Alike.ofExcept _).bind fun commandId => ?_
    refine (Alike.refl SameButKeys.same _).bind fun cached => ?_
    cases cached with
    | some cached => exact Alike.refl SameButKeys.same _
    | none => exact processCommand_alike h _ command commandId
  · exact Alike.refl SameButKeys.same _

theorem leaseAndProcess_alike (h : SameButSecrets inputs inputs') :
    Alike SameButKeys (leaseAndProcess session ctx inputs)
      (leaseAndProcess session ctx inputs') := by
  refine (Alike.refl SameButKeys.same _).bind fun leased => ?_
  split
  · exact processLeaseResponse_alike h _
  · exact Alike.raise _

theorem runOnce_alike (h : SameButSecrets inputs inputs') :
    Alike SameButKeys (runOnce session ctx inputs) (runOnce session ctx inputs') :=
  (sendHeartbeat_alike h).bind fun _ => leaseAndProcess_alike h

omit [Runtime] [BinanceSdk] in
theorem guarded_alike {turn turn' : Executor Unit} (h : Alike SameButKeys turn turn') :
    Alike SameButKeys (guarded turn) (guarded turn') :=
  h.handle fun _ => Option.Rel.some (Alike.done ())

variable {turns turns' : List LocalInputs}

theorem commandLoop_alike (h : List.Forall₂ SameButSecrets turns turns') :
    Alike SameButKeys (commandLoop session ctx turns) (commandLoop session ctx turns') := by
  induction h with
  | nil => exact Alike.done ()
  | cons hturn _ ih => exact (guarded_alike (leaseAndProcess_alike hturn)).bind fun _ => ih

omit [BinanceSdk] in
theorem heartbeatLoop_alike (h : List.Forall₂ SameButSecrets turns turns') :
    Alike SameButKeys (heartbeatLoop session turns) (heartbeatLoop session turns') := by
  induction h with
  | nil => exact Alike.done ()
  | cons hturn _ ih => exact (guarded_alike (sendHeartbeat_alike hturn)).bind fun _ => ih

/-! ### What YTM gets to see -/

/-- A request to YTM: the URL, the payload and the token. -/
def ytmPost : Call → Option (String × Value × Option String)
  | .ytm url payload accessToken => some (url, payload, accessToken)
  | _ => none

/-- What a program posts to YTM while its calls are answered by `answers`. -/
def posts {α : Type} (answers : List (Except PyError Value)) (p : Executor α) :
    List (String × Value × Option String) :=
  (calls answers p).filterMap ytmPost

omit [Runtime] [BinanceSdk] in
theorem posts_eq_of_alike {α : Type} {p q : Executor α} (h : Alike SameButKeys p q)
    (answers : List (Except PyError Value)) : posts answers p = posts answers q := by
  refine h.filterMap_calls (fun c c' hsame => ?_) answers
  cases hsame <;> rfl

/-- **The posts to YTM do not depend on the secrets**: not those of one run, nor those of
the loop that processes commands, nor those of the loop that sends heartbeats. -/
theorem posts_independent_of_secrets (h : List.Forall₂ SameButSecrets turns turns')
    (answers : List (Except PyError Value)) :
    posts answers (commandLoop session ctx turns) = posts answers (commandLoop session ctx turns') ∧
    posts answers (heartbeatLoop session turns) = posts answers (heartbeatLoop session turns') ∧
    List.Forall₂ (fun inputs inputs' =>
      posts answers (runOnce session ctx inputs) = posts answers (runOnce session ctx inputs'))
      turns turns' :=
  ⟨posts_eq_of_alike (commandLoop_alike h) answers,
    posts_eq_of_alike (heartbeatLoop_alike h) answers,
    h.imp fun _ _ hturn => posts_eq_of_alike (runOnce_alike hturn) answers⟩

end Loop

namespace Sample

def otherSecret : Secret :=
  [("apiKey", "another key"), ("apiSecret", "another secret"), ("passphrase", "another phrase")]

/-- The machine of `localInputs` with another secret under the same name. -/
def otherInputs : LocalInputs :=
  { localInputs with secrets := { localInputs.secrets with decrypt := fun _ => .ok otherSecret } }

theorem sameButSecrets : SameButSecrets localInputs otherInputs := by
  have hblank : ∀ field ∈ requiredFields "okx" ++ requiredFields "binance",
      ¬secretField secret field = "" ∧ ¬secretField otherSecret field = "" := by decide +kernel
  have hblanks : ∀ provider, SameBlanks provider secret otherSecret := by
    intro provider field hfield
    have hmem : field ∈ requiredFields "okx" ++ requiredFields "binance" := by
      unfold requiredFields at hfield
      split at hfield
      · exact List.mem_append_left _ hfield
      · exact List.mem_append_right _ hfield
      · cases hfield
    exact iff_of_false (hblank field hmem).1 (hblank field hmem).2
  have hitem : SameCredential localInputs.secrets otherInputs.secrets
      [("name", "main"), ("provider", "okx")] [("name", "main"), ("provider", "okx")] :=
    ⟨rfl, rfl, fun provider _ => AgreeUpTo.ok (hblanks provider)⟩
  exact ⟨AgreeUpTo.ok (List.Forall₂.cons hitem List.Forall₂.nil), rfl⟩

end Sample

theorem posts_independent_of_secrets_sample :
    Sample.secret ≠ Sample.otherSecret ∧
      ∀ answers,
        posts answers (@commandLoop Sample.runtime Sample.session defaultContext Sample.sdk
          [Sample.localInputs]) =
        posts answers (@commandLoop Sample.runtime Sample.session defaultContext Sample.sdk
          [Sample.otherInputs]) :=
  ⟨by decide, fun answers => (@posts_independent_of_secrets Sample.runtime defaultContext
    Sample.session Sample.sdk _ _ (List.Forall₂.cons Sample.sameButSecrets List.Forall₂.nil)
    answers).1⟩

end YtmExecutor
