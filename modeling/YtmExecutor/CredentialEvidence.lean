/-
What a validation of a credential is worth.

A summary says `passed` exactly when the broker has let the account be read in that run
(`accountRead`), and it says so again where it calls the account readable.  Nothing of it
comes from the secret: it is made of the answers, so two secrets that are answered alike
have the same summary.  And whatever the broker answers, the summary is a flat JSON object
with public keys, so the store will take it.
-/
import YtmExecutor.Guards
import YtmExecutor.Interaction.Run
import YtmExecutor.Noninterference
import YtmExecutor.RiskThreads
import YtmExecutor.Validation

namespace YtmExecutor

open Python Decimal Interaction Prog Relation

namespace Validation

-- no text of a credential is evaluated here
attribute [local irreducible] strip

/-! ### The answers that let an account be read -/

section Answers

variable [Runtime]

/-- A JSON object. -/
def binanceRead : List (Except PyError Reply) → Bool
  | [.ok (.value (.dict _))] => true
  | _ => false

/-- A configuration, and lists of balances and positions. -/
def okxRead : List (Except PyError Reply) → Bool
  | [.ok config, .ok balances, .ok positions] =>
      (okxSingleData "account_config" config).toOption.isSome &&
        (okxData "account_balance" balances).toOption.isSome &&
        (okxData "positions" positions).toOption.isSome
  | _ => false

theorem okxRead_spec {answers : List (Except PyError Reply)} (h : okxRead answers = true) :
    ∃ reply₁ reply₂ reply₃, answers = [.ok reply₁, .ok reply₂, .ok reply₃] ∧
      ∃ config, okxSingleData "account_config" reply₁ = .ok config ∧
      ∃ balances, okxData "account_balance" reply₂ = .ok balances ∧
      ∃ positions, okxData "positions" reply₃ = .ok positions := by
  unfold okxRead at h
  split at h
  · rename_i reply₁ reply₂ reply₃
    simp only [Bool.and_eq_true, Option.isSome_iff_exists, toOption_eq_some] at h
    obtain ⟨⟨⟨config, hconfig⟩, balances, hbalances⟩, positions, hpositions⟩ := h
    exact ⟨reply₁, reply₂, reply₃, rfl, config, hconfig, balances, hbalances, positions, hpositions⟩
  · cases h

/-- An account. -/
def tbankRead : List (Except PyError Reply) → Bool
  | [.ok (.accounts (_ :: _))] => true
  | _ => false

/-- What was answered lets the account be read. -/
def accountRead (provider : String) (answers : List (Except PyError Reply)) : Bool :=
  if provider = "binance" then binanceRead answers
  else if provider = "okx" then okxRead answers
  else if provider = "tbank" then tbankRead answers
  else false

end Answers

/-! ### Flat dicts -/

theorem isPublicEntries_iff {entries : Dict} : isPublicEntries entries = true ↔
    ∀ entry ∈ entries, isPublicKey entry.1 = true ∧ isPublic entry.2 = true := by
  induction entries with
  | nil => simp [isPublicEntries]
  | cons entry rest ih => simp [isPublicEntries, ih, and_assoc]

/-- A value that holds no other, and no float. -/
def isScalar : Value → Bool
  | .none | .bool _ | .int _ | .str _ => true
  | _ => false

theorem isScalar_spec {v : Value} (h : isScalar v = true) :
    isPublic v = true ∧ IsJson v ∧ ∀ P, v.AllFloats P := by
  cases v with
  | none | bool | int | str => exact ⟨rfl, trivial, fun _ => trivial⟩
  | float | list | tuple | dict => cases h

/-- Public keys, each once, with such values. -/
def isFlat (entries : Dict) : Bool :=
  entries.all (fun entry => isPublicKey entry.1 && isScalar entry.2) &&
    decide ((entries.map Prod.fst).Nodup)

theorem isFlat_spec {entries : Dict} (h : isFlat entries = true) :
    isPublicEntries entries = true ∧ IsJson (.dict entries) ∧
      ∀ P, (Value.dict entries).AllFloats P := by
  obtain ⟨hall, hnodup⟩ := (Bool.and_eq_true _ _).mp h
  rw [List.all_eq_true] at hall
  clear h
  have hentry : ∀ entry ∈ entries, isPublicKey entry.1 = true ∧ isPublic entry.2 = true ∧
      IsJson entry.2 ∧ ∀ P, entry.2.AllFloats P := by
    intro entry hmem
    obtain ⟨hkey, hvalue⟩ := (Bool.and_eq_true _ _).mp (hall entry hmem)
    exact ⟨hkey, isScalar_spec hvalue⟩
  refine ⟨?_, ⟨of_decide_eq_true hnodup, entriesAreJson_iff.mpr fun entry hmem => ?_⟩,
    fun P => Value.entriesAllFloats_iff.mpr fun entry hmem => (hentry entry hmem).2.2.2 P⟩
  · exact isPublicEntries_iff.mpr fun entry hmem => ⟨(hentry entry hmem).1, (hentry entry hmem).2.1⟩
  · obtain ⟨hkey, _, hjson, _⟩ := hentry entry hmem
    cases hkind : entry.1 with
    | str key => exact ⟨rfl, hjson⟩
    | int | float | bool | none =>
        rw [hkind] at hkey
        cases hkey

/-- A summary of a run, in which the account was read or not. -/
structure Summarizes (provider name checkedAt : String) (read : Bool) (s : Dict) : Prop where
  shape : ∃ permissions warnings accountFingerprint failureReason,
    s = summary provider name checkedAt (if read then "passed" else "failed") permissions warnings
      accountFingerprint failureReason ∧
    isFlat permissions = true ∧ Dict.get permissions "accountReadable" = .bool read

/-! ### What is in a summary -/

section Fields

variable {provider name checkedAt : String} {read : Bool} {s : Dict}

/-- What the gate and the store look at. -/
theorem Summarizes.fields (h : Summarizes provider name checkedAt read s) :
    s.get "provider" = .str provider ∧ s.get "name" = .str name ∧
      s.get "checkedAt" = .str checkedAt ∧
      s.get "status" = .str (if read then "passed" else "failed") ∧
      ∃ permissions, s.get "permissions" = .dict permissions ∧
        Dict.get permissions "accountReadable" = .bool read := by
  obtain ⟨permissions, _, _, _, rfl, _, hreadable⟩ := h.shape
  exact ⟨rfl, rfl, rfl, rfl, permissions, rfl, hreadable⟩

theorem textEntry_cases (key : String) (text : Option String) :
    textEntry key text = textEntries [] ∨ ∃ t, textEntry key text = textEntries [(key, t)] := by
  cases text with
  | none => exact Or.inl rfl
  | some t =>
      unfold textEntry
      dsimp only
      split
      · exact Or.inl rfl
      · exact Or.inr ⟨t, rfl⟩

/-- The six entries of every summary. -/
def mainEntries (provider name checkedAt status : String) (permissions : Dict)
    (warnings : List String) : Dict :=
  [("checkedAt", checkedAt), ("name", name), ("permissions", .dict permissions),
    ("provider", provider), ("status", status), ("warnings", .list (warnings.map .str))]

/-- At most two more entries, which are texts. -/
theorem Summarizes.entries (h : Summarizes provider name checkedAt read s) :
    ∃ status permissions warnings others,
      s = mainEntries provider name checkedAt status permissions warnings ++ textEntries others ∧
      others.map Prod.fst ∈ [[], ["accountFingerprint"], ["failureReason"],
        ["accountFingerprint", "failureReason"]] ∧ isFlat permissions = true := by
  obtain ⟨permissions, warnings, accountFingerprint, failureReason, rfl, hflat, _⟩ := h.shape
  have hsummary (status : String) : summary provider name checkedAt status permissions warnings
      accountFingerprint failureReason =
        mainEntries provider name checkedAt status permissions warnings ++
          (textEntry "accountFingerprint" accountFingerprint ++
            textEntry "failureReason" failureReason) := List.append_assoc _ _ _
  rw [hsummary]
  rcases textEntry_cases "accountFingerprint" accountFingerprint with h₁ | ⟨t₁, h₁⟩ <;>
    rcases textEntry_cases "failureReason" failureReason with h₂ | ⟨t₂, h₂⟩ <;> rw [h₁, h₂]
  · exact ⟨_, permissions, warnings, [], rfl, by simp, hflat⟩
  · exact ⟨_, permissions, warnings, [("failureReason", t₂)], rfl, by simp, hflat⟩
  · exact ⟨_, permissions, warnings, [("accountFingerprint", t₁)], rfl, by simp, hflat⟩
  · exact ⟨_, permissions, warnings, [("accountFingerprint", t₁), ("failureReason", t₂)], rfl,
      by simp, hflat⟩

theorem isJson_texts (texts : List String) : ItemsAreJson (texts.map .str) := by
  induction texts with
  | nil => trivial
  | cons text rest ih => exact ⟨trivial, ih⟩

/-- **A summary can be written and is read back**: it is JSON. -/
theorem Summarizes.isJson (h : Summarizes provider name checkedAt read s) : IsJson (.dict s) := by
  obtain ⟨status, permissions, warnings, others, rfl, hkeys, hflat⟩ := h.entries
  obtain ⟨_, hpermissions, _⟩ := isFlat_spec hflat
  refine ⟨?_, entriesAreJson_iff.mpr ?_⟩
  · have hmap : (textEntries others).map Prod.fst = (others.map Prod.fst).map Key.str := by
      rw [textEntries, List.map_map, List.map_map]
      rfl
    rw [List.map_append, hmap]
    simp only [List.mem_cons, List.not_mem_nil, or_false] at hkeys
    rcases hkeys with h | h | h | h <;> rw [h] <;> simp [mainEntries]
  · intro entry hentry
    rcases List.mem_append.mp hentry with hmain | hother
    · simp only [mainEntries, List.mem_cons, List.not_mem_nil, or_false] at hmain
      rcases hmain with rfl | rfl | rfl | rfl | rfl | rfl
      · exact ⟨rfl, trivial⟩
      · exact ⟨rfl, trivial⟩
      · exact ⟨rfl, hpermissions⟩
      · exact ⟨rfl, trivial⟩
      · exact ⟨rfl, trivial⟩
      · exact ⟨rfl, isJson_texts warnings⟩
    · obtain ⟨field, _, rfl⟩ := List.mem_map.mp hother
      exact ⟨rfl, trivial⟩

theorem isPublicItems_texts (texts : List String) : isPublicItems (texts.map .str) = true := by
  induction texts with
  | nil => rfl
  | cons text rest ih => exact (Bool.and_eq_true _ _).mpr ⟨rfl, ih⟩

/-- **No key of a summary looks like one of a secret.** -/
theorem Summarizes.isPublic (h : Summarizes provider name checkedAt read s) :
    isPublic (.dict s) = true := by
  obtain ⟨status, permissions, warnings, others, rfl, hkeys, hflat⟩ := h.entries
  obtain ⟨hpermissions, _, _⟩ := isFlat_spec hflat
  refine isPublicEntries_iff.mpr fun entry hentry => ?_
  rcases List.mem_append.mp hentry with hmain | hother
  · have hpublic : ∀ key ∈ ["checkedAt", "name", "permissions", "provider", "status", "warnings"],
        isPublicKey (.str key) = true := by decide +kernel
    simp only [mainEntries, List.mem_cons, List.not_mem_nil, or_false] at hmain
    rcases hmain with rfl | rfl | rfl | rfl | rfl | rfl
    · exact ⟨hpublic _ (by simp), rfl⟩
    · exact ⟨hpublic _ (by simp), rfl⟩
    · exact ⟨hpublic _ (by simp), hpermissions⟩
    · exact ⟨hpublic _ (by simp), rfl⟩
    · exact ⟨hpublic _ (by simp), rfl⟩
    · exact ⟨hpublic _ (by simp), isPublicItems_texts warnings⟩
  · obtain ⟨field, hfield, rfl⟩ := List.mem_map.mp hother
    have hkey := List.mem_map_of_mem (f := Prod.fst) hfield
    have hpublic : ∀ keys ∈ [[], ["accountFingerprint"], ["failureReason"],
        ["accountFingerprint", "failureReason"]], ∀ key ∈ keys, isPublicKey (.str key) = true := by
      decide +kernel
    exact ⟨hpublic _ hkeys _ hkey, rfl⟩

/-- No float is in a summary. -/
theorem Summarizes.allFloats (h : Summarizes provider name checkedAt read s)
    (P : String → Prop) : (Value.dict s).AllFloats P := by
  obtain ⟨status, permissions, warnings, others, rfl, _, hflat⟩ := h.entries
  obtain ⟨_, _, hpermissions⟩ := isFlat_spec hflat
  have htexts (texts : List String) : Value.ItemsAllFloats P (texts.map .str) := by
    induction texts with
    | nil => trivial
    | cons text rest ih => exact ⟨trivial, ih⟩
  refine Value.entriesAllFloats_iff.mpr fun entry hentry => ?_
  rcases List.mem_append.mp hentry with hmain | hother
  · simp only [mainEntries, List.mem_cons, List.not_mem_nil, or_false] at hmain
    rcases hmain with rfl | rfl | rfl | rfl | rfl | rfl
    · trivial
    · trivial
    · exact hpermissions P
    · trivial
    · trivial
    · exact htexts warnings
  · obtain ⟨field, _, rfl⟩ := List.mem_map.mp hother
    trivial

end Fields

section Summaries

variable {name checkedAt : String}

theorem summarizes_failed (provider reason : String) :
    Summarizes provider name checkedAt false
      (failedProviderSummary provider name checkedAt reason) :=
  ⟨_, _, _, _, rfl, by decide +kernel, rfl⟩

theorem summarizes_tbank (accounts : List TbankAccount) :
    Summarizes "tbank" name checkedAt (decide (accounts ≠ []))
      (tbankSummary name checkedAt accounts) := by
  cases accounts with
  | nil => exact ⟨_, _, _, _, rfl, by decide +kernel, rfl⟩
  | cons account rest => exact ⟨_, _, _, _, rfl, by simp [isFlat, isScalar]; decide +kernel, rfl⟩

variable [Runtime]

theorem summarizes_binance (payload : Dict) :
    Summarizes "binance" name checkedAt true (binanceSummary name checkedAt payload) :=
  ⟨_, _, _, _, rfl, by simp [isFlat, isScalar]; decide +kernel, rfl⟩

theorem summarizes_okx (config : Dict) (balances positions : List Dict) :
    Summarizes "okx" name checkedAt true (okxSummary name checkedAt config balances positions) :=
  ⟨_, _, _, _, rfl, by simp [isFlat, isScalar]; decide +kernel, rfl⟩

/-! ### What a run returns -/

omit [Runtime] in
theorem run_failedRequest {provider reason : String}
    {t : Transcript ValidationCall Reply PyError} {s : Dict}
    (h : Run (failedRequest provider name checkedAt reason) t (.ok s)) :
    t = [] ∧ Summarizes provider name checkedAt false s := by
  obtain ⟨rfl, hs⟩ := h
  rw [Except.ok.inj hs]
  exact ⟨rfl, summarizes_failed provider _⟩

omit [Runtime] in
/-- A request that a provider may refuse: its summary, or that of the failure. -/
theorem run_request {provider : String} {p : Validator Dict}
    {t : Transcript ValidationCall Reply PyError} {s : Dict} {h : PyError → Option (Validator Dict)}
    (hfails : ∀ e q, h e = some q → ∃ reason, q = failedRequest provider name checkedAt reason)
    (hrun : Run (p.handle h) t (.ok s)) :
    Run p t (.ok s) ∨ (∃ e, Run p t (.error e)) ∧ Summarizes provider name checkedAt false s := by
  rcases (run_handle p).mp hrun with ⟨hp, _⟩ | ⟨t₁, t₂, e, q, rfl, hp, hq, hfailed⟩
  · exact Or.inl hp
  · obtain ⟨reason, rfl⟩ := hfails e q hq
    obtain ⟨rfl, hs⟩ := run_failedRequest hfailed
    rw [List.append_nil]
    exact Or.inr ⟨⟨e, hp⟩, hs⟩

omit [Runtime] in
theorem onBrokerValidationError_eq_some {provider : String} {e : PyError} {q : Validator Dict}
    (h : onBrokerValidationError (failedRequest provider name checkedAt) e = some q) :
    ∃ reason, q = failedRequest provider name checkedAt reason := by
  unfold onBrokerValidationError at h
  split at h
  · rename_i kind reason
    split at h
    · exact ⟨reason, (Option.some.inj h).symm⟩
    · cases h
  · cases h

omit [Runtime] in
/-- A run that makes one request and returns a summary of the reply. -/
theorem run_one {α : Type} {c : ValidationCall} {g : Reply → Except PyError α} {f : α → Dict}
    {t : Transcript ValidationCall Reply PyError} {out : Except PyError Dict}
    (h : Run ((perform c >>= fun reply => ofExcept (g reply)) >>= fun a => done (f a)) t out) :
    ∃ answer, t = [(c, answer)] ∧ out = (answer >>= g).map f := by
  rcases (run_bind _).mp h with ⟨t₁, t₂, a, rfl, hc, rfl, rfl⟩ | ⟨e, rfl, hc⟩
  · obtain ⟨answer, rfl, hanswer⟩ := run_perform_ofExcept.mp hc
    exact ⟨answer, rfl, by rw [← hanswer]; rfl⟩
  · obtain ⟨answer, rfl, hanswer⟩ := run_perform_ofExcept.mp hc
    exact ⟨answer, rfl, by rw [← hanswer]; rfl⟩

/-- **Binance.** -/
theorem run_validateBinance {secret : Secret} {timestampMs : ℤ}
    {t : Transcript ValidationCall Reply PyError} {s : Dict}
    (hrun : Run (validateBinance name secret checkedAt timestampMs) t (.ok s)) :
    Summarizes "binance" name checkedAt (binanceRead (t.map Prod.snd)) s := by
  obtain ⟨publicId, _, hrun⟩ := run_ofExcept_bind_ok.mp hrun
  obtain ⟨privateMaterial, _, hrun⟩ := run_ofExcept_bind_ok.mp hrun
  have hread (answer : Except PyError Reply) : binanceRead [answer] = true ↔
      ∃ payload, (answer >>= jsonObject) = .ok payload := by
    cases answer with
    | error e => simp [binanceRead, Bind.bind, Except.bind]
    | ok reply =>
        cases reply with
        | value v => cases v <;> simp [binanceRead, jsonObject, Bind.bind, Except.bind]
        | httpError | urlError | accounts => simp [binanceRead, jsonObject, Bind.bind, Except.bind]
  rcases run_request (fun _ _ => onBrokerValidationError_eq_some) hrun with
    hbody | ⟨⟨e, hbody⟩, hs⟩
  · obtain ⟨answer, rfl, hanswer⟩ := run_one (g := jsonObject) hbody
    cases hpayload : answer >>= jsonObject with
    | error e =>
        rw [hpayload] at hanswer
        cases hanswer
    | ok payload =>
        rw [hpayload] at hanswer
        rw [List.map_singleton, (hread answer).mpr ⟨payload, hpayload⟩, Except.ok.inj hanswer]
        exact summarizes_binance payload
  · obtain ⟨answer, rfl, hanswer⟩ := run_one (g := jsonObject) hbody
    have hunread : binanceRead [answer] = false := by
      refine Bool.eq_false_iff.mpr fun h => ?_
      obtain ⟨payload, hpayload⟩ := (hread answer).mp h
      rw [hpayload] at hanswer
      cases hanswer
    rw [List.map_singleton, hunread]
    exact hs

/-- **T-Bank.** -/
theorem run_validateTbank {libraries : Libraries} {secret : Secret}
    {t : Transcript ValidationCall Reply PyError} {s : Dict}
    (hrun : Run (validateTbank libraries name secret checkedAt) t (.ok s)) :
    Summarizes "tbank" name checkedAt (tbankRead (t.map Prod.snd)) s := by
  obtain ⟨token, _, hrun⟩ := run_ofExcept_bind_ok.mp hrun
  have hread (answer : Except PyError Reply) : tbankRead [answer] = true ↔
      ∃ accounts, (answer >>= accountsOf) = .ok accounts ∧ accounts ≠ [] := by
    cases answer with
    | error e => simp [tbankRead, Bind.bind, Except.bind]
    | ok reply =>
        cases reply with
        | accounts accounts => cases accounts <;> simp [tbankRead, accountsOf, Bind.bind, Except.bind]
        | value | httpError | urlError => simp [tbankRead, accountsOf, Bind.bind, Except.bind]
  split at hrun
  · have hfails : ∀ (e : PyError) (q : Validator Dict),
        onException (failedRequest "tbank" name checkedAt "broker_request_failed") e = some q →
          ∃ reason, q = failedRequest "tbank" name checkedAt reason :=
      fun _ _ h => ⟨_, (Option.some.inj h).symm⟩
    rcases run_request hfails hrun with hbody | ⟨⟨e, hbody⟩, hs⟩
    · obtain ⟨answer, rfl, hanswer⟩ := run_one (g := accountsOf) hbody
      cases haccounts : answer >>= accountsOf with
      | error e =>
          rw [haccounts] at hanswer
          cases hanswer
      | ok accounts =>
          have hiff : tbankRead [answer] = decide (accounts ≠ []) := by
            rw [Bool.eq_iff_iff, hread, haccounts, decide_eq_true_iff]
            simp
          rw [haccounts] at hanswer
          rw [List.map_singleton, hiff, Except.ok.inj hanswer]
          exact summarizes_tbank accounts
    · obtain ⟨answer, rfl, hanswer⟩ := run_one (g := accountsOf) hbody
      have hunread : tbankRead [answer] = false := by
        refine Bool.eq_false_iff.mpr fun h => ?_
        obtain ⟨accounts, haccounts, _⟩ := (hread answer).mp h
        rw [haccounts] at hanswer
        cases hanswer
      rw [List.map_singleton, hunread]
      exact hs
  · obtain ⟨rfl, hs⟩ := run_failedRequest hrun
    exact hs

/-- **OKX.** -/
theorem run_validateOkx {libraries : Libraries} {secret : Secret}
    {t : Transcript ValidationCall Reply PyError} {s : Dict}
    (hrun : Run (validateOkx libraries name secret checkedAt) t (.ok s)) :
    Summarizes "okx" name checkedAt (okxRead (t.map Prod.snd)) s := by
  obtain ⟨keys, _, hrun⟩ := run_ofExcept_bind_ok.mp hrun
  rcases run_request (fun _ _ => onBrokerValidationError_eq_some) hrun with
    hbody | ⟨⟨e, hbody⟩, hs⟩
  · obtain ⟨answer₁, _, rfl, hreply₁⟩ := run_perform_bind.mp hbody
    obtain ⟨reply₁, rfl, hdata₁⟩ := run_ofExcept_bind_ok.mp hreply₁
    obtain ⟨config, hconfig, hnext₁⟩ := run_ofExcept_bind_ok.mp hdata₁
    obtain ⟨answer₂, _, rfl, hreply₂⟩ := run_perform_bind.mp hnext₁
    obtain ⟨reply₂, rfl, hdata₂⟩ := run_ofExcept_bind_ok.mp hreply₂
    obtain ⟨balances, hbalances, hnext₂⟩ := run_ofExcept_bind_ok.mp hdata₂
    obtain ⟨answer₃, _, rfl, hreply₃⟩ := run_perform_bind.mp hnext₂
    obtain ⟨reply₃, rfl, hdata₃⟩ := run_ofExcept_bind_ok.mp hreply₃
    obtain ⟨positions, hpositions, rfl, hs⟩ := run_ofExcept_bind_ok.mp hdata₃
    have hread : okxRead [.ok reply₁, .ok reply₂, .ok reply₃] = true := by
      rw [okxRead, show okxSingleData "account_config" reply₁ = _ from hconfig,
        show okxData "account_balance" reply₂ = _ from hbalances,
        show okxData "positions" reply₃ = _ from hpositions]
      rfl
    rw [List.map_cons, List.map_cons, List.map_cons, List.map_nil, hread, Except.ok.inj hs]
    exact summarizes_okx config balances positions
  · have hunread : okxRead (t.map Prod.snd) = false := by
      refine Bool.eq_false_iff.mpr fun hread => ?_
      obtain ⟨reply₁, reply₂, reply₃, hanswers, config, hconfig, balances, hbalances, positions,
        hpositions⟩ := okxRead_spec hread
      -- the same answers take the run to its end
      obtain ⟨⟨_, answer₁⟩, t₁, rfl, hanswer₁, hanswers₁⟩ := List.map_eq_cons_iff.mp hanswers
      obtain ⟨⟨_, answer₂⟩, t₂, rfl, hanswer₂, hanswers₂⟩ := List.map_eq_cons_iff.mp hanswers₁
      obtain ⟨⟨_, answer₃⟩, t₃, rfl, hanswer₃, hanswers₃⟩ := List.map_eq_cons_iff.mp hanswers₂
      obtain rfl : answer₁ = .ok reply₁ := hanswer₁
      obtain rfl : answer₂ = .ok reply₂ := hanswer₂
      obtain rfl : answer₃ = .ok reply₃ := hanswer₃
      obtain ⟨_, _, heq₁, hrest₁⟩ := run_perform_bind.mp hbody
      cases heq₁
      rw [ofExcept_ok, bind_done, hconfig] at hrest₁
      obtain ⟨_, _, heq₂, hrest₂⟩ := run_perform_bind.mp hrest₁
      cases heq₂
      rw [ofExcept_ok, bind_done, hbalances] at hrest₂
      obtain ⟨_, _, heq₃, hrest₃⟩ := run_perform_bind.mp hrest₂
      cases heq₃
      rw [ofExcept_ok, bind_done, hpositions] at hrest₃
      cases hrest₃.2
    rw [hunread]
    exact hs

theorem strip_of_required {text fieldName normalized : String}
    (h : storeRequiredText (.str text) fieldName = .ok normalized) :
    normalized = strip text ∧ normalized ≠ "" := by
  rw [storeRequiredText_str] at h
  split at h
  · cases h
  · rename_i hne
    rw [← Except.ok.inj h]
    exact ⟨rfl, hne⟩

/-- What the provider's own validation returns. -/
theorem run_validateProvider {libraries : Libraries} {provider : String} {secret : Secret}
    {timestampMs : ℤ} {t : Transcript ValidationCall Reply PyError} {s : Dict}
    (hrun : Run (if provider = "binance" then validateBinance name secret checkedAt timestampMs
      else if provider = "okx" then validateOkx libraries name secret checkedAt
      else if provider = "tbank" then validateTbank libraries name secret checkedAt
      else done (unsupportedSummary provider name checkedAt)) t (.ok s)) :
    Summarizes provider name checkedAt (accountRead provider (t.map Prod.snd)) s := by
  unfold accountRead
  by_cases hbinance : provider = "binance"
  · subst hbinance
    rw [if_pos rfl] at hrun ⊢
    exact run_validateBinance hrun
  rw [if_neg hbinance] at hrun ⊢
  by_cases hokx : provider = "okx"
  · subst hokx
    rw [if_pos rfl] at hrun ⊢
    exact run_validateOkx hrun
  rw [if_neg hokx] at hrun ⊢
  by_cases htbank : provider = "tbank"
  · subst htbank
    rw [if_pos rfl] at hrun ⊢
    exact run_validateTbank hrun
  rw [if_neg htbank] at hrun ⊢
  obtain ⟨rfl, hs⟩ := hrun
  rw [Except.ok.inj hs]
  exact summarizes_failed provider _

end Summaries

/-- **A summary says `passed` exactly when** the broker has let the account be read. -/
theorem run_validateBrokerCredential [Runtime] {libraries : Libraries} {provider name : String}
    {secret : Secret} {now : Instant} {timestampMs : ℤ}
    {t : Transcript ValidationCall Reply PyError} {s : Dict}
    (hrun : Run (validateBrokerCredential libraries provider name secret now timestampMs) t
      (.ok s)) :
    strip provider ≠ "" ∧ strip name ≠ "" ∧ Summarizes (strip provider) (strip name) (isoZ now)
      (accountRead (strip provider) (t.map Prod.snd)) s := by
  obtain ⟨normalizedProvider, hprovider, hnext⟩ := run_ofExcept_bind_ok.mp hrun
  obtain ⟨normalizedName, hname, hlast⟩ := run_ofExcept_bind_ok.mp hnext
  obtain ⟨hproviderEq, hproviderNe⟩ := strip_of_required hprovider
  obtain ⟨hnameEq, hnameNe⟩ := strip_of_required hname
  have hs := run_validateProvider hlast
  rw [hproviderEq, hnameEq] at hs
  exact ⟨hproviderEq ▸ hproviderNe, hnameEq ▸ hnameNe, hs⟩

/-- **The verdict**, as the gate before an order reads it. -/
theorem passed_iff_accountRead [Runtime] {libraries : Libraries} {provider name : String}
    {secret : Secret} {now : Instant} {timestampMs : ℤ}
    {t : Transcript ValidationCall Reply PyError} {s : Dict}
    (hrun : Run (validateBrokerCredential libraries provider name secret now timestampMs) t
      (.ok s)) :
    ((s.get "status").text = "passed" ↔ accountRead (strip provider) (t.map Prod.snd) = true) ∧
      accountReadable s = accountRead (strip provider) (t.map Prod.snd) ∧
      passesGuard (.dict s) = true := by
  obtain ⟨_, _, hs⟩ := run_validateBrokerCredential hrun
  obtain ⟨_, _, _, hstatus, permissions, hpermissions, hreadable⟩ := hs.fields
  have hguard : rejectSecretFields [] (.dict s) = .ok () :=
    rejectSecretFields_of_isPublic hs.isPublic
  refine ⟨?_, ?_, rejectSecretFields_eq_ok.mp hguard⟩
  · have htexts : strip "passed" = "passed" ∧ strip "failed" = "failed" := by decide +kernel
    rw [hstatus, Value.text]
    cases accountRead (strip provider) (t.map Prod.snd) with
    | true => simp [htexts.1]
    | false => simp [htexts.2]
  · rw [accountReadable, hpermissions]
    show (Dict.get permissions "accountReadable").isTrue = _
    rw [hreadable]
    cases accountRead (strip provider) (t.map Prod.snd) <;> rfl

/-! ### Two secrets that are answered alike -/

section Secrets

/-- The fields that a validation wants to find in a secret. -/
def validationFields (provider : String) : List String :=
  if provider = "binance" then ["apiKey", "apiSecret"]
  else if provider = "okx" then ["apiKey", "apiSecret", "passphrase"]
  else if provider = "tbank" then ["token"]
  else []

/-- Any two secrets, as long as the same of these fields are blank. -/
def SameFieldsBlank (provider : String) (secret secret' : Secret) : Prop :=
  ∀ field ∈ validationFields provider,
    secretField secret field = "" ↔ secretField secret' field = ""

/-- The same request, to whoever does not see the credential. -/
inductive SameRequest : ValidationCall → ValidationCall → Prop
  | binance (timestampMs : ℤ) (apiKey apiKey' apiSecret apiSecret' : String) :
      SameRequest (.getJson (binanceUrl apiSecret timestampMs) [("X-MBX-APIKEY", apiKey)])
        (.getJson (binanceUrl apiSecret' timestampMs) [("X-MBX-APIKEY", apiKey')])
  | config (keys keys' : OkxKeys) : SameRequest (.getAccountConfig keys) (.getAccountConfig keys')
  | balance (keys keys' : OkxKeys) :
      SameRequest (.getAccountBalance keys) (.getAccountBalance keys')
  | positions (keys keys' : OkxKeys) (instType : String) :
      SameRequest (.getPositions keys instType) (.getPositions keys' instType)
  | accounts (token token' : String) : SameRequest (.getAccounts token) (.getAccounts token')

variable [Runtime] {provider name checkedAt : String} {secret secret' : Secret}
variable {libraries : Libraries}

theorem requiredSecret_eq (secret : Secret) (field label : String) :
    requiredSecret secret field label =
      if secretField secret field = "" then .error (.valueError (label ++ " is required"))
      else .ok (secretField secret field) := by
  unfold requiredSecret secretField
  cases secret.lookup field with
  | none =>
      have hblank : strip "" = "" := by decide +kernel
      rw [Option.getD_none, hblank]
      exact (storeRequiredText_str "" label).trans (by rw [hblank])
  | some text => exact storeRequiredText_str text label

/-- A required field is missing in both, or in neither. -/
theorem SameFieldsBlank.requiredSecret {field label : String}
    (h : SameFieldsBlank provider secret secret') (hfield : field ∈ validationFields provider) :
    AgreeUpTo (fun _ _ => True) (requiredSecret secret field label)
      (requiredSecret secret' field label) := by
  rw [requiredSecret_eq, requiredSecret_eq]
  by_cases hblank : secretField secret field = ""
  · rw [if_pos hblank, if_pos ((h field hfield).mp hblank)]
    exact AgreeUpTo.error _
  · rw [if_neg hblank, if_neg fun hblank' => hblank ((h field hfield).mpr hblank')]
    exact AgreeUpTo.ok trivial

omit [Runtime] in
/-- The same handler on both sides. -/
theorem alike_handle {p q : Validator Dict} {h : PyError → Option (Validator Dict)}
    (hpq : Alike SameRequest p q)
    (hh : ∀ e r, h e = some r → ∃ reason, r = failedRequest provider name checkedAt reason) :
    Alike SameRequest (p.handle h) (q.handle h) := by
  refine hpq.handle fun e => ?_
  cases hr : h e with
  | none => exact Option.Rel.none
  | some r =>
      obtain ⟨reason, rfl⟩ := hh e r hr
      exact Option.Rel.some (Alike.done _)

theorem validateBinance_alike {timestampMs : ℤ} (h : SameFieldsBlank "binance" secret secret') :
    Alike SameRequest (validateBinance name secret checkedAt timestampMs)
      (validateBinance name secret' checkedAt timestampMs) := by
  refine (h.requiredSecret (by decide)).alike_bind fun apiKey apiKey' _ => ?_
  refine (h.requiredSecret (by decide)).alike_bind fun apiSecret apiSecret' _ => ?_
  refine alike_handle ?_ fun _ _ => onBrokerValidationError_eq_some
  refine Alike.bind ?_ fun payload => Alike.done _
  exact (Alike.perform (.binance timestampMs apiKey apiKey' apiSecret apiSecret')).bind
    fun reply => Alike.ofExcept _

theorem validateTbank_alike (h : SameFieldsBlank "tbank" secret secret') :
    Alike SameRequest (validateTbank libraries name secret checkedAt)
      (validateTbank libraries name secret' checkedAt) := by
  refine (h.requiredSecret (by decide)).alike_bind fun token token' _ => ?_
  split
  · refine alike_handle ?_ fun _ _ hr => ⟨_, (Option.some.inj hr).symm⟩
    refine Alike.bind ?_ fun accounts => Alike.done _
    exact (Alike.perform (.accounts token token')).bind fun reply => Alike.ofExcept _
  · exact Alike.done _

theorem buildOkxAccountApi_agree (h : SameFieldsBlank "okx" secret secret') :
    AgreeUpTo (fun _ _ => True) (buildOkxAccountApi libraries secret)
      (buildOkxAccountApi libraries secret') := by
  unfold buildOkxAccountApi
  split
  · exact AgreeUpTo.error _
  · refine (h.requiredSecret (by decide)).bind fun _ _ _ => ?_
    refine (h.requiredSecret (by decide)).bind fun _ _ _ => ?_
    exact (h.requiredSecret (by decide)).bind fun _ _ _ => AgreeUpTo.ok trivial

theorem validateOkx_alike (h : SameFieldsBlank "okx" secret secret') :
    Alike SameRequest (validateOkx libraries name secret checkedAt)
      (validateOkx libraries name secret' checkedAt) := by
  refine (buildOkxAccountApi_agree h).alike_bind fun keys keys' _ => ?_
  refine alike_handle ?_ fun _ _ => onBrokerValidationError_eq_some
  refine (Alike.perform (.config keys keys')).bind fun _ => ?_
  refine (Alike.ofExcept _).bind fun config => ?_
  refine (Alike.perform (.balance keys keys')).bind fun _ => ?_
  refine (Alike.ofExcept _).bind fun balances => ?_
  refine (Alike.perform (.positions keys keys' "SWAP")).bind fun _ => ?_
  exact (Alike.ofExcept _).bind fun positions => Alike.done _

theorem validateBrokerCredential_alike {now : Instant} {timestampMs : ℤ}
    (h : SameFieldsBlank (strip provider) secret secret') :
    Alike SameRequest (validateBrokerCredential libraries provider name secret now timestampMs)
      (validateBrokerCredential libraries provider name secret' now timestampMs) := by
  refine Alike.after _ fun normalizedProvider hprovider => ?_
  refine Alike.after _ fun normalizedName _ => ?_
  rw [← (strip_of_required hprovider).1] at h
  dsimp only
  by_cases hbinance : normalizedProvider = "binance"
  · subst hbinance
    rw [if_pos rfl, if_pos rfl]
    exact validateBinance_alike h
  rw [if_neg hbinance, if_neg hbinance]
  by_cases hokx : normalizedProvider = "okx"
  · subst hokx
    rw [if_pos rfl, if_pos rfl]
    exact validateOkx_alike h
  rw [if_neg hokx, if_neg hokx]
  by_cases htbank : normalizedProvider = "tbank"
  · subst htbank
    rw [if_pos rfl, if_pos rfl]
    exact validateTbank_alike h
  rw [if_neg htbank, if_neg htbank]
  exact Alike.done _

/-- **The summary is made of the answers alone.**  A run with one secret is a run with any
other that has the same blank fields: it asks the same but for the credential, and comes to
the same summary or the same exception. -/
theorem validation_independent_of_secret {now : Instant} {timestampMs : ℤ}
    {t : Transcript ValidationCall Reply PyError} {out : Except PyError Dict}
    (h : SameFieldsBlank (strip provider) secret secret')
    (hrun : Run (validateBrokerCredential libraries provider name secret now timestampMs) t out) :
    ∃ t', Run (validateBrokerCredential libraries provider name secret' now timestampMs) t' out ∧
      List.Forall₂ (fun x y => SameRequest x.1 y.1 ∧ x.2 = y.2) t t' :=
  (validateBrokerCredential_alike h).run hrun

end Secrets

/-! ### An account of OKX -/

namespace Sample

def okxValue (data : Dict) : Except PyError Reply :=
  .ok (.value (.dict [("code", "0"), ("data", .list [.dict data])]))

/-- A configuration, balances and positions. -/
def answers : List (Except PyError Reply) :=
  [okxValue [("acctLv", "2"), ("posMode", "net_mode")], okxValue [("totalEq", "1000")],
    okxValue []]

/-- A validation of `main` at OKX. -/
def program (secret : Secret) : Validator Dict :=
  @validateBrokerCredential YtmExecutor.Sample.runtime ⟨true, true⟩ "okx" "main" secret
    1778407200000000 0

end Sample

theorem passed_iff_accountRead_sample : let _ : Runtime := YtmExecutor.Sample.runtime
    ∃ t s, Run (Sample.program YtmExecutor.Sample.secret) t (.ok s) ∧
      ((s.get "status").text = "passed" ↔ accountRead (strip "okx") (t.map Prod.snd) = true) ∧
      accountReadable s = accountRead (strip "okx") (t.map Prod.snd) ∧
      passesGuard (.dict s) = true := by
  intro _
  obtain ⟨t, out, hrun, hcheck⟩ := exists_run Sample.answers
    (Sample.program YtmExecutor.Sample.secret) (fun _ out => out.toOption.isSome)
    (by decide +kernel)
  obtain ⟨s, hs⟩ := Option.isSome_iff_exists.mp hcheck
  rw [toOption_eq_some.mp hs] at hrun
  exact ⟨t, s, hrun, passed_iff_accountRead hrun⟩

theorem validation_independent_of_secret_sample : let _ : Runtime := YtmExecutor.Sample.runtime
    YtmExecutor.Sample.secret ≠ YtmExecutor.Sample.otherSecret ∧
    ∃ t out, Run (Sample.program YtmExecutor.Sample.secret) t out ∧
      ∃ t', Run (Sample.program YtmExecutor.Sample.otherSecret) t' out ∧
        List.Forall₂ (fun x y => SameRequest x.1 y.1 ∧ x.2 = y.2) t t' := by
  intro _
  refine ⟨by decide, ?_⟩
  obtain ⟨t, out, hrun, _⟩ := exists_run Sample.answers
    (Sample.program YtmExecutor.Sample.secret) (fun _ _ => true) (by decide +kernel)
  have hfields : ∀ field ∈ validationFields (strip "okx"),
      secretField YtmExecutor.Sample.secret field ≠ "" ∧
        secretField YtmExecutor.Sample.otherSecret field ≠ "" := by decide +kernel
  exact ⟨t, out, hrun, validation_independent_of_secret (fun field hfield =>
    iff_of_false (hfields field hfield).1 (hfields field hfield).2) hrun⟩

end Validation

end YtmExecutor
