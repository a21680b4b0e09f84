/-
What is written to the risk state's file, and what is read back from it.

A state whose numbers the default context holds, kept under dates, can always be
written.  Reading is stricter than writing: it wants the amounts non-negative and the two
equities positive.  So what was written may not be readable, but if it is, it is the
state that was written.
-/
import YtmExecutor.RiskState

namespace YtmExecutor

open Python Decimal

/-! ### Numbers and keys that can be kept -/

/-- A finite number that the default context does not round. -/
def HeldNumber (n : Number) : Prop := ∃ d : Finite, n = .finite d ∧ defaultContext.Holds d.val

/-- An amount under a key the guard against secrets lets pass. -/
def Keepable (entry : String × Number) : Prop :=
  isPublicKey (.str entry.1) = true ∧ HeldNumber entry.2

structure Storable (state : RiskState) : Prop where
  losses : ∀ entry ∈ state.realizedLossByDate, Keepable entry
  dailyEquity : ∀ entry ∈ state.dailyEquityOpenByDate, Keepable entry
  initialEquity : ∀ n ∈ state.initialEquity, HeldNumber n
  currentEquity : ∀ n ∈ state.currentEquity, HeldNumber n

/-- A number the default context can round. -/
def WritableNumber (n : Number) : Prop :=
  ∃ d : Finite, n = .finite d ∧ ∃ r, defaultContext.fix d.val = .ok r

structure Writable (state : RiskState) : Prop where
  losses : ∀ entry ∈ state.realizedLossByDate,
    isPublicKey (.str entry.1) = true ∧ WritableNumber entry.2
  dailyEquity : ∀ entry ∈ state.dailyEquityOpenByDate,
    isPublicKey (.str entry.1) = true ∧ WritableNumber entry.2
  initialEquity : ∀ n ∈ state.initialEquity, WritableNumber n
  currentEquity : ∀ n ∈ state.currentEquity, WritableNumber n

theorem HeldNumber.writable {n : Number} (h : HeldNumber n) : WritableNumber n := by
  obtain ⟨d, rfl, hheld⟩ := h
  exact ⟨d, rfl, d.val, hheld⟩

theorem Storable.writable {state : RiskState} (h : Storable state) : Writable state where
  losses entry hentry := (h.losses entry hentry).imp id HeldNumber.writable
  dailyEquity entry hentry := (h.dailyEquity entry hentry).imp id HeldNumber.writable
  initialEquity n hn := (h.initialEquity n hn).writable
  currentEquity n hn := (h.currentEquity n hn).writable

theorem ByDate.mem_put {amounts : List (String × Number)} {date : String} {amount : Number}
    {entry : String × Number} (h : entry ∈ ByDate.put amounts date amount) :
    entry ∈ amounts ∨ entry = (date, amount) := by
  induction amounts with
  | nil => exact Or.inr (List.mem_singleton.mp h)
  | cons first rest ih =>
      rw [ByDate.put] at h
      by_cases hdate : first.1 = date
      · rw [if_pos hdate, hdate] at h
        rcases List.mem_cons.mp h with heq | hrest
        · exact Or.inr heq
        · exact Or.inl (List.mem_cons_of_mem _ hrest)
      · rw [if_neg hdate] at h
        rcases List.mem_cons.mp h with heq | hrest
        · exact Or.inl (heq ▸ List.mem_cons_self)
        · exact (ih hrest).imp (List.mem_cons_of_mem _) id

theorem ByDate.mem_setDefault {amounts : List (String × Number)} {date : String}
    {amount : Number} {entry : String × Number}
    (h : entry ∈ ByDate.setDefault amounts date amount) :
    entry ∈ amounts ∨ entry = (date, amount) := by
  unfold ByDate.setDefault at h
  split at h
  · exact Or.inl h
  · exact ByDate.mem_put h

theorem ByDate.lookup_put_other (amounts : List (String × Number)) {date other : String}
    (amount : Number) (hne : other ≠ date) :
    (ByDate.put amounts date amount).lookup other = amounts.lookup other := by
  have hdate : (other == date) = false := by simpa using hne
  induction amounts with
  | nil => rw [ByDate.put, List.lookup_cons, hdate]
  | cons entry rest ih =>
      rw [ByDate.put]
      by_cases h : entry.1 = date
      · rw [if_pos h, List.lookup_cons, List.lookup_cons, h, hdate]
      · rw [if_neg h, List.lookup_cons, List.lookup_cons, ih]

theorem ByDate.lookup_setDefault_other (amounts : List (String × Number)) {date other : String}
    (amount : Number) (hne : other ≠ date) :
    (ByDate.setDefault amounts date amount).lookup other = amounts.lookup other := by
  unfold ByDate.setDefault
  split
  · rfl
  · exact ByDate.lookup_put_other amounts amount hne

/-- A key of digits and dashes. -/
theorem isPublicKey_of_digits {key : String}
    (h : ∀ c ∈ key.toList, c.isDigit = true ∨ c = '-') : isPublicKey (.str key) = true := by
  have hascii : key.toList.all isAscii = true := by
    refine List.all_eq_true.mpr fun c hc => ?_
    rcases h c hc with hdigit | rfl
    · exact isAscii_of_isDigit hdigit
    · rfl
  have htoken : ∀ c ∈ (asciiToken key).toList, c.isDigit = true := by
    intro c hc
    rw [asciiToken, String.toList_ofList] at hc
    obtain ⟨hmem, halnum⟩ := List.mem_filter.mp hc
    obtain ⟨b, hb, rfl⟩ := List.mem_map.mp hmem
    rcases h b hb with hdigit | rfl
    · rwa [Decimal.toLower_digit hdigit]
    · exact absurd halnum (by decide)
  have hletters : forbiddenSecretKeys.all (fun word => word.toList.any fun c => !c.isDigit) = true := by
    decide
  have hallowed : asciiToken key ∉ forbiddenSecretKeys := by
    intro hmem
    obtain ⟨c, hc, hletter⟩ := List.any_eq_true.mp (List.all_eq_true.mp hletters _ hmem)
    rw [htoken c hc] at hletter
    cases hletter
  simp [isPublicKey, hascii, hallowed]

theorem isPublicKey_utcDate (t : Instant) : isPublicKey (.str (utcDate t)) = true := by
  have hpad : ∀ (width : ℕ) (n : ℤ), ∀ c ∈ (padNumber width n).toList, c.isDigit = true := by
    intro width n c hc
    rw [padNumber, String.toList_ofList, List.mem_append] at hc
    rcases hc with hzero | hdigit
    · rw [(List.mem_replicate.mp hzero).2]
      rfl
    · exact Nat.isDigit_of_mem_toDigits (by omega) (by omega) hdigit
  refine isPublicKey_of_digits fun c hc => ?_
  simp only [utcDate, String.toList_append, List.mem_append] at hc
  rcases hc with (((hc | hc) | hc) | hc) | hc
  · exact Or.inl (hpad _ _ c hc)
  · exact Or.inr (by simpa using hc)
  · exact Or.inl (hpad _ _ c hc)
  · exact Or.inr (by simpa using hc)
  · exact Or.inl (hpad _ _ c hc)

/-! ### Written and read back -/

section File

variable [Runtime]

omit [Runtime] in
theorem numberText_eq_ok {ctx : Context} {d : Finite} {text : String} :
    numberText ctx (.finite d) = .ok text ↔ ∃ r, ctx.fix d.val = .ok r ∧ plainText r = text := by
  have hnumber : numberText ctx (.finite d) =
      raiseSignal ((d.fix ctx).map fun r => plainText r.val) := rfl
  rw [hnumber, raiseSignal_eq_ok]
  constructor
  · intro h
    cases hfix : d.fix ctx with
    | error e =>
        rw [hfix] at h
        cases h
    | ok r =>
        rw [hfix] at h
        exact ⟨r.val, Finite.fix_eq_ok.mp hfix, Except.ok.inj h⟩
  · rintro ⟨r, hr, rfl⟩
    have hfix : d.fix ctx = .ok ⟨r, ctx.fix_isDecimal d.isDecimal hr⟩ := Finite.fix_eq_ok.mpr hr
    rw [hfix]
    rfl

omit [Runtime] in
theorem numberText_of_held {d : Finite} (h : defaultContext.Holds d.val) :
    numberText defaultContext (.finite d) = .ok (plainText d.val) :=
  numberText_eq_ok.mpr ⟨d.val, h, rfl⟩

theorem toFinite_plainText {d : Finite} (h : defaultContext.Holds d.val) (label : String) :
    (Value.str (plainText d.val)).toFinite label = .ok d := by
  simp only [Value.toFinite, Value.toText, decimalOfText_of_holds h]

/-- A number that was written is read back rounded. -/
theorem toFinite_of_numberText {d : Finite} {text : String}
    (h : numberText defaultContext (.finite d) = .ok text) (label : String) :
    ∃ r : Finite, (Value.str text).toFinite label = .ok r ∧ r.val = rounded28 d.val ∧
      defaultContext.Holds r.val := by
  obtain ⟨r, hr, rfl⟩ := numberText_eq_ok.mp h
  have hheld : defaultContext.Holds r := fix_fix (by norm_num) hr
  have hback := toFinite_plainText (d := ⟨r, defaultContext.fix_isDecimal d.isDecimal hr⟩) hheld
  exact ⟨_, hback label, (rounded28_of_fix hr).symm, hheld⟩

/-! ### Writing -/

omit [Runtime] in
theorem amountEntries_of_writable {amounts : List (String × Number)}
    (h : ∀ entry ∈ amounts, isPublicKey (.str entry.1) = true ∧ WritableNumber entry.2) :
    ∃ entries, amountEntries defaultContext amounts = .ok entries ∧
      isPublicEntries entries = true := by
  induction amounts with
  | nil => exact ⟨[], rfl, rfl⟩
  | cons entry rest ih =>
      obtain ⟨date, amount⟩ := entry
      obtain ⟨hkey, d, rfl, r, hr⟩ := h _ List.mem_cons_self
      obtain ⟨entries, hentries, hpublic⟩ :=
        ih fun entry hentry => h entry (List.mem_cons_of_mem _ hentry)
      refine ⟨(.str date, .str (plainText r)) :: entries, ?_, ?_⟩
      · rw [amountEntries, numberText_eq_ok.mpr ⟨r, hr, rfl⟩, hentries]
        rfl
      · simp only [isPublicEntries, isPublic, hkey, hpublic, Bool.and_self]

omit [Runtime] in
theorem numberValue_of_writable {equity : Option Number}
    (h : ∀ n ∈ equity, WritableNumber n) :
    ∃ v, numberValue defaultContext equity = .ok v ∧ isPublic v = true := by
  cases equity with
  | none => exact ⟨.none, rfl, rfl⟩
  | some n =>
      obtain ⟨d, rfl, r, hr⟩ := h n rfl
      refine ⟨.str (plainText r), ?_, rfl⟩
      rw [numberValue, numberText_eq_ok.mpr ⟨r, hr, rfl⟩]
      rfl

/-- The file of a state whose fields are written as these. -/
def stateContent (current : Value) (daily : Dict) (initial : Value) (losses : Dict) : Dict :=
  [("currentEquity", current), ("dailyEquityOpenByDate", .dict daily),
    ("initialEquity", initial), ("realizedLossByDate", .dict losses), ("version", .int 1)]

/-- What the fields of a state are written as. -/
structure WrittenAs (ctx : Context) (state : RiskState) (current : Value) (daily : Dict)
    (initial : Value) (losses : Dict) : Prop where
  currentEquity : numberValue ctx state.currentEquity = .ok current
  dailyEquity : amountEntries ctx state.dailyEquityOpenByDate = .ok daily
  initialEquity : numberValue ctx state.initialEquity = .ok initial
  realizedLoss : amountEntries ctx state.realizedLossByDate = .ok losses
  guard : rejectSecretFields [] (.dict (stateContent current daily initial losses)) = .ok ()

theorem writeRiskState_eq_ok {ctx : Context} {state : RiskState} {content : Value} :
    writeRiskState ctx state = .ok content ↔ ∃ current daily initial losses,
      WrittenAs ctx state current daily initial losses ∧
        content = .dict (stateContent current daily initial losses) := by
  constructor
  · intro h
    obtain ⟨current, hcurrent, h⟩ := bind_eq_ok.mp h
    obtain ⟨daily, hdaily, h⟩ := bind_eq_ok.mp h
    obtain ⟨initial, hinitial, h⟩ := bind_eq_ok.mp h
    obtain ⟨losses, hlosses, h⟩ := bind_eq_ok.mp h
    obtain ⟨_, hguard, h⟩ := bind_eq_ok.mp h
    exact ⟨current, daily, initial, losses, ⟨hcurrent, hdaily, hinitial, hlosses, hguard⟩,
      (Except.ok.inj h).symm⟩
  · rintro ⟨current, daily, initial, losses, hwritten, rfl⟩
    refine bind_eq_ok.mpr ⟨current, hwritten.currentEquity, ?_⟩
    refine bind_eq_ok.mpr ⟨daily, hwritten.dailyEquity, ?_⟩
    refine bind_eq_ok.mpr ⟨initial, hwritten.initialEquity, ?_⟩
    refine bind_eq_ok.mpr ⟨losses, hwritten.realizedLoss, ?_⟩
    exact bind_eq_ok.mpr ⟨(), hwritten.guard, rfl⟩

theorem writeRiskState_of_writable {state : RiskState} (h : Writable state) :
    ∃ content, writeRiskState defaultContext state = .ok content := by
  obtain ⟨current, hcurrent, hpublicCurrent⟩ := numberValue_of_writable h.currentEquity
  obtain ⟨daily, hdaily, hpublicDaily⟩ := amountEntries_of_writable h.dailyEquity
  obtain ⟨initial, hinitial, hpublicInitial⟩ := numberValue_of_writable h.initialEquity
  obtain ⟨losses, hlosses, hpublicLosses⟩ := amountEntries_of_writable h.losses
  refine ⟨_, writeRiskState_eq_ok.mpr ⟨current, daily, initial, losses,
    ⟨hcurrent, hdaily, hinitial, hlosses, rejectSecretFields_of_isPublic ?_⟩, rfl⟩⟩
  simp only [stateContent, isPublic, isPublicEntries, hpublicCurrent, hpublicDaily,
    hpublicInitial, hpublicLosses]
  decide

/-! ### Reading -/

/-- A state that is read from a file was read field by field. -/
theorem readRiskState_stateContent {current initial : Value} {daily losses : Dict}
    {state : RiskState}
    (hguard : rejectSecretFields [] (.dict (stateContent current daily initial losses)) = .ok ()) :
    readRiskState (some (.dict (stateContent current daily initial losses))) = .ok state ↔
      readAmounts "realizedLossByDate" losses = .ok state.realizedLossByDate ∧
      readAmounts "dailyEquityOpenByDate" daily = .ok state.dailyEquityOpenByDate ∧
      optionalPositive initial "initialEquity" = .ok state.initialEquity ∧
      optionalPositive current "currentEquity" = .ok state.currentEquity := by
  rw [readRiskState, hguard]
  constructor
  · intro h
    obtain ⟨_, _, h⟩ := bind_eq_ok.mp h
    obtain ⟨losses', hlosses, h⟩ := bind_eq_ok.mp h
    obtain ⟨daily', hdaily, h⟩ := bind_eq_ok.mp h
    obtain ⟨initial', hinitial, h⟩ := bind_eq_ok.mp h
    obtain ⟨current', hcurrent, h⟩ := bind_eq_ok.mp h
    rw [← Except.ok.inj h]
    exact ⟨hlosses, hdaily, hinitial, hcurrent⟩
  · rintro ⟨hlosses, hdaily, hinitial, hcurrent⟩
    refine bind_eq_ok.mpr ⟨(), rfl, ?_⟩
    refine bind_eq_ok.mpr ⟨_, hlosses, ?_⟩
    refine bind_eq_ok.mpr ⟨_, hdaily, ?_⟩
    refine bind_eq_ok.mpr ⟨_, hinitial, ?_⟩
    exact bind_eq_ok.mpr ⟨_, hcurrent, rfl⟩

/-- Amounts come back as they were, if they come back. -/
theorem readAmounts_of_held {amounts amounts' : List (String × Number)} {entries : Dict}
    {fieldName : String} (hheld : ∀ entry ∈ amounts, HeldNumber entry.2)
    (hentries : amountEntries defaultContext amounts = .ok entries)
    (hread : readAmounts fieldName entries = .ok amounts') : amounts' = amounts := by
  induction amounts generalizing entries amounts' with
  | nil =>
      rw [← Except.ok.inj hentries] at hread
      exact (Except.ok.inj hread).symm
  | cons entry rest ih =>
      obtain ⟨date, amount⟩ := entry
      obtain ⟨d, rfl, hd⟩ := hheld _ List.mem_cons_self
      obtain ⟨text, htext, hentries⟩ := bind_eq_ok.mp hentries
      obtain ⟨entries', hrest, hentries⟩ := bind_eq_ok.mp hentries
      rw [numberText_of_held hd] at htext
      rw [← Except.ok.inj hentries, ← Except.ok.inj htext, readAmounts] at hread
      obtain ⟨amount, hamount, hread⟩ := bind_eq_ok.mp hread
      obtain ⟨rest', hrest', hread⟩ := bind_eq_ok.mp hread
      rw [nonNegativeDecimal_eq_ok, toFinite_plainText hd] at hamount
      rw [← Except.ok.inj hread, ← Except.ok.inj hamount.1,
        ih (fun entry hentry => hheld entry (List.mem_cons_of_mem _ hentry)) hrest hrest']

/-- And so does an equity. -/
theorem optionalPositive_of_held {equity equity' : Option Number} {v : Value} {fieldName : String}
    (hheld : ∀ n ∈ equity, HeldNumber n) (hv : numberValue defaultContext equity = .ok v)
    (hread : optionalPositive v fieldName = .ok equity') : equity' = equity := by
  cases equity with
  | none =>
      rw [← Except.ok.inj hv] at hread
      exact (Except.ok.inj hread).symm
  | some n =>
      obtain ⟨d, rfl, hd⟩ := hheld n rfl
      obtain ⟨text, htext, hv⟩ := bind_eq_ok.mp hv
      rw [numberText_of_held hd] at htext
      rw [← Except.ok.inj hv, ← Except.ok.inj htext, optionalPositive] at hread
      · obtain ⟨p, hp, hread⟩ := bind_eq_ok.mp hread
        rw [Value.toPositive_eq_ok, toFinite_plainText hd] at hp
        rw [← Except.ok.inj hread, ← Except.ok.inj hp]
      · intro hnone
        cases hnone

/-- **A storable state can be written, and whatever is read back is that state.** -/
theorem readRiskState_writeRiskState {state : RiskState} (h : Storable state) :
    ∃ content, writeRiskState defaultContext state = .ok content ∧
      ∀ state', readRiskState (some content) = .ok state' → state' = state := by
  obtain ⟨content, hcontent⟩ := writeRiskState_of_writable h.writable
  refine ⟨content, hcontent, ?_⟩
  intro state' hread
  obtain ⟨current, daily, initial, losses, hwritten, rfl⟩ := writeRiskState_eq_ok.mp hcontent
  obtain ⟨hlosses, hdaily, hinitial, hcurrent⟩ :=
    (readRiskState_stateContent hwritten.guard).mp hread
  have hlosses := readAmounts_of_held (fun entry hentry => (h.losses entry hentry).2)
    hwritten.realizedLoss hlosses
  have hdaily := readAmounts_of_held (fun entry hentry => (h.dailyEquity entry hentry).2)
    hwritten.dailyEquity hdaily
  have hinitial := optionalPositive_of_held h.initialEquity hwritten.initialEquity hinitial
  have hcurrent := optionalPositive_of_held h.currentEquity hwritten.currentEquity hcurrent
  rcases state' with ⟨losses', daily', initial', current'⟩
  rcases state with ⟨losses'', daily'', initial'', current''⟩
  simp only [RiskState.mk.injEq]
  exact ⟨hlosses, hdaily, hinitial, hcurrent⟩

/-- The first equity in a state that was read is positive. -/
theorem readRiskState_initialEquity {file : Option Value} {state : RiskState}
    (h : readRiskState file = .ok state) {n : Number} (hn : state.initialEquity = some n) :
    ∃ p : Positive, n = .finite p.toFinite := by
  unfold readRiskState at h
  split at h
  · rw [← Except.ok.inj h] at hn
    cases hn
  · obtain ⟨_, _, h⟩ := bind_eq_ok.mp h
    obtain ⟨_, _, h⟩ := bind_eq_ok.mp h
    obtain ⟨_, _, h⟩ := bind_eq_ok.mp h
    obtain ⟨initial, hinitial, h⟩ := bind_eq_ok.mp h
    obtain ⟨_, _, h⟩ := bind_eq_ok.mp h
    rw [← Except.ok.inj h] at hn
    dsimp only at hn
    unfold optionalPositive at hinitial
    split at hinitial
    · rw [← Except.ok.inj hinitial] at hn
      cases hn
    · obtain ⟨p, _, hinitial⟩ := bind_eq_ok.mp hinitial
      rw [← Except.ok.inj hinitial] at hn
      exact ⟨p, (Option.some.inj hn).symm⟩
  · cases h

/-! ### An accepted update -/

theorem update_eq_ok {file : Option Value} {snapshot : Dict} {now : Instant} {next : RiskState}
    {content : Value} :
    updateRiskStateFromReconciliationSnapshot defaultContext file snapshot now =
        .ok (next, content) ↔
      ∃ current equity, readRiskState file = .ok current ∧
        snapshotUsdEquity snapshot = .ok equity ∧
        nextRiskState defaultContext current (utcDate now) equity = .ok next ∧
        writeRiskState defaultContext next = .ok content := by
  unfold updateRiskStateFromReconciliationSnapshot
  constructor
  · intro h
    obtain ⟨current, hread, h⟩ := bind_eq_ok.mp h
    obtain ⟨equity, hequity, h⟩ := bind_eq_ok.mp h
    obtain ⟨nextState, hnext, h⟩ := bind_eq_ok.mp h
    obtain ⟨written, hwrite, h⟩ := bind_eq_ok.mp h
    obtain ⟨rfl, rfl⟩ := Prod.mk.inj (Except.ok.inj h)
    exact ⟨current, equity, hread, hequity, hnext, hwrite⟩
  · rintro ⟨current, equity, hread, hequity, hnext, hwrite⟩
    simp only [hread, hequity, hnext, hwrite, bind, Except.bind, pure, Except.pure]

end File

end YtmExecutor
