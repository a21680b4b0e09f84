/-
The risk state's file between two threads.

One thread captures the account and folds what it is worth into the risk state; the other
one leases commands and reads the state before it lets a real order through.  They share a
file and no lock.  So a read may come while the file is being written, and a process may
die there.

The file is a register in the sense of `FileRegister`: a read that succeeds sees what the
updates have made of the state one after the other, and never half of one.  Where every
snapshot can be folded in, the state follows their equities, `Follows`, so that whoever
changes something at the broker has been below the limits at the updates made so far,
wherever the other thread stands.  What is read back of a file is in the order of the
dates and not in the order it was written in, so the first part is about that.
-/
import YtmExecutor.AtMostOnce
import YtmExecutor.Drawdown
import YtmExecutor.JsonFile
import YtmExecutor.ResultLedger
import YtmExecutor.Python.JsonFlat

namespace YtmExecutor

open Python Decimal Interaction Prog Relation

section Reload

variable [Runtime]

/-! ### Amounts under dates -/

/-- Texts under dates, as they stand in the file. -/
def textEntries (texts : List (String × String)) : Dict :=
  texts.map fun field => (.str field.1, .str field.2)

omit [Runtime] in
theorem amountEntries_texts {ctx : Context} {amounts : List (String × Number)} {entries : Dict}
    (h : amountEntries ctx amounts = .ok entries) :
    ∃ texts, entries = textEntries texts ∧ texts.map Prod.fst = amounts.map Prod.fst := by
  induction amounts generalizing entries with
  | nil => exact ⟨[], (Except.ok.inj h).symm, rfl⟩
  | cons entry rest ih =>
      obtain ⟨date, amount⟩ := entry
      obtain ⟨text, _, h⟩ := bind_eq_ok.mp h
      obtain ⟨entries', hrest, h⟩ := bind_eq_ok.mp h
      obtain ⟨texts, rfl, hdates⟩ := ih hrest
      refine ⟨(date, text) :: texts, (Except.ok.inj h).symm, ?_⟩
      rw [List.map_cons, List.map_cons, hdates]

/-- The dates are the keys. -/
theorem readAmounts_dates {fieldName : String} {entries : Dict} {amounts : List (String × Number)}
    (h : readAmounts fieldName entries = .ok amounts) :
    entries.map Prod.fst = (amounts.map Prod.fst).map Key.str := by
  induction entries generalizing amounts with
  | nil =>
      rw [← Except.ok.inj h]
      rfl
  | cons entry rest ih =>
      obtain ⟨key, v⟩ := entry
      cases key with
      | str date =>
          obtain ⟨amount, _, h⟩ := bind_eq_ok.mp h
          obtain ⟨amounts', hrest, h⟩ := bind_eq_ok.mp h
          rw [← Except.ok.inj h, List.map_cons, List.map_cons, List.map_cons, ih hrest]
      | int | float | bool | none => cases h

theorem readAmounts_cons {fieldName date : String} {v : Value} {rest : Dict}
    {amounts : List (String × Number)} :
    readAmounts fieldName ((.str date, v) :: rest) = .ok amounts ↔
      ∃ amount amounts', nonNegativeDecimal v (fieldName ++ "." ++ date) = .ok amount ∧
        readAmounts fieldName rest = .ok amounts' ∧
        (date, .finite amount) :: amounts' = amounts := by
  constructor
  · intro h
    obtain ⟨amount, hamount, h⟩ := bind_eq_ok.mp h
    obtain ⟨amounts', hrest, h⟩ := bind_eq_ok.mp h
    exact ⟨amount, amounts', hamount, hrest, Except.ok.inj h⟩
  · rintro ⟨amount, amounts', hamount, hrest, rfl⟩
    exact bind_eq_ok.mpr ⟨amount, hamount, bind_eq_ok.mpr ⟨amounts', hrest, rfl⟩⟩

/-- The order of the dates does not matter to a reader. -/
theorem readAmounts_perm {fieldName : String} {texts texts' : List (String × String)}
    (hperm : texts'.Perm texts) {amounts' : List (String × Number)}
    (h : readAmounts fieldName (textEntries texts') = .ok amounts') :
    ∃ amounts, readAmounts fieldName (textEntries texts) = .ok amounts ∧ amounts'.Perm amounts := by
  induction hperm generalizing amounts' with
  | nil => exact ⟨amounts', h, List.Perm.refl _⟩
  | @cons field _ _ _ ih =>
      obtain ⟨amount, rest', hamount, hrest', rfl⟩ := readAmounts_cons.mp h
      obtain ⟨rest, hrest, hsame⟩ := ih hrest'
      exact ⟨_, readAmounts_cons.mpr ⟨amount, rest, hamount, hrest, rfl⟩, hsame.cons _⟩
  | swap field field' texts =>
      obtain ⟨amount', rest', hamount', hrest', rfl⟩ := readAmounts_cons.mp h
      obtain ⟨amount, rest, hamount, hrest, rfl⟩ := readAmounts_cons.mp hrest'
      exact ⟨_, readAmounts_cons.mpr ⟨amount, _, hamount,
        readAmounts_cons.mpr ⟨amount', rest, hamount', hrest, rfl⟩, rfl⟩, List.Perm.swap _ _ _⟩
  | trans _ _ ih ih' =>
      obtain ⟨_, hbetween, hsame⟩ := ih h
      obtain ⟨amounts, hamounts, hsame'⟩ := ih' hbetween
      exact ⟨amounts, hamounts, hsame.trans hsame'⟩

/-! ### A state, written and read back -/

/-- Two states with the same amounts under each date. -/
structure SameState (state state' : RiskState) : Prop where
  losses : state'.realizedLossByDate.Perm state.realizedLossByDate
  dailyEquity : state'.dailyEquityOpenByDate.Perm state.dailyEquityOpenByDate
  initialEquity : state'.initialEquity = state.initialEquity
  currentEquity : state'.currentEquity = state.currentEquity

/-- Each date once. -/
structure DatesOnce (state : RiskState) : Prop where
  losses : (state.realizedLossByDate.map Prod.fst).Nodup
  dailyEquity : (state.dailyEquityOpenByDate.map Prod.fst).Nodup

omit [Runtime] in
theorem isJson_textEntries {texts : List (String × String)} (h : (texts.map Prod.fst).Nodup) :
    IsJson (.dict (textEntries texts)) := by
  refine ⟨?_, entriesAreJson_iff.mpr fun entry hentry => ?_⟩
  · have hkeys : (textEntries texts).map Prod.fst = (texts.map Prod.fst).map Key.str := by
      rw [textEntries, List.map_map, List.map_map]
      rfl
    rw [hkeys]
    exact h.map fun _ _ => Key.str.inj
  · obtain ⟨field, _, rfl⟩ := List.mem_map.mp hentry
    exact ⟨rfl, trivial⟩

/-- A number as it is written: a text, or nothing. -/
def IsNumberText (v : Value) : Prop := v = .none ∨ ∃ text : String, v = .str text

omit [Runtime] in
theorem numberValue_isNumberText {ctx : Context} {equity : Option Number} {v : Value}
    (h : numberValue ctx equity = .ok v) : IsNumberText v := by
  cases equity with
  | none => exact Or.inl (Except.ok.inj h).symm
  | some n =>
      obtain ⟨text, _, h⟩ := bind_eq_ok.mp h
      exact Or.inr ⟨text, (Except.ok.inj h).symm⟩

omit [Runtime] in
theorem loads_numberText {v : Value} (h : IsNumberText v) {j : Json} (hj : dumps v = .ok j) :
    loads j = v := by
  rcases h with rfl | ⟨text, rfl⟩ <;> cases hj <;> rfl

omit [Runtime] in
theorem loads_textEntries {texts : List (String × String)} (h : (texts.map Prod.fst).Nodup)
    {j : Json} (hj : dumps (.dict (textEntries texts)) = .ok j) :
    loads j = .dict (textEntries (sortTexts texts)) := by
  obtain ⟨j', hj', _, hloads⟩ := reload_spec (isJson_textEntries h)
  rw [hj] at hj'
  rw [Except.ok.inj hj', hloads, textEntries, reload_unsorted h]
  rfl

omit [Runtime] in
/-- What is found under a key of a file. -/
theorem get?_reload_of_loads {entries : Dict} (hjson : IsJson (.dict entries)) {key : String}
    {v back : Value} (hv : Dict.get? entries key = some v)
    (hback : ∀ j, dumps v = .ok j → loads j = back) :
    Dict.get? (reload entries) key = some back := by
  rcases get?_reload hjson key with ⟨hnone, _⟩ | ⟨v', j, hv', hj, hreload⟩
  · rw [hv] at hnone
    cases hnone
  · rw [hv] at hv'
    cases hv'
    rw [hreload, hback j hj]

theorem readRiskState_dict {payload : Dict} {state : RiskState} :
    readRiskState (some (.dict payload)) = .ok state ↔
      rejectSecretFields [] (.dict payload) = .ok () ∧
      readAmountsField payload "realizedLossByDate" = .ok state.realizedLossByDate ∧
      readAmountsField payload "dailyEquityOpenByDate" = .ok state.dailyEquityOpenByDate ∧
      optionalPositive (Dict.get payload "initialEquity") "initialEquity" =
        .ok state.initialEquity ∧
      optionalPositive (Dict.get payload "currentEquity") "currentEquity" =
        .ok state.currentEquity := by
  rw [readRiskState]
  constructor
  · intro h
    obtain ⟨_, hguard, h⟩ := bind_eq_ok.mp h
    obtain ⟨losses, hlosses, h⟩ := bind_eq_ok.mp h
    obtain ⟨daily, hdaily, h⟩ := bind_eq_ok.mp h
    obtain ⟨initial, hinitial, h⟩ := bind_eq_ok.mp h
    obtain ⟨current, hcurrent, h⟩ := bind_eq_ok.mp h
    rw [← Except.ok.inj h]
    exact ⟨hguard, hlosses, hdaily, hinitial, hcurrent⟩
  · rintro ⟨hguard, hlosses, hdaily, hinitial, hcurrent⟩
    refine bind_eq_ok.mpr ⟨(), hguard, ?_⟩
    refine bind_eq_ok.mpr ⟨_, hlosses, ?_⟩
    refine bind_eq_ok.mpr ⟨_, hdaily, ?_⟩
    refine bind_eq_ok.mpr ⟨_, hinitial, ?_⟩
    exact bind_eq_ok.mpr ⟨_, hcurrent, rfl⟩

theorem readAmountsField_of_get? {payload amounts : Dict} {fieldName : String}
    (h : Dict.get? payload fieldName = some (.dict amounts)) :
    readAmountsField payload fieldName = readAmounts fieldName amounts := by
  rw [readAmountsField, h]
  rfl

/-- The content of a file that a state was written to. -/
structure IsStateContent (content : Value) : Prop where
  shape : ∃ current initial daily losses, IsNumberText current ∧ IsNumberText initial ∧
    (daily.map Prod.fst).Nodup ∧ (losses.map Prod.fst).Nodup ∧
    content = .dict (stateContent current (textEntries daily) initial (textEntries losses))
  guard : rejectSecretFields [] content = .ok ()

theorem IsStateContent.isJson {content : Value} (h : IsStateContent content) : IsJson content := by
  obtain ⟨current, initial, daily, losses, hcurrent, hinitial, hdaily, hlosses, rfl⟩ := h.shape
  have hscalar {v : Value} (h : IsNumberText v) : IsJson v := by
    rcases h with rfl | ⟨text, rfl⟩ <;> trivial
  exact ⟨show List.Nodup [Key.str "currentEquity", .str "dailyEquityOpenByDate",
      .str "initialEquity", .str "realizedLossByDate", .str "version"] by decide,
    rfl, hscalar hcurrent, rfl, isJson_textEntries hdaily, rfl, hscalar hinitial, rfl,
    isJson_textEntries hlosses, rfl, trivial, trivial⟩

theorem IsStateContent.allFloats {content : Value} (h : IsStateContent content)
    (P : String → Prop) : content.AllFloats P := by
  obtain ⟨current, initial, daily, losses, hcurrent, hinitial, _, _, rfl⟩ := h.shape
  have hscalar {v : Value} (h : IsNumberText v) : v.AllFloats P := by
    rcases h with rfl | ⟨text, rfl⟩ <;> trivial
  have htexts (texts : List (String × String)) : (Value.dict (textEntries texts)).AllFloats P := by
    refine Value.entriesAllFloats_iff.mpr fun entry hentry => ?_
    obtain ⟨field, _, rfl⟩ := List.mem_map.mp hentry
    trivial
  exact ⟨hscalar hcurrent, htexts daily, hscalar hinitial, htexts losses, trivial, trivial⟩

/-- **What is read back of a written state** is the state, its dates in another order. -/
theorem IsStateContent.reload {content : Value} (h : IsStateContent content) {j : Json}
    (hj : dumps content = .ok j) {state' : RiskState}
    (hread : readRiskState (some (loads j)) = .ok state') :
    ∃ state, readRiskState (some content) = .ok state ∧ SameState state state' := by
  have hjson := h.isJson
  have hguard := h.guard
  obtain ⟨current, initial, daily, losses, hcurrent, hinitial, hdaily, hlosses, rfl⟩ := h.shape
  obtain ⟨j', hj', _, hloads⟩ := reload_spec hjson
  rw [hj] at hj'
  rw [Except.ok.inj hj', hloads] at hread
  obtain ⟨_, hlosses', hdaily', hinitial', hcurrent'⟩ := readRiskState_dict.mp hread
  rw [readAmountsField_of_get? (get?_reload_of_loads hjson rfl fun j => loads_textEntries hlosses)]
    at hlosses'
  rw [readAmountsField_of_get? (get?_reload_of_loads hjson rfl fun j => loads_textEntries hdaily)]
    at hdaily'
  rw [Dict.get, get?_reload_of_loads hjson rfl fun j => loads_numberText hinitial] at hinitial'
  rw [Dict.get, get?_reload_of_loads hjson rfl fun j => loads_numberText hcurrent] at hcurrent'
  obtain ⟨losses', hreadLosses, hsameLosses⟩ := readAmounts_perm (sortTexts_perm losses) hlosses'
  obtain ⟨daily', hreadDaily, hsameDaily⟩ := readAmounts_perm (sortTexts_perm daily) hdaily'
  exact ⟨⟨losses', daily', state'.initialEquity, state'.currentEquity⟩,
    (readRiskState_stateContent hguard).mpr ⟨hreadLosses, hreadDaily, hinitial', hcurrent'⟩,
    hsameLosses, hsameDaily, rfl, rfl⟩

/-! ### Each date once -/

omit [Runtime] in
theorem ByDate.put_eq_setField (amounts : List (String × Number)) (date : String)
    (amount : Number) : ByDate.put amounts date amount = setField amounts date amount := by
  induction amounts with
  | nil => rfl
  | cons entry rest ih =>
      obtain ⟨d, a⟩ := entry
      rw [ByDate.put, setField, ih]

theorem datesOnce_readAmountsField {payload : Dict} {fieldName : String}
    {amounts : List (String × Number)} (hjson : IsJson (.dict payload))
    (h : readAmountsField payload fieldName = .ok amounts) : (amounts.map Prod.fst).Nodup := by
  have hnodup : ∀ entries, IsJson (.dict entries) → readAmounts fieldName entries = .ok amounts →
      (amounts.map Prod.fst).Nodup := by
    intro entries hentries hread
    have hkeys := hentries.1
    rw [readAmounts_dates hread] at hkeys
    exact hkeys.of_map _
  unfold readAmountsField at h
  cases hget : Dict.get? payload fieldName with
  | none =>
      rw [hget] at h
      exact hnodup [] ⟨List.nodup_nil, trivial⟩ h
  | some v =>
      rw [hget, Option.getD_some] at h
      cases v with
      | dict entries => exact hnodup entries (hjson.of_get? hget) h
      | none | bool | int | float | str | list | tuple => cases h

theorem datesOnce_read {file : Option Value} {state : RiskState} (hjson : ∀ v ∈ file, IsJson v)
    (h : readRiskState file = .ok state) : DatesOnce state := by
  cases file with
  | none =>
      rw [← Except.ok.inj h]
      exact ⟨List.nodup_nil, List.nodup_nil⟩
  | some v =>
      cases v with
      | dict payload =>
          obtain ⟨_, hlosses, hdaily, _⟩ := readRiskState_dict.mp h
          exact ⟨datesOnce_readAmountsField (hjson _ rfl) hlosses,
            datesOnce_readAmountsField (hjson _ rfl) hdaily⟩
      | none | bool | int | float | str | list | tuple => cases h

omit [Runtime] in
theorem datesOnce_next {ctx : Context} {state next : RiskState} {today : String}
    {equity : Option Finite} (h : DatesOnce state)
    (hnext : nextRiskState ctx state today equity = .ok next) : DatesOnce next := by
  cases equity with
  | none =>
      rw [← Except.ok.inj hnext]
      exact ⟨h.losses, h.dailyEquity⟩
  | some amount =>
      obtain ⟨loss, _, hnext⟩ := bind_eq_ok.mp hnext
      rw [← Except.ok.inj hnext]
      refine ⟨?_, ?_⟩
      · show ((ByDate.put state.realizedLossByDate today loss).map Prod.fst).Nodup
        rw [ByDate.put_eq_setField]
        exact setField_keys_nodup h.losses
      · show ((ByDate.setDefault state.dailyEquityOpenByDate today _).map Prod.fst).Nodup
        unfold ByDate.setDefault
        split
        · exact h.dailyEquity
        · rw [ByDate.put_eq_setField]
          exact setField_keys_nodup h.dailyEquity

/-! ### An update of the tree in the file -/

omit [Runtime] in
theorem SameState.follows {seen : List (String × Finite)} {state state' : RiskState}
    (hsame : SameState state state') (honce : DatesOnce state) (h : Follows seen state) :
    Follows seen state' where
  storable := {
    losses := fun entry hentry => h.storable.losses entry (hsame.losses.mem_iff.mp hentry)
    dailyEquity := fun entry hentry =>
      h.storable.dailyEquity entry (hsame.dailyEquity.mem_iff.mp hentry)
    initialEquity := hsame.initialEquity ▸ h.storable.initialEquity
    currentEquity := hsame.currentEquity ▸ h.storable.currentEquity }
  held := h.held
  initial := hsame.initialEquity.trans h.initial
  current := fun e he => hsame.currentEquity.trans (h.current e he)
  opening := fun date => by rw [lookup_perm honce.dailyEquity hsame.dailyEquity, h.opening]
  loss := fun date e he => by
    rw [lookup_perm honce.losses hsame.losses]
    exact h.loss date e he

/-- What an update writes is the content of a written state. -/
theorem isStateContent_of_update {file : Option Value} {snapshot : Dict} {now : Instant}
    {next : RiskState} {content : Value} (hjson : ∀ v ∈ file, IsJson v)
    (h : updateRiskStateFromReconciliationSnapshot defaultContext file snapshot now =
      .ok (next, content)) : IsStateContent content := by
  obtain ⟨state, equity, hread, _, hnext, hwrite⟩ := update_eq_ok.mp h
  have honce : DatesOnce next := datesOnce_next (datesOnce_read hjson hread) hnext
  obtain ⟨current, _, initial, _, hwritten, rfl⟩ := writeRiskState_eq_ok.mp hwrite
  obtain ⟨daily, rfl, hdaily⟩ := amountEntries_texts hwritten.dailyEquity
  obtain ⟨losses, rfl, hlosses⟩ := amountEntries_texts hwritten.realizedLoss
  exact ⟨⟨current, initial, daily, losses, numberValue_isNumberText hwritten.currentEquity,
    numberValue_isNumberText hwritten.initialEquity, hdaily ▸ honce.dailyEquity,
    hlosses ▸ honce.losses, rfl⟩, hwritten.guard⟩

/-- A file that tracks a run tracks it when it is read back. -/
theorem Tracks.reload {seen : List (String × Finite)} {content : Value} {j : Json}
    (h : Tracks seen (some content)) (hcontent : IsStateContent content)
    (hj : dumps content = .ok j) : Tracks seen (some (loads j)) := by
  intro state' hstate'
  obtain ⟨state, hstate, hsame⟩ := hcontent.reload hj hstate'
  have honce : DatesOnce state := datesOnce_read (by rintro v ⟨⟩; exact hcontent.isJson) hstate
  exact hsame.follows honce (h state hstate)

end Reload

section Threads

variable [Runtime]

/-- The tree an update writes for a snapshot and the time it was captured, unless it raises. -/
def updateTree (s : Instant × Dict) (tree : Option Json) : Option Json :=
  (updateRiskStateFromReconciliationSnapshot defaultContext (tree.map loads) s.2 s.1
    >>= fun next => dumps next.2).toOption

/-- The tree after whole updates, one after the other. -/
def treeAfter (done : List (Instant × Dict)) : Option Json :=
  done.foldl (FileRegister.advance updateTree) none

omit [Runtime] in
theorem isJson_of_tree (tree : Option Json) : ∀ v ∈ tree.map loads, IsJson v := by
  intro v hv
  obtain ⟨j, _, rfl⟩ := Option.map_eq_some_iff.mp hv
  exact isJson_loads j

theorem updateTree_eq_some {s : Instant × Dict} {tree : Option Json} {j : Json} :
    updateTree s tree = some j ↔ ∃ next content,
      updateRiskStateFromReconciliationSnapshot defaultContext (tree.map loads) s.2 s.1 =
        .ok (next, content) ∧ dumps content = .ok j := by
  rw [updateTree, toOption_eq_some, bind_eq_ok]
  exact Prod.exists

/-- **One update of the tree.** -/
theorem tracks_advance {seen : List (String × Finite)} {tree : Option Json} {s : Instant × Dict}
    (h : Tracks seen (tree.map loads)) (hfolds : FoldsIn s.2) :
    Tracks (seen ++ equitiesSeen [s]) ((FileRegister.advance updateTree tree s).map loads) := by
  have hstep := h.fileStep hfolds
  unfold fileStep at hstep
  cases hupdate : updateRiskStateFromReconciliationSnapshot defaultContext (tree.map loads) s.2
      s.1 with
  | error e =>
      have hnone : updateTree s tree = none := by rw [updateTree, hupdate]; rfl
      rw [hupdate] at hstep
      rw [FileRegister.advance, hnone]
      exact hstep
  | ok result =>
      obtain ⟨next, content⟩ := result
      have hcontent := isStateContent_of_update (isJson_of_tree tree) hupdate
      obtain ⟨j, hj, _⟩ := exists_dumps hcontent.isJson
      rw [hupdate] at hstep
      rw [FileRegister.advance, updateTree_eq_some.mpr ⟨next, content, hupdate, hj⟩]
      exact hstep.reload hcontent hj

/-- Where all snapshots can be folded in, the tree tracks their equities. -/
theorem tracks_treeAfter {done : List (Instant × Dict)} (hfolds : ∀ s ∈ done, FoldsIn s.2) :
    Tracks (equitiesSeen done) ((treeAfter done).map loads) := by
  induction done using List.reverseRecOn with
  | nil => exact tracks_none
  | append_singleton done s ih =>
      have hdone := ih fun s hs => hfolds s (List.mem_append_left _ hs)
      have hsplit : equitiesSeen (done ++ [s]) = equitiesSeen done ++ equitiesSeen [s] :=
        List.filterMap_append
      rw [hsplit, treeAfter, List.foldl_concat]
      exact tracks_advance hdone (hfolds s (List.mem_append_right _ (List.mem_singleton_self s)))

/-! ### The file between the threads -/

variable [Json.FloatRepr]

/-- The file of the risk state, and the thread that folds snapshots into it. -/
abbrev RiskFile := FileRegister.State Char (Instant × Dict)

/-- The executor was killed in the middle, and another one was started, or it goes on. -/
def RiskFile.Step : RiskFile → RiskFile → Prop :=
  FileRegister.Step jsonCodec (FileRegister.readFirst updateTree)

/-- `read_risk_state` of the file as it is at this moment. -/
def readRiskStateText (file : Option (List Char)) : Except PyError RiskState := do
  readRiskState ((← ExecutionStore.decode file).map loads)

theorem valid_updateTree {s : Instant × Dict} {old : Option Json} {j : Json}
    (h : updateTree s old = some j) : jsonCodec.Valid j := by
  obtain ⟨next, content, hupdate, hj⟩ := updateTree_eq_some.mp h
  have hcontent := isStateContent_of_update (isJson_of_tree old) hupdate
  refine ⟨?_, allFloats_dumps hj (hcontent.allFloats _)⟩
  obtain ⟨_, _, _, _, _, _, _, _, rfl⟩ := hcontent.shape
  obtain ⟨fields, rfl⟩ := exists_object_of_dumps hj
  trivial

theorem keepsValid_updateTree :
    FileRegister.KeepsValid jsonCodec (FileRegister.readFirst updateTree) := by
  intro s old j _ hj
  obtain ⟨tree, _, hj⟩ := Option.bind_eq_some_iff.mp hj
  exact valid_updateTree hj

theorem readRiskStateText_of_decode {file : Option (List Char)} {tree : Option Json}
    {state : RiskState} (htree : ExecutionStore.decode file = .ok tree)
    (hstate : readRiskState (tree.map loads) = .ok state) :
    readRiskStateText file = .ok state := by
  rw [readRiskStateText, htree]
  exact hstate

/-- **What the other thread reads**, whenever it reads: the state that whole updates come to, some
of those begun, in their order, and all those among them that came to an end; and what it
reads later is what these and more of them come to. -/
theorem reads_whole_updates {s₁ s₂ : RiskFile} {state₁ state₂ : RiskState}
    (h₁ : ReflTransGen RiskFile.Step (FileRegister.initial none) s₁)
    (h₂ : ReflTransGen RiskFile.Step s₁ s₂) (hread₁ : readRiskStateText s₁.file = .ok state₁)
    (hread₂ : readRiskStateText s₂.file = .ok state₂) :
    ∃ done later, FileRegister.Between s₁.finished done s₁.begun ∧
      FileRegister.Between s₂.finished (done ++ later) s₂.begun ∧
      readRiskState ((treeAfter done).map loads) = .ok state₁ ∧
      readRiskState ((treeAfter (done ++ later)).map loads) = .ok state₂ := by
  obtain ⟨tree₁, htree₁, hstate₁⟩ := bind_eq_ok.mp hread₁
  obtain ⟨tree₂, htree₂, hstate₂⟩ := bind_eq_ok.mp hread₂
  obtain ⟨done, later, hdone, hlater, rfl, rfl⟩ := FileRegister.reads_of_run
    keepsValid_updateTree (v := none) (by simp) rfl h₁ h₂ (read_of_decode htree₁)
    (read_of_decode htree₂)
  refine ⟨done, later, hdone, hlater, hstate₁, ?_⟩
  rw [treeAfter, List.foldl_append]
  exact hstate₂

/-- Where every snapshot can be folded in, the state follows the equities of these updates. -/
theorem exists_follows {s : RiskFile} {state : RiskState}
    (h : ReflTransGen RiskFile.Step (FileRegister.initial none) s)
    (hfolds : ∀ i ∈ s.begun, FoldsIn i.2) (hread : readRiskStateText s.file = .ok state) :
    ∃ done, FileRegister.Between s.finished done s.begun ∧ Follows (equitiesSeen done) state := by
  obtain ⟨tree, htree, hstate⟩ := bind_eq_ok.mp hread
  obtain ⟨done, _, hdone, _, rfl, _⟩ := FileRegister.reads_of_run keepsValid_updateTree (v := none)
    (by simp) rfl h ReflTransGen.refl (read_of_decode htree) (read_of_decode htree)
  exact ⟨done, hdone,
    tracks_treeAfter (fun i hi => hfolds i (hdone.begun.subset hi)) state hstate⟩

/-- **A process that dies while it writes** the state leaves a file that raises in every
reader, and that no update ever repairs. -/
theorem risk_state_lost {s s' : RiskFile} {i : Instant × Dict}
    {todo : List (FileRegister.Write Char)} {c : Char}
    (hrun : ReflTransGen RiskFile.Step (FileRegister.initial none) s)
    (hwriter : s.writer = some (i, todo)) (hwrite : .write c ∈ todo) (htruncate : .truncate ∉ todo)
    (hrun' : ReflTransGen RiskFile.Step { s with writer := none } s') :
    s'.file = s.file ∧ ∃ e, readRiskStateText s'.file = .error e := by
  obtain ⟨hsame, htorn⟩ := FileRegister.torn_by_crash keepsValid_updateTree (v := none)
    (by simp) rfl hrun hwriter hwrite htruncate hrun'
  refine ⟨by rw [hsame], ?_⟩
  cases hdecode : ExecutionStore.decode s'.file with
  | error e => exact ⟨e, by rw [readRiskStateText, hdecode]; rfl⟩
  | ok tree =>
      rw [read_of_decode hdecode] at htorn
      cases htorn

end Threads

/-! ### The command thread -/

section Commands

variable [Runtime] [BinanceSdk]

/-- The policies of a turn: the one it begins with, and the one it reads before an order. -/
def PolicyOfTurn (inputs : LocalInputs) (policy : RiskPolicy) : Prop :=
  inputs.riskPolicy = .ok policy ∨ inputs.finalRiskPolicy = .ok policy

/-- A preflight that changes something at OKX has passed the risk evaluation twice. -/
theorem riskPassed_of_change {ctx : Context} {item : Dict} {inputs : LocalInputs}
    {preflight : PreflightInputs} {c : Call} (hpreflight : preflightInputs inputs = .ok preflight)
    (hmakes : Makes (preflightCommand ctx item preflight) c) (hchange : ChangesOkx c) :
    ∃ command state first final, readRiskState inputs.riskStateFile = .ok state ∧
      inputs.riskPolicy = .ok first ∧ inputs.finalRiskPolicy = .ok final ∧
      RiskPassed ctx command .real first state inputs.now ∧
      RiskPassed ctx command .real final state inputs.now := by
  obtain ⟨first, hfirst, hpreflight⟩ := bind_eq_ok.mp hpreflight
  obtain ⟨credentials, _, hpreflight⟩ := bind_eq_ok.mp hpreflight
  obtain ⟨state, hstate, hpreflight⟩ := bind_eq_ok.mp hpreflight
  obtain ⟨validations, _, hpreflight⟩ := bind_eq_ok.mp hpreflight
  obtain rfl := Except.ok.inj hpreflight
  unfold preflightCommand at hmakes
  split at hmakes
  · rename_i cleared hcleared
    have hgates := preflightGates_eq_ok.mp hcleared
    obtain ⟨_, hadapter⟩ := placement_of_change hmakes hchange
    obtain ⟨hname, _, hmode, _⟩ := adapter_chosen hadapter
    have hreal : adapterName cleared.command ∈ realOrderAdapters := by
      rw [hname]
      exact List.mem_singleton.mpr rfl
    have hrisk := hgates.risk
    obtain ⟨policy, hpolicy, hfinalRisk⟩ := hgates.finalRisk hmode hreal
    obtain ⟨final, rfl, hfinalRisk⟩ := hfinalRisk.policy_some
    rw [hmode] at hrisk hfinalRisk
    obtain hloader | ⟨hloader, _⟩ := endsWith_of_finalPolicy hpolicy
    · exact ⟨cleared.command, state, first, final, hstate, hfirst, Option.some.inj hloader, hrisk,
        hfinalRisk⟩
    · cases hloader
  · exact absurd hmakes not_makes_done
  · exact absurd hmakes not_makes_raise

/-- Of a turn, only the preflight asks a broker for anything. -/
theorem preflight_of_brokerCall {session : Session} {ctx : Context} {leaseResponse : Dict}
    {inputs : LocalInputs} {c : Call}
    (hmakes : Makes (processLeaseResponse session ctx leaseResponse inputs) c)
    (hbroker : IsBrokerCall c) :
    ∃ item preflight, leaseResponse.get "item" = .dict item ∧
      preflightInputs inputs = .ok preflight ∧ Makes (preflightCommand ctx item preflight) c := by
  let Q (c : Call) : Prop := IsBrokerCall c → ∃ item preflight,
    leaseResponse.get "item" = .dict item ∧ preflightInputs inputs = .ok preflight ∧
      Makes (preflightCommand ctx item preflight) c
  have hturn : CallsOnly Q (processLeaseResponse session ctx leaseResponse inputs) := by
    refine processLeaseResponse_callsOnly False.elim (fun _ => False.elim)
      (fun _ _ => recordPreflightDecision_callsOnly fun _ _ _ => False.elim) ?_
    intro item preflight hitem hpreflight
    exact CallsOnly.of_makes fun c hc _ => ⟨item, preflight, hitem, hpreflight, hc⟩
  exact hturn.makes hmakes hbroker

variable [Json.FloatRepr]

/-- A turn finds the file as it is at some moment, and can parse it. -/
def Finds (inputs : LocalInputs) (s : RiskFile) : Prop :=
  ∃ tree, ExecutionStore.decode s.file = .ok tree ∧ inputs.riskStateFile = tree.map loads

/-- **The stops hold between the threads.**  Wherever the other thread stands when a turn
reads the risk state, and however often it has died before, a turn that changes something
at OKX is below the limits of both its policies at the equities of the updates made. -/
theorem change_below_limits {session : Session} {leaseResponse : Dict} {inputs : LocalInputs}
    {s : RiskFile} {c : Call}
    (hrun : ReflTransGen RiskFile.Step (FileRegister.initial none) s)
    (hfolds : ∀ i ∈ s.begun, FoldsIn i.2) (hfinds : Finds inputs s)
    (hmakes : Makes (processLeaseResponse session defaultContext leaseResponse inputs) c)
    (hchange : ChangesOkx c) :
    ∃ done, FileRegister.Between s.finished done s.begun ∧
      ∀ policy, PolicyOfTurn inputs policy → LimitsHeld policy →
        BelowLimits policy (equitiesSeen done) (utcDate inputs.now) := by
  have hbroker : IsBrokerCall c := by
    obtain ⟨keys, op, rfl, _⟩ := hchange
    trivial
  obtain ⟨item, preflight, _, hpreflight, hmakes⟩ := preflight_of_brokerCall hmakes hbroker
  obtain ⟨command, state, first, final, hstate, hfirst, hfinal, hrisk, hfinalRisk⟩ :=
    riskPassed_of_change hpreflight hmakes hchange
  obtain ⟨tree, htree, hfile⟩ := hfinds
  have hread : readRiskStateText s.file = .ok state :=
    readRiskStateText_of_decode htree (hfile ▸ hstate)
  obtain ⟨done, hdone, hfollows⟩ := exists_follows hrun hfolds hread
  refine ⟨done, hdone, ?_⟩
  rintro policy (hpolicy | hpolicy) hlimits
  · rw [hfirst] at hpolicy
    rw [← Except.ok.inj hpolicy] at hlimits ⊢
    exact hfollows.belowLimits hlimits hrisk.dailyLoss hrisk.totalDrawdown
  · rw [hfinal] at hpolicy
    rw [← Except.ok.inj hpolicy] at hlimits ⊢
    exact hfollows.belowLimits hlimits hfinalRisk.dailyLoss hfinalRisk.totalDrawdown

end Commands

/-! ### Two updates and a command -/

namespace Sample

def firstFolding : Instant × Dict := (now, snapshot "1000")

def nextFolding : Instant × Dict := (now + 60000000, snapshot "950")

theorem foldsIn_foldings : ∀ s ∈ [firstFolding, nextFolding], @FoldsIn runtime s.2 := by
  intro s hs
  simp only [List.mem_cons, List.not_mem_nil, or_false] at hs
  rcases hs with rfl | rfl
  · exact foldsIn_snapshot (n := 1000) (by decide +kernel) (by norm_num) (by decide +kernel)
  · exact foldsIn_snapshot (n := 950) (by decide +kernel) (by norm_num) (by decide +kernel)

/-- The tree after the first update, and after both. -/
def firstTree : Option Json := @updateTree runtime firstFolding none

def nextTree : Option Json := @updateTree runtime nextFolding firstTree

/-- The file that holds such a tree, after these updates. -/
def riskFile (tree : Option Json) (done : List (Instant × Dict)) : RiskFile :=
  ⟨tree.map (@jsonCodec ExecutionStore.Sample.floatRepr).encode, none, done, done⟩

theorem riskFile_runs :
    ReflTransGen (@RiskFile.Step runtime ExecutionStore.Sample.floatRepr)
        (FileRegister.initial none) (riskFile firstTree [firstFolding]) ∧
      ReflTransGen (@RiskFile.Step runtime ExecutionStore.Sample.floatRepr)
        (riskFile firstTree [firstFolding]) (riskFile nextTree [firstFolding, nextFolding]) ∧
      (∀ j ∈ firstTree, (@jsonCodec ExecutionStore.Sample.floatRepr).Valid j) ∧
      ∀ j ∈ nextTree, (@jsonCodec ExecutionStore.Sample.floatRepr).Valid j := by
  let _ : Runtime := runtime
  let _ : Json.FloatRepr := ExecutionStore.Sample.floatRepr
  obtain ⟨j₁, h₁⟩ : ∃ j, firstTree = some j := Option.isSome_iff_exists.mp (by decide +kernel)
  obtain ⟨j₂, h₂⟩ : ∃ j, nextTree = some j := Option.isSome_iff_exists.mp (by decide +kernel)
  have hvalid₁ : jsonCodec.Valid j₁ := valid_updateTree h₁
  have hread : FileRegister.read jsonCodec (some (jsonCodec.encode j₁)) = some firstTree := by
    rw [h₁]
    exact FileRegister.read_whole hvalid₁
  refine ⟨?_, ?_, ?_, ?_⟩
  · rw [h₁]
    exact FileRegister.run_update (s := FileRegister.initial none) rfl h₁
  · rw [h₁, h₂]
    refine FileRegister.run_update (s := riskFile (some j₁) [firstFolding]) rfl ?_
    exact (congrArg (fun answer => answer.bind (updateTree nextFolding)) hread).trans h₂
  · intro j hj
    exact valid_updateTree (s := firstFolding) hj
  · intro j hj
    exact valid_updateTree (s := nextFolding) hj

/-- The turn that reads the file after both updates. -/
def lateInputs : LocalInputs := { localInputs with riskStateFile := nextTree.map loads }

end Sample

theorem reads_whole_updates_sample : let _ : Runtime := Sample.runtime
    let _ : Json.FloatRepr := ExecutionStore.Sample.floatRepr
    ∃ s₁ s₂ state₁ state₂, ReflTransGen RiskFile.Step (FileRegister.initial none) s₁ ∧
      ReflTransGen RiskFile.Step s₁ s₂ ∧ readRiskStateText s₁.file = .ok state₁ ∧
      readRiskStateText s₂.file = .ok state₂ ∧
      ∃ done later, FileRegister.Between s₁.finished done s₁.begun ∧
        FileRegister.Between s₂.finished (done ++ later) s₂.begun ∧
        readRiskState ((treeAfter done).map loads) = .ok state₁ ∧
        readRiskState ((treeAfter (done ++ later)).map loads) = .ok state₂ := by
  intro _ _
  obtain ⟨hfirst, hnext, hvalid₁, hvalid₂⟩ := Sample.riskFile_runs
  obtain ⟨state₁, hstate₁, _⟩ := exists_ok (readRiskState (Sample.firstTree.map loads))
    (fun _ => true) (by decide +kernel)
  obtain ⟨state₂, hstate₂, _⟩ := exists_ok (readRiskState (Sample.nextTree.map loads))
    (fun _ => true) (by decide +kernel)
  have hread₁ := readRiskStateText_of_decode
    (@decode_map_encode ExecutionStore.Sample.floatRepr _ hvalid₁) hstate₁
  have hread₂ := readRiskStateText_of_decode
    (@decode_map_encode ExecutionStore.Sample.floatRepr _ hvalid₂) hstate₂
  exact ⟨_, _, state₁, state₂, hfirst, hnext, hread₁, hread₂,
    reads_whole_updates hfirst hnext hread₁ hread₂⟩

/-- The first update, cut off after the file was emptied. -/
theorem risk_state_lost_sample : let _ : Runtime := Sample.runtime
    let _ : Json.FloatRepr := ExecutionStore.Sample.floatRepr
    ∃ (s : RiskFile) (i : Instant × Dict) (todo : List (FileRegister.Write Char)) (c : Char),
      ReflTransGen RiskFile.Step (FileRegister.initial none) s ∧ s.writer = some (i, todo) ∧
      .write c ∈ todo ∧ .truncate ∉ todo ∧
      ({ s with writer := none } : RiskFile).file = s.file ∧
      ∃ e, readRiskStateText ({ s with writer := none } : RiskFile).file = .error e := by
  intro _ _
  obtain ⟨j, hj⟩ : ∃ j, Sample.firstTree = some j :=
    Option.isSome_iff_exists.mp (by decide +kernel)
  have hvalid : jsonCodec.Valid j := valid_updateTree hj
  have hparse : Json.parse (jsonCodec.encode j) = some j := jsonCodec.decode_encode j hvalid
  cases htext : jsonCodec.encode j with
  | nil =>
      rw [htext] at hparse
      cases hparse
  | cons c cs =>
      let todo : List (FileRegister.Write Char) := (c :: cs).map .write ++ [.keep]
      let s₁ : RiskFile := ⟨none, some (Sample.firstFolding, .keep :: .truncate :: todo),
        [Sample.firstFolding], []⟩
      let s₂ : RiskFile := { s₁ with writer := some (Sample.firstFolding, .truncate :: todo) }
      let s₃ : RiskFile := { s₁ with file := some [], writer := some (Sample.firstFolding, todo) }
      have hbegin : RiskFile.Step (FileRegister.initial none) s₁ := by
        have h : RiskFile.Step (FileRegister.initial none) _ :=
          FileRegister.Step.begin (s := FileRegister.initial none) (i := Sample.firstFolding) rfl hj
        rw [htext] at h
        exact h
      have hkeep : RiskFile.Step s₁ s₂ := FileRegister.Step.write (s := s₁) rfl
      have hempty : RiskFile.Step s₂ s₃ := FileRegister.Step.write (s := s₂) rfl
      have hrun : ReflTransGen RiskFile.Step (FileRegister.initial none) s₃ :=
        ((ReflTransGen.single hbegin).tail hkeep).tail hempty
      have hwrite : FileRegister.Write.write c ∈ todo := List.mem_cons_self
      have htruncate : FileRegister.Write.truncate ∉ todo := by
        simp [todo]
      exact ⟨s₃, Sample.firstFolding, todo, c, hrun, rfl, hwrite, htruncate,
        risk_state_lost hrun rfl hwrite htruncate ReflTransGen.refl⟩

theorem change_below_limits_sample : let _ : Runtime := Sample.runtime
    let _ : Json.FloatRepr := ExecutionStore.Sample.floatRepr
    let _ : BinanceSdk := Sample.sdk
    ∃ s c, ReflTransGen RiskFile.Step (FileRegister.initial none) s ∧
      (∀ i ∈ s.begun, FoldsIn i.2) ∧ Finds Sample.lateInputs s ∧
      Makes (processLeaseResponse Sample.session defaultContext Sample.leaseResponse
        Sample.lateInputs) c ∧ ChangesOkx c ∧
      ∃ done, FileRegister.Between s.finished done s.begun ∧
        ∀ policy, PolicyOfTurn Sample.lateInputs policy → LimitsHeld policy →
          BelowLimits policy (equitiesSeen done) (utcDate Sample.lateInputs.now) := by
  intro _ _ _
  obtain ⟨hfirst, hnext, _, hvalid⟩ := Sample.riskFile_runs
  obtain ⟨keys, op, hcall, hop⟩ := stateChange_of_isSome
    (c := (feed [.ok (.dict []), Sample.accountReply, Sample.instrumentReply]
      (processLeaseResponse Sample.session defaultContext Sample.leaseResponse
        Sample.lateInputs)).next?) (by decide +kernel)
  have hmakes := makes_of_feed _ hcall
  have hchange : ChangesOkx (.okx keys op) := ⟨keys, op, rfl, hop⟩
  have hfinds : Finds Sample.lateInputs
      (Sample.riskFile Sample.nextTree [Sample.firstFolding, Sample.nextFolding]) :=
    ⟨Sample.nextTree, decode_map_encode hvalid, rfl⟩
  exact ⟨_, _, hfirst.trans hnext, Sample.foldsIn_foldings, hfinds, hmakes, hchange,
    change_below_limits (hfirst.trans hnext) Sample.foldsIn_foldings hfinds hmakes hchange⟩

end YtmExecutor
