/-
What a snapshot says of the records it was made from.

Every list of a snapshot has one entry for each record, in some order (`Lists`), and an
entry has the fields that are not blank (`get_compact`).  The close source of a fill is
the one that is inferred of a single record, the fill itself or the last one that shares
an id with it: `closing?` finds that record, and `fillCloseSource_eq` says that nothing
else matters.
-/
import YtmExecutor.Reconciliation

namespace YtmExecutor

open Python Interaction

namespace Reconciliation

section Entries

/-! ### Entries -/

/-- The fields of an entry are those of the payload that are not blank. -/
theorem get?_compact {payload : List (String × Value)} (h : (payload.map Prod.fst).Nodup)
    (key : String) :
    Dict.get? (compact payload) key = (payload.lookup key).filter fun v => !v.isNoneOrEmpty := by
  induction payload with
  | nil => rfl
  | cons field rest ih =>
      obtain ⟨k, v⟩ := field
      rw [List.map_cons, List.nodup_cons] at h
      have hrest := ih h.2
      rw [lookup_cons]
      by_cases hkey : key = k
      · subst hkey
        have hnone : rest.lookup key = none := by
          rw [List.lookup_eq_none_iff]
          intro entry hentry
          exact bne_iff_ne.mpr fun heq => h.1 (List.mem_map.mpr ⟨entry, hentry, heq.symm⟩)
        rw [hnone] at hrest
        rw [if_pos rfl]
        cases hv : v.isNoneOrEmpty with
        | true => simpa [compact, hv, Option.filter] using hrest
        | false => simp [compact, hv, Dict.get?, Option.filter]
      · rw [if_neg hkey, ← hrest]
        cases hv : v.isNoneOrEmpty with
        | true => simp [compact, hv]
        | false => simp [compact, hv, Dict.get?, Ne.symm hkey]

/-- An entry has a text under a key exactly when the payload has it there, and it is not empty. -/
theorem get_compact_eq_str_iff {payload : List (String × Value)} (h : (payload.map Prod.fst).Nodup)
    {key text : String} {v : Value} (hv : payload.lookup key = some v) :
    (compact payload).get key = .str text ↔ text ≠ "" ∧ v = .str text := by
  rw [Dict.get, get?_compact h, hv, Option.filter_some]
  cases hblank : v.isNoneOrEmpty with
  | false =>
      refine ⟨fun heq => ⟨?_, heq⟩, fun heq => heq.2⟩
      rintro rfl
      cases heq
      cases hblank
  | true =>
      refine iff_of_false (fun heq => by cases heq) ?_
      rintro ⟨htext, rfl⟩
      exact htext (of_decide_eq_true hblank)

theorem get_compact_eq_str {payload : List (String × Value)} (h : (payload.map Prod.fst).Nodup)
    {key text : String} {v : Value} (hv : payload.lookup key = some v) (htext : text ≠ "") :
    (compact payload).get key = .str text ↔ v = .str text :=
  (get_compact_eq_str_iff h hv).trans (and_iff_right htext)

variable [Runtime]

theorem publicEntries_perm {keys : List String} {items entries : List Dict}
    (h : publicEntries keys items = .ok entries) : entries.Perm items := by
  obtain ⟨_, _, h⟩ := bind_eq_ok.mp h
  cases h
  exact List.perm_insertionSort _ _

/-- The dicts of a list of the snapshot. -/
def entriesOf (snapshot : Dict) (key : String) : List Dict :=
  match snapshot.get key with
  | .list items => items.filterMap Value.dict?
  | _ => []

/-- The lists of a snapshot have one entry for each record. -/
structure Lists (records : OkxRecords) (snapshot : Dict) : Prop where
  algoOrders : (entriesOf snapshot "algoOrders").Perm (records.algoOrders.map algoOrderEntry)
  balances : (entriesOf snapshot "balances").Perm
    ((records.balances.flatMap accountDetails).map balanceEntry)
  fills : (entriesOf snapshot "fills").Perm
    (records.fills.map (fillEntry records.closeSources))
  openOrders : (entriesOf snapshot "openOrders").Perm (records.orders.map orderEntry)
  orderHistory : (entriesOf snapshot "orderHistory").Perm (records.orderHistory.map orderEntry)
  positions : (entriesOf snapshot "positions").Perm (records.positions.map positionEntry)

omit [Runtime] in
theorem entriesOf_perm {snapshot : Dict} {key : String} {entries items : List Dict}
    (hkey : snapshot.get key = .list (entries.map .dict)) (h : entries.Perm items) :
    (entriesOf snapshot key).Perm items := by
  rw [entriesOf, hkey]
  dsimp only
  rw [List.filterMap_map]
  exact (List.filterMap_some (l := entries)).symm ▸ h

theorem lists_of_snapshotOf {records : OkxRecords} {capturedAt : Instant} {snapshot : Dict}
    (h : snapshotOf records capturedAt = .ok snapshot) : Lists records snapshot := by
  obtain ⟨algoOrders, halgo, h⟩ := bind_eq_ok.mp h
  obtain ⟨balances, hbalances, h⟩ := bind_eq_ok.mp h
  obtain ⟨fills, hfills, h⟩ := bind_eq_ok.mp h
  obtain ⟨orderHistory, hhistory, h⟩ := bind_eq_ok.mp h
  obtain ⟨openOrders, horders, h⟩ := bind_eq_ok.mp h
  obtain ⟨positions, hpositions, h⟩ := bind_eq_ok.mp h
  obtain ⟨_, _, h⟩ := bind_eq_ok.mp h
  cases h
  constructor
  · exact entriesOf_perm rfl (publicEntries_perm halgo)
  · exact entriesOf_perm rfl (publicEntries_perm hbalances)
  · exact entriesOf_perm rfl (publicEntries_perm hfills)
  · exact entriesOf_perm rfl (publicEntries_perm horders)
  · exact entriesOf_perm rfl (publicEntries_perm hhistory)
  · exact entriesOf_perm rfl (publicEntries_perm hpositions)

theorem get_balances {records : OkxRecords} {capturedAt : Instant} {snapshot : Dict}
    (h : snapshotOf records capturedAt = .ok snapshot) :
    ∃ balances, sanitizeBalances records.balances = .ok balances ∧
      snapshot.get "balances" = .list (balances.map .dict) := by
  obtain ⟨_, _, h⟩ := bind_eq_ok.mp h
  obtain ⟨balances, hbalances, h⟩ := bind_eq_ok.mp h
  obtain ⟨_, _, h⟩ := bind_eq_ok.mp h
  obtain ⟨_, _, h⟩ := bind_eq_ok.mp h
  obtain ⟨_, _, h⟩ := bind_eq_ok.mp h
  obtain ⟨_, _, h⟩ := bind_eq_ok.mp h
  obtain ⟨_, _, h⟩ := bind_eq_ok.mp h
  cases h
  exact ⟨balances, hbalances, rfl⟩

end Entries

/-! ### The guard

An entry has keys from a fixed list, so the guard never stops a snapshot: whatever OKX
replies, a capture that reads its records makes one.
-/

section Guard

/-- The keys of all entries. -/
def entryKeys : List String :=
  ["actualSide", "algoClientOrderId", "algoOrderId", "availableBalance", "averageEntryPrice",
    "averageFillPrice", "cashBalance", "clientOrderId", "closeSource", "currency", "equity",
    "execType", "feeAmount", "feeCurrency", "fillId", "fillPrice", "fillQuantity", "fillTime",
    "filledQuantity", "frozenBalance", "instrumentId", "isolatedEquity", "leverage",
    "linkedClientOrderId", "linkedOrderId", "margin", "marginMode", "markPrice", "notionalUsd",
    "orderPrice", "orderType", "positionId", "positionSide", "price", "providerOrderId",
    "quantity", "realizedPnl", "reduceOnly", "side", "state", "stopLossOrderPrice",
    "stopLossTriggerPrice", "symbol", "takeProfitOrderPrice", "takeProfitTriggerPrice",
    "timeInForce", "triggerPrice", "unrealizedPnl", "usdEquity"]

theorem isPublicKey_entryKeys : ∀ key ∈ entryKeys, isPublicKey (.str key) = true := by
  decide +kernel

theorem isPublicEntries_iff {entries : List (Key × Value)} :
    isPublicEntries entries = true ↔
      ∀ entry ∈ entries, isPublicKey entry.1 = true ∧ isPublic entry.2 = true := by
  induction entries with
  | nil => simp [isPublicEntries]
  | cons entry rest ih => simp [isPublicEntries, ih, and_assoc]

theorem isPublicItems_iff {items : List Value} :
    isPublicItems items = true ↔ ∀ item ∈ items, isPublic item = true := by
  induction items with
  | nil => simp [isPublicItems]
  | cons item rest ih => simp [isPublicItems, ih]

/-- An entry of texts under such keys. -/
def IsEntry (entry : Dict) : Prop := isPublic (.dict entry) = true

theorem isEntry_compact {payload : List (String × Value)}
    (h : ∀ field ∈ payload, field.1 ∈ entryKeys ∧ isPublic field.2 = true) :
    IsEntry (compact payload) := by
  rw [IsEntry, isPublic, isPublicEntries_iff]
  intro entry hentry
  obtain ⟨field, hfield, rfl⟩ := List.mem_map.mp hentry
  obtain ⟨hkey, hvalue⟩ := h field (List.mem_filter.mp hfield).1
  exact ⟨isPublicKey_entryKeys _ hkey, hvalue⟩

variable [Runtime]

theorem isPublic_boolText (v : Value) : isPublic (boolText v) = true := by
  unfold boolText
  dsimp only
  split
  · rfl
  · split <;> rfl

theorem isEntry_balance (detail : Dict) : IsEntry (balanceEntry detail) :=
  isEntry_compact (by simp [entryKeys, isPublic])

theorem isEntry_position (item : Dict) : IsEntry (positionEntry item) :=
  isEntry_compact (by simp [entryKeys, isPublic])

theorem isEntry_order (item : Dict) : IsEntry (orderEntry item) :=
  isEntry_compact (by simp [entryKeys, isPublic, isPublic_boolText])

theorem isEntry_algoOrder (item : Dict) : IsEntry (algoOrderEntry item) :=
  isEntry_compact (by simp [entryKeys, isPublic])

theorem isEntry_fill (closeSources : List (String × String)) (item : Dict) :
    IsEntry (fillEntry closeSources item) :=
  isEntry_compact (by simp [entryKeys, isPublic])

omit [Runtime] in
theorem isPublic_entries {entries : List Dict} (h : ∀ entry ∈ entries, IsEntry entry) :
    isPublic (.list (entries.map .dict)) = true := by
  rw [isPublic, isPublicItems_iff]
  intro item hitem
  obtain ⟨entry, hentry, rfl⟩ := List.mem_map.mp hitem
  exact h entry hentry

theorem exists_publicEntries (items : List Dict) {entry : Dict → Dict} (keys : List String)
    (h : ∀ item, IsEntry (entry item)) :
    ∃ entries, publicEntries keys (items.map entry) = .ok entries ∧
      isPublic (.list (entries.map .dict)) = true := by
  have hpublic : isPublic (.list ((sortByKeys keys (items.map entry)).map .dict)) = true := by
    refine isPublic_entries fun sorted hsorted => ?_
    obtain ⟨item, _, rfl⟩ :=
      List.mem_map.mp ((List.perm_insertionSort _ _).mem_iff.mp hsorted)
    exact h item
  exact ⟨_, bind_eq_ok.mpr ⟨(), rejectSecretFields_of_isPublic hpublic, rfl⟩, hpublic⟩

omit [Runtime] in
theorem isPublicEntries_warnings (warnings : List String) :
    isPublicEntries (warningsEntry warnings) = true := by
  cases warnings with
  | nil => rfl
  | cons warning rest =>
      have hkey : isPublicKey (.str "warnings") = true := by decide +kernel
      have hlist : isPublic (.list ((warning :: rest).map .str)) = true := by
        rw [isPublic, isPublicItems_iff]
        exact List.forall_mem_map.mpr fun _ _ => rfl
      rw [warningsEntry, isPublicEntries, hkey, hlist]
      · rfl
      · exact List.cons_ne_nil _ _

/-- **Records always make a snapshot**, one that the guard lets pass. -/
theorem exists_snapshot (records : OkxRecords) (capturedAt : Instant) :
    ∃ snapshot, snapshotOf records capturedAt = .ok snapshot ∧ isPublic (.dict snapshot) = true := by
  obtain ⟨algoOrders, halgo, halgoPublic⟩ :=
    exists_publicEntries records.algoOrders _ isEntry_algoOrder
  obtain ⟨balances, hbalances, hbalancesPublic⟩ :=
    exists_publicEntries (records.balances.flatMap accountDetails) _ isEntry_balance
  obtain ⟨fills, hfills, hfillsPublic⟩ :=
    exists_publicEntries records.fills _ (isEntry_fill records.closeSources)
  obtain ⟨orderHistory, hhistory, hhistoryPublic⟩ :=
    exists_publicEntries records.orderHistory _ isEntry_order
  obtain ⟨openOrders, horders, hordersPublic⟩ :=
    exists_publicEntries records.orders _ isEntry_order
  obtain ⟨positions, hpositions, hpositionsPublic⟩ :=
    exists_publicEntries records.positions _ isEntry_position
  have hkeys : ∀ key ∈ ["algoOrders", "balances", "capturedAt", "fills", "market", "orderHistory",
      "openOrders", "positions", "provider", "source", "zeroSecret"],
      isPublicKey (.str key) = true := by decide +kernel
  simp only [List.forall_mem_cons] at hkeys
  have htext : ∀ text, isPublic (.str text) = true := fun _ => rfl
  have hflag : ∀ flag, isPublic (.bool flag) = true := fun _ => rfl
  have hpublic : isPublic (.dict (([("algoOrders", .list (algoOrders.map .dict)),
      ("balances", .list (balances.map .dict)), ("capturedAt", isoZ capturedAt),
      ("fills", .list (fills.map .dict)), ("market", "okx_swap"),
      ("orderHistory", .list (orderHistory.map .dict)),
      ("openOrders", .list (openOrders.map .dict)), ("positions", .list (positions.map .dict)),
      ("provider", "okx"), ("source", "executor_okx_reconciliation"),
      ("zeroSecret", .bool true)] : Dict) ++ warningsEntry records.warnings)) = true := by
    rw [isPublic, isPublicEntries_append, isPublicEntries_warnings, Bool.and_true]
    simp only [isPublicEntries, hkeys, htext, hflag, halgoPublic, hbalancesPublic, hfillsPublic,
      hhistoryPublic, hordersPublic, hpositionsPublic, Bool.and_true]
  refine ⟨_, ?_, hpublic⟩
  exact bind_eq_ok.mpr ⟨_, halgo, bind_eq_ok.mpr ⟨_, hbalances, bind_eq_ok.mpr ⟨_, hfills,
    bind_eq_ok.mpr ⟨_, hhistory, bind_eq_ok.mpr ⟨_, horders, bind_eq_ok.mpr ⟨_, hpositions,
      bind_eq_ok.mpr ⟨(), rejectSecretFields_of_isPublic hpublic, rfl⟩⟩⟩⟩⟩⟩⟩

end Guard

/-! ### Close sources -/

section CloseSources

variable [Runtime]

/-- One of the record's ids is this one. -/
def HasRef (item : Dict) (id : String) : Prop := id ≠ "" ∧ ∃ key ∈ refKeys, fieldText item key = id

instance (item : Dict) (id : String) : Decidable (HasRef item id) :=
  inferInstanceAs (Decidable (_ ∧ _))

theorem lookup_putRefs (sources : List (String × String)) (item : Dict) (closeSource : String)
    (keys : List String) (id : String) :
    (putRefs sources item closeSource keys).lookup id =
      if id ≠ "" ∧ ∃ key ∈ keys, fieldText item key = id then some closeSource
      else sources.lookup id := by
  induction keys generalizing sources with
  | nil => simp [putRefs]
  | cons key rest ih =>
      rw [putRefs, ih]
      by_cases hrest : id ≠ "" ∧ ∃ key ∈ rest, fieldText item key = id
      · obtain ⟨hid, k, hk, hfound⟩ := hrest
        rw [if_pos ⟨hid, k, hk, hfound⟩, if_pos ⟨hid, k, List.mem_cons_of_mem _ hk, hfound⟩]
      · rw [if_neg hrest]
        by_cases hkey : fieldText item key = id
        · by_cases hid : id = ""
          · rw [if_pos (hkey.trans hid), if_neg fun h => h.1 hid]
          · rw [if_neg fun h => hid (hkey.symm.trans h), lookup_setField, if_pos hkey.symm,
              if_pos ⟨hid, key, List.mem_cons_self, hkey⟩]
        · have hnone : ¬(id ≠ "" ∧ ∃ k ∈ key :: rest, fieldText item k = id) := by
            rintro ⟨hid, k, hk, hfound⟩
            rcases List.mem_cons.mp hk with rfl | hk
            · exact hkey hfound
            · exact hrest ⟨hid, k, hk, hfound⟩
          rw [if_neg hnone]
          split
          · rfl
          · rw [lookup_setField, if_neg (Ne.symm hkey)]

/-- The last record of this id that says where it came from. -/
def lastWithRef (items : List Dict) (id : String) : Option Dict :=
  items.reverse.find? fun item => inferCloseSource item ≠ "" ∧ HasRef item id

/-- The close sources of the records by the ids in these fields. -/
def closeSourcesBy (keys : List String) (items : List Dict) : List (String × String) :=
  items.foldl (fun sources item =>
    let closeSource := inferCloseSource item
    if closeSource = "" then sources else putRefs sources item closeSource keys) []

/-- The last record that has the id in one of these fields and says where it came from. -/
def lastBy (keys : List String) (items : List Dict) (id : String) : Option Dict :=
  items.reverse.find? fun item =>
    inferCloseSource item ≠ "" ∧ id ≠ "" ∧ ∃ key ∈ keys, fieldText item key = id

theorem closeSourcesBy_append (keys : List String) (items : List Dict) (item : Dict) :
    closeSourcesBy keys (items ++ [item]) =
      if inferCloseSource item = "" then closeSourcesBy keys items
      else putRefs (closeSourcesBy keys items) item (inferCloseSource item) keys := by
  simp only [closeSourcesBy, List.foldl_append, List.foldl_cons, List.foldl_nil]

theorem lastBy_append (keys : List String) (items : List Dict) (item : Dict) (id : String) :
    lastBy keys (items ++ [item]) id =
      if inferCloseSource item ≠ "" ∧ id ≠ "" ∧ ∃ key ∈ keys, fieldText item key = id then some item
      else lastBy keys items id := by
  simp only [lastBy, List.reverse_append, List.reverse_singleton, List.singleton_append,
    List.find?_cons]
  by_cases h : inferCloseSource item ≠ "" ∧ id ≠ "" ∧ ∃ key ∈ keys, fieldText item key = id
  · rw [if_pos h, decide_eq_true h]
  · rw [if_neg h, decide_eq_false h]

/-- Later records write over earlier ones. -/
theorem lookup_closeSourcesBy (keys : List String) (items : List Dict) (id : String) :
    (closeSourcesBy keys items).lookup id = (lastBy keys items id).map inferCloseSource := by
  induction items using List.reverseRecOn with
  | nil => rfl
  | append_singleton items item ih =>
      rw [closeSourcesBy_append, lastBy_append]
      by_cases hsource : inferCloseSource item = ""
      · rw [if_pos hsource, if_neg fun h => h.1 hsource, ih]
      · rw [if_neg hsource, lookup_putRefs, ih]
        by_cases href : id ≠ "" ∧ ∃ key ∈ keys, fieldText item key = id
        · rw [if_pos href, if_pos ⟨hsource, href⟩, Option.map_some]
        · rw [if_neg href, if_neg fun h => href h.2]

theorem lookup_closeSources (items : List Dict) (id : String) :
    (closeSourcesByOrderRef items).lookup id = (lastWithRef items id).map inferCloseSource :=
  lookup_closeSourcesBy refKeys items id

/-- The record a fill's close source is inferred of. -/
def closing? (items : List Dict) (fill : Dict) : Option Dict :=
  if inferCloseSource fill ≠ "" then some fill
  else fillRefKeys.findSome? fun key => lastWithRef items (fieldText fill key)

/-- **A fill has the close source of one record**, or none. -/
theorem fillCloseSource_eq (items : List Dict) (fill : Dict) :
    fillCloseSource fill (closeSourcesByOrderRef items) =
      ((closing? items fill).map inferCloseSource).getD "" := by
  have hfind : ∀ keys : List String,
      (keys.findSome? fun key => (closeSourcesByOrderRef items).lookup (fieldText fill key)) =
        (keys.findSome? fun key => lastWithRef items (fieldText fill key)).map
          inferCloseSource := by
    intro keys
    induction keys with
    | nil => rfl
    | cons key rest ih =>
        rw [List.findSome?_cons, List.findSome?_cons, lookup_closeSources]
        cases lastWithRef items (fieldText fill key) with
        | some item => rfl
        | none => exact ih
  rw [fillCloseSource, closing?]
  by_cases h : inferCloseSource fill ≠ ""
  · rw [if_pos h, if_pos h, Option.map_some, Option.getD_some]
  · rw [if_neg h, if_neg h, hfind]

/-- The record is the fill itself, or one that shares an id with it. -/
theorem closing?_eq_some {items : List Dict} {fill item : Dict} (h : closing? items fill = some item) :
    item = fill ∨ item ∈ items ∧ ∃ key ∈ fillRefKeys, HasRef item (fieldText fill key) := by
  unfold closing? at h
  split at h
  · exact Or.inl (Option.some.inj h).symm
  · obtain ⟨key, hkey, hfound⟩ := List.exists_of_findSome?_eq_some h
    have hmem := List.mem_of_find?_eq_some hfound
    have hsat := List.find?_some hfound
    exact Or.inr ⟨List.mem_reverse.mp hmem, key, hkey, (of_decide_eq_true hsat).2⟩

end CloseSources

end Reconciliation

end YtmExecutor
