/-
Whether a snapshot depends on the order of OKX's replies.

Every list of a snapshot is sorted, but by some fields of its entries only, and fills are
labelled by the last record that has one of their ids.  So the order of the records inside
a reply shows exactly when two of them are sorted to one place and are not the same, or
when the records that may be the last one for a fill do not name the same close source
(`order_independent_iff`).
-/
import YtmExecutor.ReplyOrder

namespace YtmExecutor

open Python Interaction Prog Reordering

namespace Reconciliation

/-! ### Entries as texts of a record -/

section Entries

theorem keys_compact_subset (payload : List (String × Value)) {key : Key} {v : Value}
    (h : (key, v) ∈ compact payload) : ∃ name ∈ payload.map Prod.fst, key = .str name := by
  obtain ⟨field, hfield, heq⟩ := List.mem_map.mp h
  exact ⟨field.1, List.mem_map_of_mem (List.mem_filter.mp hfield).1, (congrArg Prod.fst heq).symm⟩

theorem compact_cons (name : String) (v : Value) (rest : List (String × Value)) :
    compact ((name, v) :: rest) =
      if v.isNoneOrEmpty then compact rest else (.str name, v) :: compact rest := by
  cases h : v.isNoneOrEmpty <;> simp [compact, h]

/-- An entry says what its payload says, where nothing blank is told apart. -/
theorem compact_inj {payload payload' : List (String × Value)}
    (hkeys : payload.map Prod.fst = payload'.map Prod.fst) (hnodup : (payload.map Prod.fst).Nodup)
    (hblank : ∀ field ∈ payload ++ payload', field.2.isNoneOrEmpty = true → field.2 = .str "") :
    compact payload = compact payload' ↔ payload = payload' := by
  refine ⟨fun h => ?_, fun h => by rw [h]⟩
  induction payload generalizing payload' with
  | nil => exact (List.map_eq_nil_iff.mp hkeys.symm).symm
  | cons field rest ih =>
      cases payload' with
      | nil => cases hkeys
      | cons field' rest' =>
          obtain ⟨name, v⟩ := field
          obtain ⟨name', v'⟩ := field'
          obtain ⟨hname, hrest⟩ := List.cons.inj hkeys
          cases hname
          rw [List.map_cons, List.nodup_cons] at hnodup
          have hnotin : ∀ {others : List (String × Value)} {w : Value},
              rest.map Prod.fst = others.map Prod.fst → (.str name, w) ∉ compact others := by
            intro others w hothers hmem
            obtain ⟨other, hother, hsame⟩ := keys_compact_subset _ hmem
            cases hsame
            exact hnodup.1 (hothers ▸ hother)
          have hv : v.isNoneOrEmpty = true → v = .str "" := hblank (name, v) (by simp)
          have hv' : v'.isNoneOrEmpty = true → v' = .str "" := hblank (name, v') (by simp)
          have htail := ih hrest hnodup.2 fun field hfield => hblank field (by
            simp only [List.mem_append, List.mem_cons] at hfield ⊢
            tauto)
          rw [compact_cons, compact_cons] at h
          by_cases hempty : v.isNoneOrEmpty = true
          · by_cases hempty' : v'.isNoneOrEmpty = true
            · rw [if_pos hempty, if_pos hempty'] at h
              rw [hv hempty, hv' hempty', htail h]
            · rw [if_pos hempty, if_neg hempty'] at h
              exact absurd (h ▸ List.mem_cons_self) (hnotin rfl)
          · by_cases hempty' : v'.isNoneOrEmpty = true
            · rw [if_neg hempty, if_pos hempty'] at h
              exact absurd (h.symm ▸ List.mem_cons_self) (hnotin hrest)
            · rw [if_neg hempty, if_neg hempty'] at h
              obtain ⟨heq, hsame⟩ := List.cons.inj h
              rw [(Prod.mk.inj heq).2, htail hsame]

theorem isNoneOrEmpty_str (text : String) :
    (Value.str text).isNoneOrEmpty = decide (text = "") := rfl

/-- Two records are the same for all of these. -/
def Agree (reads : List (Dict → Value)) (a b : Dict) : Prop := ∀ read ∈ reads, read a = read b

theorem agree_nil (a b : Dict) : Agree [] a b ↔ True := by simp [Agree]

theorem agree_cons {read : Dict → Value} {reads : List (Dict → Value)} {a b : Dict} :
    Agree (read :: reads) a b ↔ read a = read b ∧ Agree reads a b := List.forall_mem_cons

theorem agree_append {reads reads' : List (Dict → Value)} {a b : Dict} :
    Agree (reads ++ reads') a b ↔ Agree reads a b ∧ Agree reads' a b := List.forall_mem_append

variable [Runtime]

theorem keyText_compact {payload : List (String × Value)} (h : (payload.map Prod.fst).Nodup)
    {key text : String} (hv : payload.lookup key = some (.str text)) :
    SecretStore.keyText (compact payload) key = text := by
  rw [SecretStore.keyText, get?_compact h, hv, Option.filter_some]
  by_cases htext : text = ""
  · simp [Value.isNoneOrEmpty, htext, Value.toText]
  · simp [Value.isNoneOrEmpty, htext, Value.toText]

/-- Where an entry is sorted to. -/
def sortKey (keys : List String) (entry : Dict) : List String :=
  keys.map (SecretStore.keyText entry)

theorem sortKey_compact {payload : List (String × Value)} {keys texts : List String}
    (h : (payload.map Prod.fst).Nodup)
    (hv : (keys.map fun key => payload.lookup key) = texts.map fun text =>
      some (Value.str text)) :
    sortKey keys (compact payload) = texts := by
  induction keys generalizing texts with
  | nil => exact (List.map_eq_nil_iff.mp hv.symm).symm
  | cons key keys ih =>
      cases texts with
      | nil => cases hv
      | cons text texts =>
          obtain ⟨hkey, hrest⟩ := List.cons.inj hv
          rw [sortKey, List.map_cons, keyText_compact h hkey, ← sortKey, ih hrest]

/-- The text of a field. -/
def textOf (key : String) (item : Dict) : Value := fieldText item key

/-- `item.get(key) or item.get(other)`, as a text. -/
def firstOf (key other : String) (item : Dict) : Value :=
  valueText ((item.get key).pyOr (item.get other))

theorem agree_map_textOf {names : List String} {a b : Dict} :
    Agree (names.map textOf) a b ↔ names.map (fieldText a) = names.map (fieldText b) := by
  rw [Agree, List.forall_mem_map, List.map_inj_left]
  exact forall₂_congr fun _ _ => by rw [textOf, textOf, Value.str.injEq]

/-- How the records of a list are made into entries and sorted: what they are sorted by, and what
an entry is made of. -/
structure Listing where
  keys : List String
  entry : Dict → Dict
  sorts : List (Dict → Value)
  reads : List (Dict → Value)
  sortKey_iff : ∀ a b, sortKey keys (entry a) = sortKey keys (entry b) ↔ Agree sorts a b
  entry_iff : ∀ a b, entry a = entry b ↔ Agree reads a b

def balanceReads : List (Dict → Value) :=
  ["availBal", "cashBal", "ccy", "eq", "frozenBal", "isoEq", "eqUsd"].map textOf

theorem sortKey_balanceEntry (item : Dict) :
    sortKey ["currency"] (balanceEntry item) = ["ccy"].map (fieldText item) :=
  sortKey_compact (by simp) rfl

theorem balanceEntry_eq_iff {a b : Dict} :
    balanceEntry a = balanceEntry b ↔ Agree balanceReads a b := by
  rw [balanceEntry, balanceEntry, compact_inj]
  · simp [Agree, balanceReads, textOf]
  · simp
  · simp
  · simp [isNoneOrEmpty_str]

def balanceListing : Listing where
  keys := ["currency"]
  entry := balanceEntry
  sorts := ["ccy"].map textOf
  reads := balanceReads
  sortKey_iff a b := by rw [sortKey_balanceEntry, sortKey_balanceEntry, agree_map_textOf]
  entry_iff _ _ := balanceEntry_eq_iff

def positionReads : List (Dict → Value) :=
  ["avgPx", "instId", "lever", "margin", "mgnMode", "markPx", "notionalUsd", "posId",
    "posSide", "pos", "upl"].map textOf

theorem sortKey_positionEntry (item : Dict) :
    sortKey ["instrumentId", "positionSide", "positionId"] (positionEntry item) =
      ["instId", "posSide", "posId"].map (fieldText item) :=
  sortKey_compact (by simp) rfl

theorem positionEntry_eq_iff {a b : Dict} :
    positionEntry a = positionEntry b ↔ Agree positionReads a b := by
  simp only [positionEntry]
  rw [compact_inj]
  · simp only [List.cons.injEq, Prod.mk.injEq, Value.str.injEq, true_and, and_true, positionReads,
      List.map_cons, List.map_nil, agree_cons, agree_nil, textOf]
    grind
  · simp
  · simp
  · simp [isNoneOrEmpty_str]

def positionListing : Listing where
  keys := ["instrumentId", "positionSide", "positionId"]
  entry := positionEntry
  sorts := ["instId", "posSide", "posId"].map textOf
  reads := positionReads
  sortKey_iff a b := by rw [sortKey_positionEntry, sortKey_positionEntry, agree_map_textOf]
  entry_iff _ _ := positionEntry_eq_iff

theorem boolText_blank {v : Value} (h : (boolText v).isNoneOrEmpty = true) :
    boolText v = .str "" := by
  unfold boolText at h ⊢
  dsimp only at h ⊢
  split at h
  · cases h
  · split at h
    · cases h
    · rename_i htrue hfalse
      rw [if_neg htrue, if_neg hfalse, of_decide_eq_true h]

def orderReads : List (Dict → Value) :=
  ["actualSide", "algoClOrdId", "algoId", "avgPx", "clOrdId", "accFillSz", "instId",
      "ordType", "posSide", "px", "ordId", "sz", "side", "state", "tif"].map textOf ++
    [fun item => boolText (item.get "reduceOnly"), fun item => inferCloseSource item]

theorem sortKey_orderEntry (item : Dict) :
    sortKey ["instrumentId", "providerOrderId", "clientOrderId"] (orderEntry item) =
      ["instId", "ordId", "clOrdId"].map (fieldText item) :=
  sortKey_compact (by simp) rfl

theorem orderEntry_eq_iff {a b : Dict} : orderEntry a = orderEntry b ↔ Agree orderReads a b := by
  simp only [orderEntry]
  rw [compact_inj]
  · simp only [List.cons.injEq, Prod.mk.injEq, Value.str.injEq, true_and, and_true, orderReads,
      List.map_cons, List.map_nil, agree_append, agree_cons, agree_nil, textOf]
    grind
  · simp
  · simp
  · simpa [isNoneOrEmpty_str] using ⟨boolText_blank, boolText_blank⟩

def orderListing : Listing where
  keys := ["instrumentId", "providerOrderId", "clientOrderId"]
  entry := orderEntry
  sorts := ["instId", "ordId", "clOrdId"].map textOf
  reads := orderReads
  sortKey_iff a b := by rw [sortKey_orderEntry, sortKey_orderEntry, agree_map_textOf]
  entry_iff _ _ := orderEntry_eq_iff

def algoOrderReads : List (Dict → Value) :=
  ["actualSide", "algoClOrdId", "algoId", "instId", "clOrdId", "ordId", "ordType",
      "posSide", "side", "state", "slOrdPx", "slTriggerPx", "tpOrdPx", "tpTriggerPx",
      "triggerPx"].map textOf ++
    [firstOf "orderPx" "ordPx", fun item => inferCloseSource item]

theorem sortKey_algoOrderEntry (item : Dict) :
    sortKey ["instrumentId", "algoOrderId", "linkedOrderId"] (algoOrderEntry item) =
      ["instId", "algoId", "ordId"].map (fieldText item) :=
  sortKey_compact (by simp) rfl

theorem algoOrderEntry_eq_iff {a b : Dict} :
    algoOrderEntry a = algoOrderEntry b ↔ Agree algoOrderReads a b := by
  simp only [algoOrderEntry]
  rw [compact_inj]
  · simp only [List.cons.injEq, Prod.mk.injEq, Value.str.injEq, true_and, and_true,
      algoOrderReads, List.map_cons, List.map_nil, agree_append, agree_cons, agree_nil, textOf,
      firstOf]
    grind
  · simp
  · simp
  · simp [isNoneOrEmpty_str]

def algoOrderListing : Listing where
  keys := ["instrumentId", "algoOrderId", "linkedOrderId"]
  entry := algoOrderEntry
  sorts := ["instId", "algoId", "ordId"].map textOf
  reads := algoOrderReads
  sortKey_iff a b := by rw [sortKey_algoOrderEntry, sortKey_algoOrderEntry, agree_map_textOf]
  entry_iff _ _ := algoOrderEntry_eq_iff

def fillSorts : List (Dict → Value) :=
  [firstOf "fillTime" "ts", textOf "ordId", firstOf "billId" "tradeId"]

/-- What the entry of a fill is made of, but for its close source. -/
def fillReads : List (Dict → Value) :=
  ["actualSide", "clOrdId", "execType", "fee", "feeCcy", "fillPx", "fillSz", "instId", "ordType",
      "posSide", "ordId", "side"].map textOf ++
    [firstOf "fillTime" "ts", firstOf "billId" "tradeId", fun item =>
      valueText (((item.get "fillPnl").pyOr (item.get "pnl")).pyOr (item.get "realizedPnl"))]

theorem sortKey_fillEntry (sources : List (String × String)) (item : Dict) :
    sortKey ["fillTime", "providerOrderId", "fillId"] (fillEntry sources item) =
      [valueText ((item.get "fillTime").pyOr (item.get "ts")), fieldText item "ordId",
        valueText ((item.get "billId").pyOr (item.get "tradeId"))] :=
  sortKey_compact (by simp) rfl

theorem sortKey_fillEntry_iff {sources : List (String × String)} {a b : Dict} :
    sortKey ["fillTime", "providerOrderId", "fillId"] (fillEntry sources a) =
        sortKey ["fillTime", "providerOrderId", "fillId"] (fillEntry sources b) ↔
      Agree fillSorts a b := by
  simp [sortKey_fillEntry, Agree, textOf, firstOf, fillSorts]

theorem fillEntry_eq_iff {sources sources' : List (String × String)} {a b : Dict} :
    fillEntry sources a = fillEntry sources' b ↔
      Agree fillReads a b ∧ fillCloseSource a sources = fillCloseSource b sources' := by
  simp only [fillEntry]
  rw [compact_inj]
  · simp only [List.cons.injEq, Prod.mk.injEq, Value.str.injEq, true_and, and_true, fillReads,
      List.map_cons, List.map_nil, agree_append, agree_cons, agree_nil, textOf, firstOf]
    grind
  · simp
  · simp
  · simp [isNoneOrEmpty_str]

theorem fillEntry_eq_iff_agree {sources : List (String × String)} {a b : Dict} :
    fillEntry sources a = fillEntry sources b ↔
      Agree (fillReads ++ [fun item => .str (fillCloseSource item sources)]) a b := by
  rw [fillEntry_eq_iff, agree_append, agree_cons, agree_nil, and_true, Value.str.injEq]

def fillListing (sources : List (String × String)) : Listing where
  keys := ["fillTime", "providerOrderId", "fillId"]
  entry := fillEntry sources
  sorts := fillSorts
  reads := fillReads ++ [fun item => .str (fillCloseSource item sources)]
  sortKey_iff _ _ := sortKey_fillEntry_iff
  entry_iff _ _ := fillEntry_eq_iff_agree

end Entries

/-! ### Sorted lists -/

section Lists

variable [Runtime]

namespace Listing

/-- The entries of a list, sorted. -/
def sorted (listing : Listing) (items : List Dict) : List Dict :=
  sortByKeys listing.keys (items.map listing.entry)

/-- Records that are sorted to one place are made into one entry. -/
def TieFree (listing : Listing) (items : List Dict) : Prop :=
  ∀ a ∈ items, ∀ b ∈ items, Agree listing.sorts a b → Agree listing.reads a b

variable {listing : Listing} {blocks blocks' : List (List Dict)} {items items' : List Dict}

theorem noTies_iff :
    NoTies (sortKey listing.keys) (items.map listing.entry) ↔ listing.TieFree items := by
  simp only [NoTies, List.forall_mem_map, listing.sortKey_iff, listing.entry_iff]
  rfl

theorem sorted_eq (listing : Listing) (items : List Dict) :
    listing.sorted items = sortBy (sortKey listing.keys) (items.map listing.entry) := rfl

theorem sorted_flatten (h : ∀ block ∈ blocks, listing.TieFree block)
    (hperm : List.Forall₂ List.Perm blocks blocks') :
    listing.sorted blocks.flatten = listing.sorted blocks'.flatten := by
  rw [sorted_eq, sorted_eq, List.map_flatten, List.map_flatten]
  refine sortBy_flatten_of_noTies ?_ ?_
  · rw [List.forall_mem_map]
    exact fun block hblock => noTies_iff.mpr (h block hblock)
  · rw [List.forall₂_map_left_iff, List.forall₂_map_right_iff]
    exact hperm.imp fun _ _ hp => hp.map _

theorem TieFree.sorted_perm (h : listing.TieFree items) (hperm : items.Perm items') :
    listing.sorted items = listing.sorted items' := by
  have hflat := @sorted_flatten _ listing [items] [items']
    (List.forall_mem_singleton.mpr h) (.cons hperm .nil)
  simpa only [List.flatten_singleton] using hflat

theorem tieFree_of_sorted_flatten [DecidableEq Dict]
    (h : ∀ a, listing.sorted (blocks.map (moveLast a)).flatten = listing.sorted blocks.flatten) :
    ∀ block ∈ blocks, listing.TieFree block := by
  intro block hblock
  exact noTies_iff.mp (noTies_of_sortBy_flatten h block hblock)

theorem tieFree_of_sorted [DecidableEq Dict]
    (h : ∀ a, listing.sorted (moveLast a items) = listing.sorted items) :
    listing.TieFree items := by
  refine @tieFree_of_sorted_flatten _ listing [items] _ (fun a => ?_) items List.mem_cons_self
  simpa only [List.map_singleton, List.flatten_singleton] using h a

/-- Two records sorted to one place, each the last one of an order with one result. -/
theorem agree_of_sorted_concat {front front' : List Dict} {a b : Dict}
    (h : listing.sorted (front ++ [a]) = listing.sorted (front' ++ [b]))
    (htie : Agree listing.sorts a b) : Agree listing.reads a b := by
  rw [← listing.entry_iff]
  rw [← listing.sortKey_iff] at htie
  rw [sorted_eq, sorted_eq, List.map_append, List.map_append] at h
  exact eq_of_sortBy_concat h htie

end Listing

/-- The lists of two snapshots are the same. -/
structure SameLists (records records' : OkxRecords) : Prop where
  algoOrders : algoOrderListing.sorted records.algoOrders =
    algoOrderListing.sorted records'.algoOrders
  balances : balanceListing.sorted (records.balances.flatMap accountDetails) =
    balanceListing.sorted (records'.balances.flatMap accountDetails)
  fills : (fillListing records.closeSources).sorted records.fills =
    (fillListing records'.closeSources).sorted records'.fills
  orderHistory : orderListing.sorted records.orderHistory =
    orderListing.sorted records'.orderHistory
  orders : orderListing.sorted records.orders = orderListing.sorted records'.orders
  positions : positionListing.sorted records.positions = positionListing.sorted records'.positions

theorem publicEntries_eq {keys : List String} {items entries : List Dict}
    (h : publicEntries keys items = .ok entries) : entries = sortByKeys keys items := by
  obtain ⟨_, _, h⟩ := bind_eq_ok.mp h
  cases h
  rfl

/-- The lists of a snapshot are the sorted ones. -/
theorem get_snapshotOf {records : OkxRecords} {now : Instant} {snapshot : Dict}
    (h : snapshotOf records now = .ok snapshot) :
    snapshot.get "algoOrders" = .list ((algoOrderListing.sorted records.algoOrders).map .dict) ∧
    snapshot.get "balances" =
      .list ((balanceListing.sorted (records.balances.flatMap accountDetails)).map .dict) ∧
    snapshot.get "fills" =
      .list (((fillListing records.closeSources).sorted records.fills).map .dict) ∧
    snapshot.get "orderHistory" = .list ((orderListing.sorted records.orderHistory).map .dict) ∧
    snapshot.get "openOrders" = .list ((orderListing.sorted records.orders).map .dict) ∧
    snapshot.get "positions" = .list ((positionListing.sorted records.positions).map .dict) := by
  obtain ⟨algoOrders, halgo, h⟩ := bind_eq_ok.mp h
  obtain ⟨balances, hbalances, h⟩ := bind_eq_ok.mp h
  obtain ⟨fills, hfills, h⟩ := bind_eq_ok.mp h
  obtain ⟨orderHistory, hhistory, h⟩ := bind_eq_ok.mp h
  obtain ⟨openOrders, horders, h⟩ := bind_eq_ok.mp h
  obtain ⟨positions, hpositions, h⟩ := bind_eq_ok.mp h
  obtain ⟨_, _, h⟩ := bind_eq_ok.mp h
  cases h
  cases publicEntries_eq halgo
  cases publicEntries_eq hbalances
  cases publicEntries_eq hfills
  cases publicEntries_eq hhistory
  cases publicEntries_eq horders
  cases publicEntries_eq hpositions
  exact ⟨rfl, rfl, rfl, rfl, rfl, rfl⟩

theorem publicEntries_congr {keys : List String} {items items' : List Dict}
    (h : sortByKeys keys items = sortByKeys keys items') :
    publicEntries keys items = publicEntries keys items' := by
  rw [publicEntries, publicEntries, h]

/-- **Two snapshots are the same exactly when** their lists are. -/
theorem snapshotOf_eq_iff {records records' : OkxRecords}
    (hwarnings : records.warnings = records'.warnings) (now : Instant) :
    snapshotOf records now = snapshotOf records' now ↔ SameLists records records' := by
  constructor
  · intro h
    obtain ⟨snapshot, hsnapshot, _⟩ := exists_snapshot records now
    obtain ⟨halgo, hbalances, hfills, hhistory, horders, hpositions⟩ := get_snapshotOf hsnapshot
    rw [h] at hsnapshot
    obtain ⟨halgo', hbalances', hfills', hhistory', horders', hpositions'⟩ :=
      get_snapshotOf hsnapshot
    have hlists {entries entries' : List Dict} {v : Value} (hv : v = .list (entries.map .dict))
        (hv' : v = .list (entries'.map .dict)) : entries = entries' := by
      rw [hv, Value.list.injEq] at hv'
      exact List.map_injective_iff.mpr (fun _ _ => Value.dict.inj) hv'
    exact ⟨hlists halgo halgo', hlists hbalances hbalances', hlists hfills hfills',
      hlists hhistory hhistory', hlists horders horders', hlists hpositions hpositions'⟩
  · intro h
    have halgo : sanitizeAlgoOrders records.algoOrders = sanitizeAlgoOrders records'.algoOrders :=
      publicEntries_congr h.algoOrders
    have hbalances : sanitizeBalances records.balances = sanitizeBalances records'.balances :=
      publicEntries_congr h.balances
    have hfills : sanitizeFills records.fills records.closeSources =
        sanitizeFills records'.fills records'.closeSources := publicEntries_congr h.fills
    have hhistory : sanitizeOrders records.orderHistory = sanitizeOrders records'.orderHistory :=
      publicEntries_congr h.orderHistory
    have horders : sanitizeOrders records.orders = sanitizeOrders records'.orders :=
      publicEntries_congr h.orders
    have hpositions : sanitizePositions records.positions = sanitizePositions records'.positions :=
      publicEntries_congr h.positions
    rw [snapshotOf, snapshotOf, halgo, hbalances, hfills, hhistory, horders, hpositions, hwarnings]

end Lists

/-! ### The records a close source may come from -/

section Sources

variable [Runtime]

/-- The record says where it came from, and one of its ids is this one. -/
def saysFor (id : String) (item : Dict) : Bool :=
  decide (inferCloseSource item ≠ "" ∧ HasRef item id)

/-- The records for the first of a fill's ids that has any, in the last reply that has any. -/
def decidingFor (blocks : List (List Dict)) (fill : Dict) : List String → List Dict
  | [] => []
  | key :: rest =>
      if (lastBlock (saysFor (fieldText fill key)) blocks).isEmpty then decidingFor blocks fill rest
      else lastBlock (saysFor (fieldText fill key)) blocks

/-- The records of which the last one decides for a fill. -/
def deciding (blocks : List (List Dict)) (fill : Dict) : List Dict :=
  if inferCloseSource fill ≠ "" then [fill] else decidingFor blocks fill fillRefKeys

/-- All of them name one close source. -/
def OneSource (blocks : List (List Dict)) (fill : Dict) : Prop :=
  ∀ item ∈ deciding blocks fill, ∀ other ∈ deciding blocks fill,
    inferCloseSource item = inferCloseSource other

/-- The close sources that are named for two fills are the same. -/
def SameSources (blocks : List (List Dict)) (a b : Dict) : Prop :=
  ∀ source, (∃ item ∈ deciding blocks a, inferCloseSource item = source) ↔
    ∃ item ∈ deciding blocks b, inferCloseSource item = source

variable {blocks blocks' : List (List Dict)} {fill : Dict}

theorem lastWithRef_flatten (blocks : List (List Dict)) (id : String) :
    lastWithRef blocks.flatten id = (lastBlock (saysFor id) blocks).getLast? :=
  find?_reverse_flatten (saysFor id) blocks

theorem findSome?_lastWithRef (blocks : List (List Dict)) (fill : Dict) (keys : List String) :
    (keys.findSome? fun key => lastWithRef blocks.flatten (fieldText fill key)) =
      (decidingFor blocks fill keys).getLast? := by
  induction keys with
  | nil => rfl
  | cons key rest ih =>
      rw [List.findSome?_cons, lastWithRef_flatten, decidingFor]
      split
      · rename_i item hitem
        have hne : (lastBlock (saysFor (fieldText fill key)) blocks).isEmpty ≠ true := by
          intro hnil
          rw [List.isEmpty_iff.mp hnil] at hitem
          cases hitem
        rw [if_neg hne, hitem]
      · rename_i hnone
        rw [List.getLast?_eq_none_iff] at hnone
        rw [hnone, ih]
        rfl

/-- The record that a fill's close source is inferred of is the last one of these. -/
theorem closing?_flatten (blocks : List (List Dict)) (fill : Dict) :
    closing? blocks.flatten fill = (deciding blocks fill).getLast? := by
  rw [closing?, deciding]
  split
  · rfl
  · exact findSome?_lastWithRef blocks fill fillRefKeys

theorem fillCloseSource_flatten (blocks : List (List Dict)) (fill : Dict) :
    fillCloseSource fill (closeSourcesByOrderRef blocks.flatten) =
      ((deciding blocks fill).getLast?.map inferCloseSource).getD "" := by
  rw [fillCloseSource_eq, closing?_flatten]

theorem deciding_perm (h : List.Forall₂ List.Perm blocks blocks') (fill : Dict) :
    (deciding blocks fill).Perm (deciding blocks' fill) := by
  have hkeys : ∀ keys, (decidingFor blocks fill keys).Perm (decidingFor blocks' fill keys) := by
    intro keys
    induction keys with
    | nil => exact .nil
    | cons key rest ih =>
        have hlast := lastBlock_perm (saysFor (fieldText fill key)) h
        rw [decidingFor, decidingFor, hlast.isEmpty_eq]
        split
        · exact ih
        · exact hlast
  rw [deciding, deciding]
  split
  · exact .refl _
  · exact hkeys fillRefKeys

theorem deciding_moveLast [DecidableEq Dict] (a : Dict) (blocks : List (List Dict)) (fill : Dict) :
    deciding (blocks.map (moveLast a)) fill = moveLast a (deciding blocks fill) := by
  have hkeys : ∀ keys, decidingFor (blocks.map (moveLast a)) fill keys =
      moveLast a (decidingFor blocks fill keys) := by
    intro keys
    induction keys with
    | nil => rfl
    | cons key rest ih =>
        rw [decidingFor, decidingFor, lastBlock_moveLast, (moveLast_perm a _).isEmpty_eq, ih]
        split <;> rfl
  rw [deciding, deciding]
  split
  · exact (List.perm_singleton.mp (moveLast_perm a [fill])).symm
  · exact hkeys fillRefKeys

theorem inferCloseSource_of_deciding {item : Dict} (h : item ∈ deciding blocks fill) :
    inferCloseSource item ≠ "" := by
  have hkeys : ∀ keys, item ∈ decidingFor blocks fill keys → inferCloseSource item ≠ "" := by
    intro keys
    induction keys with
    | nil => exact fun h => absurd h List.not_mem_nil
    | cons key rest ih =>
        intro h
        rw [decidingFor] at h
        split at h
        · exact ih h
        · exact (of_decide_eq_true (of_mem_lastBlock _ h).1).1
  rw [deciding] at h
  split at h
  · rename_i hfill
    cases List.mem_singleton.mp h
    exact hfill
  · exact hkeys _ h

/-- One source that is named is the source of the fill. -/
theorem OneSource.named_iff (h : OneSource blocks fill) {source : String} :
    (∃ item ∈ deciding blocks fill, inferCloseSource item = source) ↔
      source ≠ "" ∧ fillCloseSource fill (closeSourcesByOrderRef blocks.flatten) = source := by
  rw [fillCloseSource_flatten]
  constructor
  · rintro ⟨item, hitem, rfl⟩
    refine ⟨inferCloseSource_of_deciding hitem, ?_⟩
    rw [List.getLast?_eq_some_getLast (List.ne_nil_of_mem hitem), Option.map_some, Option.getD_some]
    exact h _ (List.getLast_mem _) _ hitem
  · rintro ⟨hne, hsource⟩
    cases hlast : (deciding blocks fill).getLast? with
    | none =>
        rw [hlast, Option.map_none, Option.getD_none] at hsource
        exact absurd hsource.symm hne
    | some item =>
        rw [hlast, Option.map_some, Option.getD_some] at hsource
        exact ⟨item, List.mem_of_getLast? hlast, hsource⟩

theorem sameSources_iff {a b : Dict} (ha : OneSource blocks a) (hb : OneSource blocks b) :
    SameSources blocks a b ↔ fillCloseSource a (closeSourcesByOrderRef blocks.flatten) =
      fillCloseSource b (closeSourcesByOrderRef blocks.flatten) := by
  simp only [SameSources, ha.named_iff, hb.named_iff]
  constructor
  · intro h
    by_cases hempty : fillCloseSource a (closeSourcesByOrderRef blocks.flatten) = ""
    · by_contra hne
      rw [hempty] at hne
      have hback := (h _).mpr ⟨Ne.symm hne, rfl⟩
      exact hback.1 (hback.2.symm.trans hempty)
    · exact ((h _).mp ⟨hempty, rfl⟩).2.symm
  · intro h source
    rw [h]

/-- One source stays the source in whatever order the records come. -/
theorem OneSource.fillCloseSource_eq (h : OneSource blocks fill)
    (hperm : List.Forall₂ List.Perm blocks blocks') :
    fillCloseSource fill (closeSourcesByOrderRef blocks.flatten) =
      fillCloseSource fill (closeSourcesByOrderRef blocks'.flatten) := by
  have hdeciding := deciding_perm hperm fill
  have h' : OneSource blocks' fill := by
    intro item hitem other hother
    exact h item (hdeciding.mem_iff.mpr hitem) other (hdeciding.mem_iff.mpr hother)
  by_cases hnil : deciding blocks fill = []
  · rw [hnil] at hdeciding
    rw [fillCloseSource_flatten, fillCloseSource_flatten, hnil, ← hdeciding.nil_eq]
  · obtain ⟨item, hitem⟩ := List.exists_mem_of_ne_nil _ hnil
    rw [(h.named_iff.mp ⟨item, hitem, rfl⟩).2,
      (h'.named_iff.mp ⟨item, hdeciding.mem_iff.mp hitem, rfl⟩).2]

end Sources

/-! ### Two captures -/

section Captures

variable [Runtime] {replies replies' : Replies} {now : Instant}

/-- The snapshot of a capture, if it comes to one. -/
def snapshot? (replies : Replies) (now : Instant) : Option Dict :=
  (outcome replies (captureSnapshot perform now)).toOption

/-- The snapshot is the same in whatever order the records come. -/
def OrderIndependent (replies : Replies) (now : Instant) : Prop :=
  ∀ replies', SameReplies replies replies' → snapshot? replies' now = snapshot? replies now

def requiredReads : List OkxRead :=
  [.getAccountBalance, .getPositions "SWAP", .getOrderList "SWAP", .getOrdersHistory "SWAP" "100",
    .getFillsHistory "SWAP" "100"]

/-- The replies without which there is no snapshot can be read. -/
def Readable (replies : Replies) : Prop :=
  ∀ read ∈ requiredReads, (records? (replies read)).isSome = true

/-- The orders of each reply that may say where a fill came from, in the order they are read. -/
def closingBlocks (replies : Replies) : List (List Dict) :=
  recordsOf replies (.getOrderList "SWAP") ::
    recordsOf replies (.getOrdersHistory "SWAP" "100") :: algoBlocks replies

/-- No reply has two records that are sorted to one place and are not the same, and the records
that may decide for a fill name one close source. -/
structure Unambiguous (replies : Replies) : Prop where
  balances : balanceListing.TieFree
    ((recordsOf replies .getAccountBalance).flatMap accountDetails)
  positions : positionListing.TieFree (recordsOf replies (.getPositions "SWAP"))
  orders : orderListing.TieFree (recordsOf replies (.getOrderList "SWAP"))
  orderHistory : orderListing.TieFree (recordsOf replies (.getOrdersHistory "SWAP" "100"))
  algoOrders : ∀ block ∈ algoBlocks replies, algoOrderListing.TieFree block
  fills : ∀ a ∈ recordsOf replies (.getFillsHistory "SWAP" "100"),
    ∀ b ∈ recordsOf replies (.getFillsHistory "SWAP" "100"), Agree fillSorts a b →
      Agree fillReads a b ∧ SameSources (closingBlocks replies) a b
  closeSources : ∀ fill ∈ recordsOf replies (.getFillsHistory "SWAP" "100"),
    OneSource (closingBlocks replies) fill

/-- The records of a capture whose replies can be read. -/
def recordsIn (replies : Replies) : OkxRecords :=
  ⟨recordsOf replies .getAccountBalance, recordsOf replies (.getPositions "SWAP"),
    recordsOf replies (.getOrderList "SWAP"), recordsOf replies (.getOrdersHistory "SWAP" "100"),
    (algoBlocks replies).flatten, recordsOf replies (.getFillsHistory "SWAP" "100"),
    algoWarnings replies (algoReads okxReconciliationAlgoOrderTypes)⟩

theorem closeSources_recordsIn (replies : Replies) :
    (recordsIn replies).closeSources = closeSourcesByOrderRef (closingBlocks replies).flatten := by
  rw [OkxRecords.closeSources, OkxRecords.closing, List.append_assoc]
  rfl

theorem snapshot?_eq (replies : Replies) (now : Instant) :
    snapshot? replies now =
      (captured? replies).bind fun records => (snapshotOf records now).toOption := by
  rw [snapshot?, captureSnapshot, outcome_bind, toOption_bind, toOption_captureRecords]
  simp only [lift_eq, outcome_ofExcept]

theorem captured?_of_readable (h : Readable replies) :
    captured? replies = some (recordsIn replies) := by
  have hread : ∀ read ∈ requiredReads, records? (replies read) = some (recordsOf replies read) := by
    intro read hmem
    obtain ⟨items, hitems⟩ := Option.isSome_iff_exists.mp (h read hmem)
    rw [recordsOf, hitems, Option.getD_some]
  simp only [requiredReads, List.forall_mem_cons] at hread
  obtain ⟨hbalances, hpositions, horders, hhistory, hfills, _⟩ := hread
  rw [captured?, hbalances, hpositions, horders, hhistory, hfills]
  rfl

theorem captured?_of_not_readable (h : ¬Readable replies) : captured? replies = none := by
  rw [Option.eq_none_iff_forall_ne_some]
  intro records hrecords
  obtain ⟨_, hbalances, hrecords⟩ := Option.bind_eq_some_iff.mp hrecords
  obtain ⟨_, hpositions, hrecords⟩ := Option.bind_eq_some_iff.mp hrecords
  obtain ⟨_, horders, hrecords⟩ := Option.bind_eq_some_iff.mp hrecords
  obtain ⟨_, hhistory, hrecords⟩ := Option.bind_eq_some_iff.mp hrecords
  obtain ⟨_, hfills, _⟩ := Option.bind_eq_some_iff.mp hrecords
  refine h ?_
  simp only [Readable, requiredReads, List.forall_mem_cons, hbalances, hpositions, horders,
    hhistory, hfills]
  simp

/-! ### The same replies in another order -/

theorem SameReplies.isNone_eq (h : SameReplies replies replies') (read : OkxRead) :
    (records? (replies read)).isNone = (records? (replies' read)).isNone := by
  have hrel := (h read).records?
  generalize records? (replies read) = found at hrel ⊢
  generalize records? (replies' read) = found' at hrel ⊢
  cases hrel <;> rfl

theorem SameReplies.readable_iff (h : SameReplies replies replies') :
    Readable replies ↔ Readable replies' := by
  refine forall₂_congr fun read _ => ?_
  rw [← Option.not_isNone, ← Option.not_isNone, h.isNone_eq]

theorem SameReplies.recordsOf (h : SameReplies replies replies') (read : OkxRead) :
    Reordered (SameItem read) (Reconciliation.recordsOf replies read)
      (Reconciliation.recordsOf replies' read) := by
  have hrel := (h read).records?
  rw [Reconciliation.recordsOf, Reconciliation.recordsOf]
  generalize records? (replies read) = found at hrel ⊢
  generalize records? (replies' read) = found' at hrel ⊢
  cases hrel with
  | some hsame => exact hsame
  | none => exact ⟨[], .refl _, .nil⟩

/-- The records of a reply other than that of the balances. -/
theorem SameReplies.perm (h : SameReplies replies replies') {read : OkxRead}
    (hread : SameRecord read = Eq) :
    (Reconciliation.recordsOf replies read).Perm (Reconciliation.recordsOf replies' read) := by
  have hsame := h.recordsOf read
  have heq : SameItem read = Eq := by
    funext a b
    rw [SameItem, hread, Value.dict.injEq]
  rw [heq] at hsame
  exact hsame.perm

omit [Runtime] in
/-- What holds of every list of algo orders holds of those that are read. -/
theorem forall_algoReads {P : OkxRead → Prop}
    (hlist : ∀ ordType instType limit, P (.orderAlgosList ordType instType limit))
    (hhistory : ∀ ordType instType limit, P (.orderAlgosHistory ordType instType limit))
    (types : List String) : ∀ read ∈ algoReads types, P read.1 := by
  induction types with
  | nil => exact List.forall_mem_nil _
  | cons ordType rest ih =>
      rw [algoReads, List.forall_mem_cons, List.forall_mem_cons]
      exact ⟨hlist _ _ _, hhistory _ _ _, ih⟩

theorem SameReplies.algoBlocks (h : SameReplies replies replies') :
    List.Forall₂ List.Perm (Reconciliation.algoBlocks replies)
      (Reconciliation.algoBlocks replies') := by
  rw [Reconciliation.algoBlocks, Reconciliation.algoBlocks, List.forall₂_map_left_iff,
    List.forall₂_map_right_iff, List.forall₂_same]
  exact forall_algoReads
    (P := fun read => (Reconciliation.recordsOf replies read).Perm
      (Reconciliation.recordsOf replies' read))
    (fun _ _ _ => h.perm rfl) (fun _ _ _ => h.perm rfl) _

theorem SameReplies.closingBlocks (h : SameReplies replies replies') :
    List.Forall₂ List.Perm (Reconciliation.closingBlocks replies)
      (Reconciliation.closingBlocks replies') :=
  .cons (h.perm rfl) (.cons (h.perm rfl) h.algoBlocks)

theorem SameReplies.warnings_eq (h : SameReplies replies replies') :
    (recordsIn replies).warnings = (recordsIn replies').warnings := by
  show algoWarnings _ _ = algoWarnings _ _
  rw [algoWarnings, algoWarnings]
  refine congrArg List.flatten (List.map_congr_left fun read _ => ?_)
  rw [h.isNone_eq]

omit [Runtime] in
theorem accountDetails_perm {account account' : Dict}
    (h : SameItem .getAccountBalance account account') :
    (accountDetails account).Perm (accountDetails account') := by
  cases h with
  | refl => exact .refl _
  | list hitems hsame =>
      rw [accountDetails, accountDetails, Dict.get_of_get? hitems,
        Dict.get_of_get? (Dict.get?_set_self _ _ _)]
      exact hsame.perm.filterMap _

/-- The details of all accounts, in another order. -/
theorem SameReplies.details_perm (h : SameReplies replies replies') :
    ((Reconciliation.recordsOf replies .getAccountBalance).flatMap accountDetails).Perm
      ((Reconciliation.recordsOf replies' .getAccountBalance).flatMap accountDetails) := by
  obtain ⟨mid, hperm, hsame⟩ := h.recordsOf .getAccountBalance
  refine (hperm.flatMap_right _).trans ?_
  clear hperm
  generalize Reconciliation.recordsOf replies' .getAccountBalance = accounts at hsame ⊢
  induction hsame with
  | nil => exact .nil
  | cons hhead _ ih =>
      rw [List.flatMap_cons, List.flatMap_cons]
      exact (accountDetails_perm hhead).append ih

/-! ### Unambiguous replies make one snapshot -/

theorem fillListing_tieFree_iff {blocks : List (List Dict)} {fills : List Dict}
    (h : ∀ fill ∈ fills, OneSource blocks fill) :
    (fillListing (closeSourcesByOrderRef blocks.flatten)).TieFree fills ↔
      ∀ a ∈ fills, ∀ b ∈ fills, Agree fillSorts a b →
        Agree fillReads a b ∧ SameSources blocks a b := by
  refine forall₂_congr fun a ha => forall₂_congr fun b hb => forall_congr' fun _ => ?_
  rw [sameSources_iff (h a ha) (h b hb), ← (fillListing _).entry_iff]
  exact fillEntry_eq_iff

theorem Unambiguous.sameLists (h : Unambiguous replies) (hsame : SameReplies replies replies') :
    SameLists (recordsIn replies) (recordsIn replies') where
  algoOrders := Listing.sorted_flatten h.algoOrders hsame.algoBlocks
  balances := h.balances.sorted_perm hsame.details_perm
  fills := by
    have hperm : (recordsOf replies (.getFillsHistory "SWAP" "100")).Perm
        (recordsOf replies' (.getFillsHistory "SWAP" "100")) := hsame.perm rfl
    have htie := (fillListing_tieFree_iff h.closeSources).mpr h.fills
    rw [closeSources_recordsIn, closeSources_recordsIn]
    refine (htie.sorted_perm hperm).trans ?_
    refine congrArg (sortByKeys _) (List.map_congr_left fun fill hfill => ?_)
    refine fillEntry_eq_iff.mpr ⟨fun _ _ => rfl, ?_⟩
    exact (h.closeSources fill (hperm.mem_iff.mpr hfill)).fillCloseSource_eq hsame.closingBlocks
  orderHistory := h.orderHistory.sorted_perm (hsame.perm rfl)
  orders := h.orders.sorted_perm (hsame.perm rfl)
  positions := h.positions.sorted_perm (hsame.perm rfl)

/-! ### Ambiguous replies make two -/

theorem OrderIndependent.sameLists (h : OrderIndependent replies now) (hread : Readable replies)
    (hsame : SameReplies replies replies') :
    SameLists (recordsIn replies') (recordsIn replies) := by
  have heq := h replies' hsame
  rw [snapshot?_eq, snapshot?_eq, captured?_of_readable hread,
    captured?_of_readable (hsame.readable_iff.mp hread), Option.bind_some, Option.bind_some] at heq
  rw [← snapshotOf_eq_iff hsame.warnings_eq.symm now]
  obtain ⟨snapshot, hsnapshot, _⟩ := exists_snapshot (recordsIn replies) now
  rw [hsnapshot] at heq ⊢
  exact toOption_eq_some.mp heq

/-- Replies whose records are those of others, rearranged. -/
theorem exists_rearranged (replies : Replies) (f : OkxRead → List Dict → List Dict)
    (hf : ∀ read, Reordered (SameItem read) (recordsOf replies read)
      (f read (recordsOf replies read)))
    (hnil : ∀ read, f read [] = []) :
    ∃ replies', SameReplies replies replies' ∧
      ∀ read, recordsOf replies' read = f read (recordsOf replies read) := by
  obtain ⟨replies', hsame, hrecords⟩ := exists_replies replies f fun read items hitems => by
    have h := hf read
    rwa [recordsOf, hitems, Option.getD_some] at h
  refine ⟨replies', hsame, fun read => ?_⟩
  rw [recordsOf, hrecords, recordsOf]
  cases records? (replies read) with
  | none => exact (hnil read).symm
  | some items => rfl

omit [Runtime] in
theorem Reordered.moveLast [DecidableEq Dict] (read : OkxRead) (a : Dict) (items : List Dict) :
    Reordered (SameItem read) items (Reordering.moveLast a items) :=
  .of_perm (fun item => SameRecord.refl read (.dict item)) (moveLast_perm a items).symm

/-- A record brought to the end of every reply. -/
theorem exists_moved [DecidableEq Dict] (replies : Replies) (a : Dict) :
    ∃ replies', SameReplies replies replies' ∧
      ∀ read, recordsOf replies' read = moveLast a (recordsOf replies read) :=
  exists_rearranged replies (fun _ => moveLast a) (fun read => .moveLast read a _) fun _ => rfl

theorem algoBlocks_of_moved [DecidableEq Dict] {a : Dict}
    (h : ∀ read, recordsOf replies' read = moveLast a (recordsOf replies read)) :
    algoBlocks replies' = (algoBlocks replies).map (moveLast a) := by
  rw [algoBlocks, algoBlocks, List.map_map]
  exact List.map_congr_left fun read _ => h read.1

theorem closingBlocks_of_moved [DecidableEq Dict] {a : Dict}
    (h : ∀ read, recordsOf replies' read = moveLast a (recordsOf replies read)) :
    closingBlocks replies' = (closingBlocks replies).map (moveLast a) := by
  rw [closingBlocks, closingBlocks, List.map_cons, List.map_cons, h, h, algoBlocks_of_moved h]

/-- The fills rearranged, and nothing else. -/
def onFills (f : List Dict → List Dict) : OkxRead → List Dict → List Dict
  | .getFillsHistory _ _, items => f items
  | _, items => items

/-- A record brought to the end of the fills, and nothing else moved. -/
theorem exists_moved_fill [DecidableEq Dict] (replies : Replies) (a : Dict) :
    ∃ replies', SameReplies replies replies' ∧
      recordsOf replies' (.getFillsHistory "SWAP" "100") =
        moveLast a (recordsOf replies (.getFillsHistory "SWAP" "100")) ∧
      closingBlocks replies' = closingBlocks replies := by
  have hf : ∀ read, Reordered (SameItem read) (recordsOf replies read)
      (onFills (moveLast a) read (recordsOf replies read)) := by
    intro read
    cases read with
    | getFillsHistory _ _ => exact .moveLast _ a _
    | _ => exact .of_perm (fun item => SameRecord.refl _ (.dict item)) (.refl _)
  obtain ⟨replies', hsame, hrecords⟩ := exists_rearranged replies (onFills (moveLast a)) hf
    (fun read => by cases read <;> rfl)
  have halgo : algoBlocks replies' = algoBlocks replies :=
    List.map_congr_left (forall_algoReads
      (P := fun read => recordsOf replies' read = recordsOf replies read)
      (fun _ _ _ => hrecords _) (fun _ _ _ => hrecords _) _)
  refine ⟨replies', hsame, hrecords _, ?_⟩
  rw [closingBlocks, closingBlocks, hrecords, hrecords, halgo]
  rfl

omit [Runtime] in
theorem exists_perm_concat {α : Type} {a : α} {l : List α} (h : a ∈ l) :
    ∃ front, l.Perm (front ++ [a]) := by
  obtain ⟨front, rest, rfl⟩ := List.append_of_mem h
  exact ⟨front ++ rest, List.perm_middle.trans (List.perm_append_singleton _ _).symm⟩

/-- Other accounts in place of those of a reply that has any. -/
def onBalances (accounts : List Dict) : OkxRead → List Dict → List Dict
  | .getAccountBalance, items => if items.isEmpty then [] else accounts
  | _, items => items

/-- A detail brought to the end of its account, and the account to the end of all. -/
theorem exists_moved_detail (replies : Replies) {detail : Dict}
    (h : detail ∈ (recordsOf replies .getAccountBalance).flatMap accountDetails) :
    ∃ replies' front, SameReplies replies replies' ∧
      (recordsOf replies' .getAccountBalance).flatMap accountDetails = front ++ [detail] := by
  obtain ⟨account, haccount, hdetail⟩ := List.mem_flatMap.mp h
  obtain ⟨accounts, haccounts⟩ := exists_perm_concat haccount
  unfold accountDetails at hdetail
  split at hdetail
  · rename_i details hdetails
    obtain ⟨v, hv, hdict⟩ := List.mem_filterMap.mp hdetail
    obtain ⟨others, hothers⟩ := exists_perm_concat hv
    have hdetail : v = .dict detail := by
      cases v with
      | dict entries => exact congrArg _ (Option.some.inj hdict)
      | none | bool | int | float | str | list | tuple => cases hdict
    subst hdetail
    have hget : Dict.get? account "details" = some (.list details) :=
      (Dict.get_eq_iff (by simp)).mp hdetails
    let account' := Dict.set account "details" (.list (others ++ [.dict detail]))
    have haccount' : SameItem .getAccountBalance account account' :=
      SameDict.list hget (.of_perm (fun _ => rfl) hothers)
    have hmoved : onBalances (accounts ++ [account']) .getAccountBalance
        (recordsOf replies .getAccountBalance) = accounts ++ [account'] :=
      if_neg fun hnil => List.ne_nil_of_mem haccount (List.isEmpty_iff.mp hnil)
    have hf : ∀ read, Reordered (SameItem read) (recordsOf replies read)
        (onBalances (accounts ++ [account']) read (recordsOf replies read)) := by
      intro read
      cases read with
      | getAccountBalance =>
          rw [hmoved]
          refine ⟨_, haccounts, List.rel_append ?_ (.cons haccount' .nil)⟩
          exact List.forall₂_same.mpr fun item _ => SameRecord.refl _ (.dict item)
      | _ => exact .of_perm (fun item => SameRecord.refl _ (.dict item)) (.refl _)
    obtain ⟨replies', hsame, hrecords⟩ := exists_rearranged replies
      (onBalances (accounts ++ [account'])) hf (fun read => by cases read <;> rfl)
    have hbalances : recordsOf replies' .getAccountBalance = accounts ++ [account'] :=
      (hrecords _).trans hmoved
    have hlast : accountDetails account' = others.filterMap Value.dict? ++ [detail] := by
      rw [accountDetails, Dict.get_of_get? (Dict.get?_set_self _ _ _)]
      exact List.filterMap_append
    refine ⟨replies', accounts.flatMap accountDetails ++ others.filterMap Value.dict?, hsame, ?_⟩
    rw [hbalances, List.flatMap_append, List.flatMap_singleton, hlast, List.append_assoc]
  · exact absurd hdetail List.not_mem_nil

theorem fillSorts_subset {a b : Dict} (h : Agree fillReads a b) :
    Agree fillSorts a b := by
  intro read hread
  refine h read ?_
  simp only [fillSorts, List.mem_cons, List.not_mem_nil, or_false] at hread
  rcases hread with rfl | rfl | rfl <;> simp [fillReads]

/-- A fill that has no tie is labelled the same in two orders that make one list. -/
theorem fillCloseSource_eq_of_sorted {sources sources' : List (String × String)}
    {fills fills' : List Dict} (htie : (fillListing sources).TieFree fills)
    (h : (fillListing sources').sorted fills' = (fillListing sources).sorted fills) {fill : Dict}
    (hfill : fill ∈ fills) (hfill' : fill ∈ fills') :
    fillCloseSource fill sources = fillCloseSource fill sources' := by
  have hmem : fillEntry sources' fill ∈ (fillListing sources).sorted fills := by
    rw [← h]
    exact (List.perm_insertionSort _ _).mem_iff.mpr (List.mem_map_of_mem hfill')
  obtain ⟨other, hother, heq⟩ := List.mem_map.mp ((List.perm_insertionSort _ _).mem_iff.mp hmem)
  obtain ⟨hreads, hlabel⟩ := fillEntry_eq_iff.mp heq
  have hentry := ((fillListing sources).entry_iff other fill).mpr
    (htie other hother fill hfill (fillSorts_subset hreads))
  exact (fillEntry_eq_iff.mp hentry).2.symm.trans hlabel

/-- A list that is the same in every order has no ties. -/
theorem OrderIndependent.tieFree [DecidableEq Dict] (h : OrderIndependent replies now)
    (hread : Readable replies) {listing : Listing} {read : OkxRead}
    (hlists : ∀ replies', SameLists (recordsIn replies') (recordsIn replies) →
      listing.sorted (recordsOf replies' read) = listing.sorted (recordsOf replies read)) :
    listing.TieFree (recordsOf replies read) := by
  refine Listing.tieFree_of_sorted fun a => ?_
  obtain ⟨replies', hsame, hmoved⟩ := exists_moved replies a
  rw [← hmoved]
  exact hlists replies' (h.sameLists hread hsame)

theorem OrderIndependent.unambiguous (h : OrderIndependent replies now) (hread : Readable replies) :
    Unambiguous replies := by
  classical
  have hfills : (fillListing (closeSourcesByOrderRef (closingBlocks replies).flatten)).TieFree
      (recordsOf replies (.getFillsHistory "SWAP" "100")) := by
    refine Listing.tieFree_of_sorted fun a => ?_
    obtain ⟨replies', hsame, hmoved, hclosing⟩ := exists_moved_fill replies a
    have hlists := (h.sameLists hread hsame).fills
    rw [closeSources_recordsIn, closeSources_recordsIn, hclosing] at hlists
    rw [← hmoved]
    exact hlists
  have hsources : ∀ fill ∈ recordsOf replies (.getFillsHistory "SWAP" "100"),
      ∀ item ∈ deciding (closingBlocks replies) fill,
        fillCloseSource fill (closeSourcesByOrderRef (closingBlocks replies).flatten) =
          inferCloseSource item := by
    intro fill hfill item hitem
    obtain ⟨replies', hsame, hmoved⟩ := exists_moved replies item
    have hlists := (h.sameLists hread hsame).fills
    rw [closeSources_recordsIn, closeSources_recordsIn] at hlists
    have hfill' : fill ∈ recordsOf replies' (.getFillsHistory "SWAP" "100") := by
      rw [hmoved]
      exact (moveLast_perm item _).mem_iff.mpr hfill
    rw [fillCloseSource_eq_of_sorted hfills hlists hfill hfill', closingBlocks_of_moved hmoved,
      fillCloseSource_flatten, deciding_moveLast, getLast?_moveLast hitem, Option.map_some,
      Option.getD_some]
  have hone : ∀ fill ∈ recordsOf replies (.getFillsHistory "SWAP" "100"),
      OneSource (closingBlocks replies) fill := by
    intro fill hfill item hitem other hother
    rw [← hsources fill hfill item hitem, ← hsources fill hfill other hother]
  refine ⟨?_, ?_, ?_, ?_, ?_, (fillListing_tieFree_iff hone).mp hfills, hone⟩
  · intro a ha b hb htie
    obtain ⟨replies₁, front₁, hsame₁, hlast₁⟩ := exists_moved_detail replies ha
    obtain ⟨replies₂, front₂, hsame₂, hlast₂⟩ := exists_moved_detail replies hb
    have hlists : balanceListing.sorted (front₁ ++ [a]) =
        balanceListing.sorted (front₂ ++ [b]) := by
      rw [← hlast₁, ← hlast₂]
      exact (h.sameLists hread hsame₁).balances.trans (h.sameLists hread hsame₂).balances.symm
    exact Listing.agree_of_sorted_concat hlists htie
  · exact h.tieFree hread fun _ hlists => hlists.positions
  · exact h.tieFree hread fun _ hlists => hlists.orders
  · exact h.tieFree hread fun _ hlists => hlists.orderHistory
  · refine Listing.tieFree_of_sorted_flatten fun a => ?_
    obtain ⟨replies', hsame, hmoved⟩ := exists_moved replies a
    rw [← algoBlocks_of_moved hmoved]
    exact (h.sameLists hread hsame).algoOrders

/-- **A snapshot does not depend on the order of the records exactly when** the replies can be read
and are unambiguous, or cannot be read. -/
theorem order_independent_iff (replies : Replies) (now : Instant) :
    OrderIndependent replies now ↔ (Readable replies → Unambiguous replies) := by
  constructor
  · exact fun h hread => h.unambiguous hread
  · intro h replies' hsame
    rw [snapshot?_eq, snapshot?_eq]
    by_cases hread : Readable replies
    · rw [captured?_of_readable hread, captured?_of_readable (hsame.readable_iff.mp hread),
        Option.bind_some, Option.bind_some,
        (snapshotOf_eq_iff hsame.warnings_eq now).mpr ((h hread).sameLists hsame)]
    · rw [captured?_of_not_readable hread,
        captured?_of_not_readable fun hread' => hread (hsame.readable_iff.mpr hread')]

end Captures

/-! ### One account in two orders -/

namespace Sample

/-- One of two stops of the order, each with the order's client id. -/
def linkedStop (algoId actualSide : String) : Dict :=
  [("actualSide", actualSide), ("algoId", algoId), ("clOrdId", okxClientOrderId "client-1"),
    ("instId", "BTC-USDT-SWAP"), ("ordType", "conditional"), ("side", "sell"),
    ("state", "effective")]

def takeProfit : Dict := linkedStop "algo-1" "tp"

def stopLoss : Dict := linkedStop "algo-2" "sl"

/-- An OKX account with a fill and these stops of its order. -/
def linkedAccount (stops : List Dict) : Replies
  | .getFillsHistory _ _ => .ok (okxReply [fill])
  | .orderAlgosHistory ordType _ _ => .ok (okxReply (if ordType = "conditional" then stops else []))
  | _ => .ok (okxReply [])

theorem sameReplies_linkedAccount {stops stops' : List Dict} (h : stops.Perm stops') :
    SameReplies (linkedAccount stops) (linkedAccount stops') := by
  intro read
  cases read with
  | orderAlgosHistory ordType instType limit =>
      have hstops : (if ordType = "conditional" then stops else []).Perm
          (if ordType = "conditional" then stops' else []) := by
        split
        · exact h
        · exact .nil
      exact SameDict.list rfl (.of_perm (fun _ => rfl) (hstops.map Value.dict))
  | _ => exact SameReply.refl _ _

/-- A fill of the account is said to be closed so. -/
def closedBy [Runtime] (source : String) (stops : List Dict) : Bool :=
  ((fillListing (recordsIn (linkedAccount stops)).closeSources).sorted
    (recordsIn (linkedAccount stops)).fills).any fun entry =>
      (entry.get "closeSource").isText source

end Sample

/-- The fill is said to be closed by the stop that comes last in its reply. -/
theorem order_of_stops_shows :
    ¬@OrderIndependent Sample.runtime (Sample.linkedAccount [Sample.takeProfit, Sample.stopLoss])
      1778407200000000 := by
  intro h
  have hread : @Readable Sample.runtime
      (Sample.linkedAccount [Sample.takeProfit, Sample.stopLoss]) := by
    unfold Readable
    decide +kernel
  have hsame := Sample.sameReplies_linkedAccount (.swap Sample.stopLoss Sample.takeProfit [])
  obtain ⟨_, _, hfills, _, _, _⟩ := @OrderIndependent.sameLists Sample.runtime _ _ _ h hread hsame
  have hlast : @Sample.closedBy Sample.runtime "stop_loss" [Sample.takeProfit, Sample.stopLoss] =
      true := by
    decide +kernel
  have hfirst : @Sample.closedBy Sample.runtime "stop_loss" [Sample.stopLoss, Sample.takeProfit] =
      false := by
    decide +kernel
  unfold Sample.closedBy at hlast hfirst
  rw [← hfills, hfirst] at hlast
  cases hlast

end Reconciliation

end YtmExecutor
