/-
OKX's replies with their records in another order.

What a capture comes to is a matter of the records that its replies hold
(`toOption_captureRecords`).  Two replies may differ in nothing but the order of their
records, and those of the balances also in the order of each account's details
(`SameReply`).  Such replies are read alike (`records?_rel`), and every order of the records
of one reply is that of another (`exists_replies`).
-/
import YtmExecutor.FillSources
import YtmExecutor.Python.Reordering

namespace YtmExecutor

open Python Interaction Prog

namespace Reconciliation

/-! ### Replies in another order -/

/-- The same items up to `same`, in any order. -/
def Reordered {α : Type} (same : α → α → Prop) (items items' : List α) : Prop :=
  ∃ mid, items.Perm mid ∧ List.Forall₂ same mid items'

/-- The same dict, but for the order of the list under a key. -/
inductive SameDict (key : String) (same : Value → Value → Prop) : Value → Value → Prop
  | refl (v : Value) : SameDict key same v v
  | list {fields : Dict} {items items' : List Value}
      (hitems : Dict.get? fields key = some (.list items)) (hsame : Reordered same items items') :
      SameDict key same (.dict fields) (.dict (Dict.set fields key (.list items')))

/-- Whether two records of a read are the same. -/
def SameRecord : OkxRead → Value → Value → Prop
  | .getAccountBalance => SameDict "details" Eq
  | _ => Eq

/-- Two answers to a read, but for the order of their records. -/
def SameReply (read : OkxRead) : Except PyError Value → Except PyError Value → Prop
  | .ok v, .ok v' => SameDict "data" (SameRecord read) v v'
  | .error e, .error e' => e = e'
  | _, _ => False

/-- The answers to all reads. -/
abbrev Replies := OkxRead → Except PyError Value

def SameReplies (replies replies' : Replies) : Prop :=
  ∀ read, SameReply read (replies read) (replies' read)

theorem SameReply.refl (read : OkxRead) (reply : Except PyError Value) :
    SameReply read reply reply := by
  cases reply with
  | ok v => exact SameDict.refl v
  | error e => exact rfl

theorem SameRecord.refl (read : OkxRead) (v : Value) : SameRecord read v v := by
  unfold SameRecord
  split
  · exact SameDict.refl v
  · rfl

/-- Two records that are the same differ at most in the order of some details. -/
theorem SameRecord.sameDict {read : OkxRead} {v v' : Value} (h : SameRecord read v v') :
    SameDict "details" Eq v v' := by
  unfold SameRecord at h
  split at h
  · exact h
  · exact h ▸ SameDict.refl v

theorem Reordered.of_perm {α : Type} {same : α → α → Prop} (hrefl : ∀ a, same a a)
    {items items' : List α} (h : items.Perm items') : Reordered same items items' :=
  ⟨items', h, List.forall₂_same.mpr fun a _ => hrefl a⟩

theorem Reordered.perm {α : Type} {items items' : List α} (h : Reordered Eq items items') :
    items.Perm items' := by
  obtain ⟨mid, hperm, heq⟩ := h
  rw [List.forall₂_eq_eq_eq] at heq
  exact heq ▸ hperm

theorem Reordered.forall_iff {α : Type} {same : α → α → Prop} {items items' : List α}
    (h : Reordered same items items') {P : α → Prop} (hP : ∀ a a', same a a' → (P a ↔ P a')) :
    (∀ a ∈ items, P a) ↔ ∀ a ∈ items', P a := by
  obtain ⟨mid, hperm, hsame⟩ := h
  have hmid : (∀ a ∈ items, P a) ↔ ∀ a ∈ mid, P a :=
    forall_congr' fun a => imp_congr_left hperm.mem_iff
  rw [hmid]
  clear hmid hperm
  induction hsame with
  | nil => rfl
  | cons hhead _ ih =>
      rw [List.forall_mem_cons, List.forall_mem_cons]
      exact and_congr (hP _ _ hhead) ih

/-! ### Reading a reply -/

section Reading

variable [Runtime]

/-- The records of a reply, if it can be read. -/
def records? (reply : Except PyError Value) : Option (List Dict) :=
  (reply >>= fun v => okxResponseData v "").toOption

theorem records?_eq_some {reply : Except PyError Value} {items : List Dict} :
    records? reply = some items ↔ ∃ fields, reply = .ok (.dict fields) ∧
      ((Dict.get fields "code").pyOr "").toText = "0" ∧ dataItems fields = some items ∧
        ∀ item ∈ items, passesGuard (.dict item) = true := by
  rw [records?, toOption_eq_some, bind_eq_ok]
  constructor
  · rintro ⟨v, rfl, h⟩
    obtain ⟨fields, rfl, hrest⟩ := okxResponseData_eq_ok.mp h
    exact ⟨fields, rfl, hrest⟩
  · rintro ⟨fields, rfl, hrest⟩
    exact ⟨_, rfl, okxResponseData_eq_ok.mpr ⟨fields, rfl, hrest⟩⟩

/-- The endpoint is named in messages only. -/
theorem toOption_okxResponseData (reply : Except PyError Value) (endpoint : String) :
    (reply >>= fun v => okxResponseData v endpoint).toOption = records? reply := by
  ext items
  rw [records?, toOption_eq_some, toOption_eq_some, bind_eq_ok, bind_eq_ok]
  simp only [okxResponseData_eq_ok]

/-- A dict that the guard lets pass. -/
def IsRecord (item : Value) : Prop := item.dict?.isSome ∧ passesGuard item = true

/-- A list under `data` is read if it holds nothing but records. -/
theorem records?_of_list {fields : Dict} {items : List Value}
    (h : Dict.get? fields "data" = some (.list items)) (dicts : List Dict) :
    records? (.ok (.dict fields)) = some dicts ↔
      ((Dict.get fields "code").pyOr "").toText = "0" ∧ (∀ item ∈ items, IsRecord item) ∧
        dicts = items.filterMap Value.dict? := by
  have hblank : ¬(Dict.get fields "data").isNoneOrEmpty = true := by
    rw [Dict.get_of_get? h]
    exact Bool.false_ne_true
  rw [records?_eq_some]
  constructor
  · rintro ⟨_, hfields, hcode, hdata, hpass⟩
    cases hfields
    rw [dataItems_eq_some, or_iff_left fun hc => hblank hc.2, h] at hdata
    cases hdata
    refine ⟨hcode, ?_, ?_⟩
    · rw [List.forall_mem_map]
      exact fun item hitem => ⟨rfl, hpass item hitem⟩
    · rw [List.filterMap_map]
      exact (List.filterMap_some (l := dicts)).symm
  · rintro ⟨hcode, hrecords, rfl⟩
    have hitems : items = (items.filterMap Value.dict?).map .dict := by
      clear h
      induction items with
      | nil => rfl
      | cons item rest ih =>
          rw [List.forall_mem_cons] at hrecords
          cases item with
          | dict entries => rw [List.filterMap_cons_some (by rfl), List.map_cons, ← ih hrecords.2]
          | none | bool | int | float | str | list | tuple => cases hrecords.1.1
    refine ⟨fields, rfl, hcode, dataItems_eq_some.mpr (Or.inl ?_), fun item hitem => ?_⟩
    · rw [← hitems]
      exact h
    · refine (hrecords (.dict item) ?_).2
      rw [hitems]
      exact List.mem_map_of_mem hitem

/-- A list in place of one the guard takes the same way. -/
theorem entriesPassGuard_set {d : Dict} {key : String} {v v' : Value}
    (h : Dict.get? d key = some v) (hv : passesGuard v = passesGuard v') :
    entriesPassGuard (Dict.set d key v') = entriesPassGuard d := by
  induction d with
  | nil => cases h
  | cons entry rest ih =>
      obtain ⟨k, w⟩ := entry
      rw [Dict.get?] at h
      rw [Dict.set]
      by_cases hkey : k = .str key
      · rw [if_pos hkey] at h
        cases h
        rw [if_pos hkey, entriesPassGuard, entriesPassGuard, hkey, hv]
      · rw [if_neg hkey] at h
        rw [if_neg hkey, entriesPassGuard, entriesPassGuard, ih h]

theorem SameDict.isRecord_iff {v v' : Value} (h : SameDict "details" Eq v v') :
    IsRecord v ↔ IsRecord v' := by
  cases h with
  | refl => rfl
  | list hitems hsame =>
      refine and_congr Iff.rfl ?_
      rw [passesGuard, passesGuard, entriesPassGuard_set hitems]
      rw [Bool.eq_iff_iff, passesGuard, passesGuard, itemsPassGuard_iff, itemsPassGuard_iff]
      exact hsame.forall_iff fun a a' heq => by rw [heq]

/-- The same dict, for a read. -/
def SameItem (read : OkxRead) (item item' : Dict) : Prop :=
  SameRecord read (.dict item) (.dict item')

omit [Runtime] in
theorem SameRecord.dict? {read : OkxRead} {v v' : Value} (h : SameRecord read v v') :
    Option.Rel (SameItem read) v.dict? v'.dict? := by
  have hsame := h
  unfold SameRecord at hsame
  split at hsame
  · cases hsame with
    | refl =>
        cases v with
        | dict entries => exact .some h
        | none | bool | int | float | str | list | tuple => exact .none
    | list => exact .some h
  · cases hsame
    cases v with
    | dict entries => exact .some h
    | none | bool | int | float | str | list | tuple => exact .none

/-- **Replies that differ in the order of their records are read alike.** -/
theorem SameReply.records? {read : OkxRead} {reply reply' : Except PyError Value}
    (h : SameReply read reply reply') :
    Option.Rel (Reordered (SameItem read)) (Reconciliation.records? reply)
      (Reconciliation.records? reply') := by
  have hrefl (reply : Except PyError Value) : Option.Rel (Reordered (SameItem read))
      (Reconciliation.records? reply) (Reconciliation.records? reply) := by
    cases Reconciliation.records? reply with
    | none => exact .none
    | some items =>
        exact .some (Reordered.of_perm (fun item => SameRecord.refl read (.dict item)) (.refl items))
  unfold SameReply at h
  split at h
  · cases h with
    | refl => exact hrefl _
    | list hitems hsame =>
        rename_i fields items items'
        have hitems' := Dict.get?_set_self fields "data" (.list items')
        have hcode : Dict.get (Dict.set fields "data" (.list items')) "code" =
            Dict.get fields "code" := by
          rw [Dict.get, Dict.get, Dict.get?_set_other _ _ (by decide)]
        have hrecords := hsame.forall_iff fun _ _ h => h.sameDict.isRecord_iff
        have hdicts : Reordered (SameItem read) (items.filterMap Value.dict?)
            (items'.filterMap Value.dict?) := by
          obtain ⟨mid, hperm, hmid⟩ := hsame
          exact ⟨mid.filterMap Value.dict?, hperm.filterMap _,
            List.rel_filterMap (fun _ _ h => h.dict?) hmid⟩
        have hread := records?_of_list hitems
        have hread' := records?_of_list hitems'
        rw [hcode, ← hrecords] at hread'
        cases hfound : Reconciliation.records? (.ok (.dict fields)) with
        | none =>
            cases hfound' : Reconciliation.records?
                (.ok (.dict (Dict.set fields "data" (.list items')))) with
            | none => exact .none
            | some dicts =>
                obtain ⟨hzero, hall, _⟩ := (hread' dicts).mp hfound'
                rw [(hread _).mpr ⟨hzero, hall, rfl⟩] at hfound
                cases hfound
        | some dicts =>
            obtain ⟨hzero, hall, rfl⟩ := (hread dicts).mp hfound
            rw [(hread' _).mpr ⟨hzero, hall, rfl⟩]
            exact .some hdicts
  · cases h
    exact hrefl _
  · cases h

/-- **Every order of the records is that of some reply.** -/
theorem exists_reply {read : OkxRead} {reply : Except PyError Value} {items items' : List Dict}
    (h : records? reply = some items) (hsame : Reordered (SameItem read) items items') :
    ∃ reply', SameReply read reply reply' ∧ records? reply' = some items' := by
  obtain ⟨fields, rfl, hcode, hdata, hpass⟩ := records?_eq_some.mp h
  rcases dataItems_eq_some.mp hdata with hlist | ⟨rfl, _⟩
  · have hvalues : Reordered (SameRecord read) (items.map .dict) (items'.map .dict) := by
      obtain ⟨mid, hperm, hmid⟩ := hsame
      refine ⟨mid.map .dict, hperm.map _, ?_⟩
      rw [List.forall₂_map_left_iff, List.forall₂_map_right_iff]
      exact hmid
    have hreply : SameReply read (.ok (.dict fields))
        (.ok (.dict (Dict.set fields "data" (.list (items'.map .dict))))) :=
      SameDict.list hlist hvalues
    refine ⟨_, hreply, (records?_of_list (Dict.get?_set_self _ _ _) _).mpr ⟨?_, ?_, ?_⟩⟩
    · rw [Dict.get, Dict.get?_set_other _ _ (by decide)]
      exact hcode
    · refine (hvalues.forall_iff fun _ _ h => h.sameDict.isRecord_iff).mp ?_
      rw [List.forall_mem_map]
      exact fun item hitem => ⟨rfl, hpass item hitem⟩
    · rw [List.filterMap_map]
      exact (List.filterMap_some (l := items')).symm
  · obtain ⟨mid, hperm, hmid⟩ := hsame
    cases hperm.nil_eq
    cases hmid
    exact ⟨_, SameReply.refl read _, h⟩

/-- The same for all reads at once. -/
theorem exists_replies (replies : Replies) (f : OkxRead → List Dict → List Dict)
    (hf : ∀ read items, records? (replies read) = some items →
      Reordered (SameItem read) items (f read items)) :
    ∃ replies', SameReplies replies replies' ∧
      ∀ read, records? (replies' read) = (records? (replies read)).map (f read) := by
  have hread : ∀ read, ∃ reply', SameReply read (replies read) reply' ∧
      records? reply' = (records? (replies read)).map (f read) := by
    intro read
    cases hrecords : records? (replies read) with
    | none => exact ⟨replies read, SameReply.refl _ _, hrecords⟩
    | some items =>
        obtain ⟨reply', hsame, hreply'⟩ := exists_reply hrecords (hf read items hrecords)
        exact ⟨reply', hsame, hreply'⟩
  choose replies' hsame hrecords using hread
  exact ⟨replies', hsame, hrecords⟩

end Reading

/-! ### What a capture reads -/

section Capture

variable [Runtime]

/-- The reads of algo orders, each with its name. -/
def algoReads : List String → List (OkxRead × String)
  | [] => []
  | ordType :: rest =>
      (.orderAlgosList ordType "SWAP" "100", "algo_orders_pending_" ++ ordType) ::
        (.orderAlgosHistory ordType "SWAP" "100", "algo_orders_history_" ++ ordType) ::
          algoReads rest

/-- The records of a reply, none if it cannot be read. -/
def recordsOf (replies : Replies) (read : OkxRead) : List Dict := (records? (replies read)).getD []

/-- The algo orders of each reply. -/
def algoBlocks (replies : Replies) : List (List Dict) :=
  (algoReads okxReconciliationAlgoOrderTypes).map fun read => recordsOf replies read.1

def algoWarnings (replies : Replies) (reads : List (OkxRead × String)) : List String :=
  reads.flatMap fun read =>
    if (records? (replies read.1)).isNone then [read.2 ++ "_unavailable"] else []

/-- The records of a capture, if the replies it needs can be read. -/
def captured? (replies : Replies) : Option OkxRecords := do
  let balances ← records? (replies .getAccountBalance)
  let positions ← records? (replies (.getPositions "SWAP"))
  let orders ← records? (replies (.getOrderList "SWAP"))
  let orderHistory ← records? (replies (.getOrdersHistory "SWAP" "100"))
  let fills ← records? (replies (.getFillsHistory "SWAP" "100"))
  return ⟨balances, positions, orders, orderHistory, (algoBlocks replies).flatten, fills,
    algoWarnings replies (algoReads okxReconciliationAlgoOrderTypes)⟩

theorem toOption_okxData (replies : Replies) (read : OkxRead) (endpoint : String) :
    (outcome replies (okxData perform read endpoint)).toOption = records? (replies read) := by
  rw [okxData, outcome_bind, outcome_perform]
  simp only [lift_eq, outcome_ofExcept]
  exact toOption_okxResponseData _ endpoint

theorem outcome_optional (replies : Replies) (read : OkxRead) (endpoint : String) :
    outcome replies (optionalOkxResponseData perform read endpoint) =
      .ok (recordsOf replies read,
        if (records? (replies read)).isNone then [endpoint ++ "_unavailable"] else []) := by
  rw [optionalOkxResponseData, outcome_handle, outcome_bind, recordsOf,
    ← toOption_okxData _ _ endpoint]
  cases outcome replies (okxData perform read endpoint) <;> rfl

theorem outcome_captureAlgoOrders (replies : Replies) (types : List String) :
    outcome replies (captureAlgoOrders perform types) =
      .ok (((algoReads types).map fun read => recordsOf replies read.1).flatten,
        algoWarnings replies (algoReads types)) := by
  induction types with
  | nil => rfl
  | cons ordType rest ih =>
      rw [captureAlgoOrders, outcome_bind, outcome_optional]
      show outcome replies _ = _
      rw [outcome_bind, outcome_optional]
      show outcome replies _ = _
      rw [outcome_bind, ih]
      rfl

theorem toOption_captureRecords (replies : Replies) :
    (outcome replies (captureRecords perform)).toOption = captured? replies := by
  simp only [captureRecords, outcome_bind, toOption_bind, toOption_okxData,
    outcome_captureAlgoOrders]
  rfl

end Capture

end Reconciliation

end YtmExecutor
