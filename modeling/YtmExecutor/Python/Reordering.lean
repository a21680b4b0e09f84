/-
What of a list depends on the order of its elements.

A stable sort keeps the order of the elements that have one key (`ofKey_sortBy`), and that
is all it keeps of the order: two lists are sorted into the same list exactly when they
have the same elements of every key in the same order (`sortBy_eq_iff`).  So a sort hides
in which order a list came exactly when elements with one key are equal.

The same is asked of blocks that come one after the other, each in an order of its own.
They are sorted into the same list exactly when no block has a tie
(`sortBy_flatten_of_noTies`, `noTies_of_sortBy_flatten`), and the last element that has a
property is one of the last block that has any (`find?_reverse_flatten`).  What shows that
an order matters is always the same move: one element to the end of its block
(`moveLast`).
-/
import Mathlib.Data.List.Forall2
import Mathlib.Data.List.Perm.Basic
import Mathlib.Data.List.Sort
import YtmExecutor.Python.Keyed

namespace Python.Reordering

open Keyed

/-! ### Sorting by a key -/

section Sorting

variable {α κ : Type} [LinearOrder κ] (key : α → κ)

/-- Sorted by the key; elements with one key stay in their order. -/
def sortBy (l : List α) : List α := l.insertionSort fun a b => key a ≤ key b

/-- Elements with one key are equal. -/
def NoTies (l : List α) : Prop := ∀ a ∈ l, ∀ b ∈ l, key a = key b → a = b

theorem sortBy_perm (l : List α) : (sortBy key l).Perm l := List.perm_insertionSort _ l

theorem sortBy_pairwise (l : List α) : (sortBy key l).Pairwise fun a b => key a ≤ key b := by
  have htotal : Std.Total fun a b => key a ≤ key b := ⟨fun a b => le_total (key a) (key b)⟩
  have htrans : IsTrans α fun a b => key a ≤ key b := ⟨fun _ _ _ => le_trans⟩
  exact List.pairwise_insertionSort _ l

/-- **A sort keeps the order of the elements of one key.** -/
theorem ofKey_sortBy (l : List α) (k : κ) : ofKey key (sortBy key l) k = ofKey key l k := by
  have hpairwise : (ofKey key l k).Pairwise fun a b => key a ≤ key b := by
    refine List.pairwise_of_forall_mem_list fun a ha b hb => ?_
    rw [key_of_mem_ofKey key ha, key_of_mem_ofKey key hb]
  have hsub : (ofKey key l k).Sublist (sortBy key l) :=
    List.sublist_insertionSort hpairwise List.filter_sublist
  have hfilter : (ofKey key l k).Sublist (ofKey key (sortBy key l) k) := by
    have h := hsub.filter fun a => decide (key a = k)
    rw [ofKey, List.filter_filter] at h
    simp only [Bool.and_self] at h
    exact h
  exact (hfilter.eq_of_length ((sortBy_perm key l).filter _).length_eq.symm).symm

theorem ofKey_cons (a : α) (l : List α) (k : κ) :
    ofKey key (a :: l) k = if key a = k then a :: ofKey key l k else ofKey key l k := by
  simp [ofKey, List.filter_cons]

variable {key}

/-- Sorted lists with the same elements of every key are equal. -/
theorem eq_of_ofKey {l l' : List α} (hl : l.Pairwise fun a b => key a ≤ key b)
    (hl' : l'.Pairwise fun a b => key a ≤ key b) (h : ∀ k, ofKey key l k = ofKey key l' k) :
    l = l' := by
  induction l generalizing l' with
  | nil =>
      refine (List.eq_nil_iff_forall_not_mem.mpr fun b hb => ?_).symm
      have hmem : b ∈ ofKey key l' (key b) := List.mem_filter.mpr ⟨hb, decide_eq_true rfl⟩
      rw [← h] at hmem
      exact List.not_mem_nil hmem
  | cons a rest ih =>
      cases l' with
      | nil =>
          have hmem : a ∈ ofKey key (a :: rest) (key a) :=
            List.mem_filter.mpr ⟨List.mem_cons_self, decide_eq_true rfl⟩
          rw [h] at hmem
          exact absurd hmem List.not_mem_nil
      | cons b rest' =>
          rw [List.pairwise_cons] at hl hl'
          have hmem : ∀ {c d : α} {t t' : List α}, (∀ x ∈ t', key d ≤ key x) →
              ofKey key (c :: t) (key c) = ofKey key (d :: t') (key c) → key d ≤ key c := by
            intro c d t t' hle heq
            have hc : c ∈ ofKey key (c :: t) (key c) :=
              List.mem_filter.mpr ⟨List.mem_cons_self, decide_eq_true rfl⟩
            rw [heq] at hc
            rcases List.mem_cons.mp (List.mem_filter.mp hc).1 with rfl | hc
            · exact le_refl _
            · exact hle c hc
          have hkey : key a = key b :=
            le_antisymm (hmem hl.1 (h (key b)).symm) (hmem hl'.1 (h (key a)))
          have hhead := h (key a)
          rw [ofKey_cons, ofKey_cons, if_pos rfl, if_pos hkey.symm] at hhead
          obtain ⟨rfl, _⟩ := List.cons.inj hhead
          rw [ih hl.2 hl'.2]
          intro k
          have hrest := h k
          rw [ofKey_cons, ofKey_cons] at hrest
          by_cases hk : key a = k
          · rw [if_pos hk, if_pos hk] at hrest
            exact (List.cons.inj hrest).2
          · rwa [if_neg hk, if_neg hk] at hrest

/-- **Two lists are sorted into the same list exactly when** they have the same elements of every
key in the same order. -/
theorem sortBy_eq_iff {l l' : List α} :
    sortBy key l = sortBy key l' ↔ ∀ k, ofKey key l k = ofKey key l' k := by
  constructor
  · intro h k
    rw [← ofKey_sortBy, h, ofKey_sortBy]
  · intro h
    refine eq_of_ofKey (sortBy_pairwise key l) (sortBy_pairwise key l') fun k => ?_
    rw [ofKey_sortBy, ofKey_sortBy, h]

/-- What is last of its key is seen. -/
theorem eq_of_sortBy_concat {l l' : List α} {a b : α}
    (h : sortBy key (l ++ [a]) = sortBy key (l' ++ [b])) (hkey : key a = key b) : a = b := by
  have hlast := sortBy_eq_iff.mp h (key b)
  rw [ofKey_append, ofKey_append, ofKey_singleton, ofKey_singleton, if_pos hkey,
    if_pos rfl] at hlast
  exact List.singleton_inj.mp (List.append_inj' hlast rfl).2

/-- Elements of one key without a tie are the same in every order. -/
theorem NoTies.ofKey_eq {l l' : List α} (h : NoTies key l) (hperm : l.Perm l') (k : κ) :
    ofKey key l k = ofKey key l' k := by
  have hall {l : List α} : l.Pairwise fun _ _ => True := List.pairwise_of_forall fun _ _ => trivial
  refine List.Perm.eq_of_pairwise ?_ hall hall (hperm.filter _)
  intro a b ha hb _ _
  refine h a (List.mem_filter.mp ha).1 b (hperm.mem_iff.mpr (List.mem_filter.mp hb).1) ?_
  rw [key_of_mem_ofKey key ha, key_of_mem_ofKey key hb]

theorem ofKey_flatten (blocks : List (List α)) (k : κ) :
    ofKey key blocks.flatten k = (blocks.map fun block => ofKey key block k).flatten :=
  List.filter_flatten

/-- **Blocks without ties are sorted into the same list** in whatever orders they come. -/
theorem sortBy_flatten_of_noTies {blocks blocks' : List (List α)}
    (hties : ∀ block ∈ blocks, NoTies key block) (h : List.Forall₂ List.Perm blocks blocks') :
    sortBy key blocks.flatten = sortBy key blocks'.flatten := by
  rw [sortBy_eq_iff]
  intro k
  rw [ofKey_flatten, ofKey_flatten]
  congr 1
  induction h with
  | nil => rfl
  | cons hperm _ ih =>
      rw [List.forall_mem_cons] at hties
      rw [List.map_cons, List.map_cons, hties.1.ofKey_eq hperm, ih hties.2]

end Sorting

/-! ### One element to the end -/

section MoveLast

variable {α : Type} [DecidableEq α]

/-- All that is not the element, and then all that is. -/
def moveLast (a : α) (l : List α) : List α := l.filter (fun b => !decide (b = a)) ++
  l.filter fun b => decide (b = a)

theorem moveLast_perm (a : α) (l : List α) : (moveLast a l).Perm l :=
  List.perm_append_comm.trans (List.filter_append_perm _ l)

theorem moveLast_of_mem {a : α} {l : List α} (h : a ∈ l) :
    ∃ front, moveLast a l = front ++ [a] := by
  have hmem : a ∈ l.filter fun b => decide (b = a) := List.mem_filter.mpr ⟨h, decide_eq_true rfl⟩
  rcases List.eq_nil_or_concat (l.filter fun b => decide (b = a)) with hnil | ⟨copies, last, hlast⟩
  · rw [hnil] at hmem
    exact absurd hmem List.not_mem_nil
  · have heq : last = a := by
      have hin : last ∈ l.filter fun b => decide (b = a) := by
        rw [hlast, List.concat_eq_append]
        exact List.mem_append_right _ List.mem_cons_self
      exact of_decide_eq_true (List.mem_filter.mp hin).2
    refine ⟨l.filter (fun b => !decide (b = a)) ++ copies, ?_⟩
    rw [moveLast, hlast, heq, List.concat_eq_append, List.append_assoc]

theorem getLast?_moveLast {a : α} {l : List α} (h : a ∈ l) : (moveLast a l).getLast? = some a := by
  obtain ⟨front, hfront⟩ := moveLast_of_mem h
  rw [hfront, List.getLast?_concat]

theorem filter_moveLast (p : α → Bool) (a : α) (l : List α) :
    (moveLast a l).filter p = moveLast a (l.filter p) := by
  rw [moveLast, moveLast, List.filter_append, List.filter_filter, List.filter_filter,
    List.filter_filter, List.filter_filter]
  simp only [Bool.and_comm]

end MoveLast

/-! ### Ties are seen -/

section Ties

variable {α β κ : Type} [DecidableEq α] [LinearOrder κ] {key : β → κ}

/-- The last element of a key that is brought to the end. -/
theorem getLast?_ofKey_moveLast (f : α → β) {a : α} {block : List α} (h : a ∈ block) :
    (ofKey key ((moveLast a block).map f) (key (f a))).getLast? = some (f a) := by
  obtain ⟨front, hfront⟩ := moveLast_of_mem h
  rw [hfront, List.map_append, ofKey_append, List.map_singleton, ofKey_singleton, if_pos rfl,
    List.getLast?_concat]

theorem ofKey_of_sortBy_flatten {f : α → β} {blocks : List (List α)} {a : α}
    (h : sortBy key ((blocks.map (moveLast a)).flatten.map f) = sortBy key (blocks.flatten.map f))
    (k : κ) {block : List α} (hblock : block ∈ blocks) :
    ofKey key ((moveLast a block).map f) k = ofKey key (block.map f) k := by
  have hflat := sortBy_eq_iff.mp h k
  rw [List.map_flatten, List.map_flatten, ofKey_flatten, ofKey_flatten, List.map_map, List.map_map,
    List.map_map] at hflat
  have hlengths : (blocks.map ((fun block => ofKey key block k) ∘ List.map f ∘ moveLast a)).map
      List.length = (blocks.map ((fun block => ofKey key block k) ∘ List.map f)).map List.length := by
    rw [List.map_map, List.map_map]
    exact List.map_congr_left fun block _ =>
      (((moveLast_perm a block).map f).filter _).length_eq
  exact List.map_inj_left.mp (List.eq_iff_flatten_eq.mpr ⟨hflat, hlengths⟩) block hblock

/-- **Blocks with a tie are not always sorted into the same list.** -/
theorem noTies_of_sortBy_flatten {f : α → β} {blocks : List (List α)}
    (h : ∀ a, sortBy key ((blocks.map (moveLast a)).flatten.map f) =
      sortBy key (blocks.flatten.map f)) :
    ∀ block ∈ blocks, NoTies key (block.map f) := by
  intro block hblock
  have hlast {a : α} (ha : a ∈ block) :
      (ofKey key (block.map f) (key (f a))).getLast? = some (f a) := by
    rw [← ofKey_of_sortBy_flatten (h a) _ hblock]
    exact getLast?_ofKey_moveLast f ha
  unfold NoTies
  simp only [List.forall_mem_map]
  intro a ha b hb hkey
  have ha' := hlast ha
  rw [hkey, hlast hb] at ha'
  exact (Option.some.inj ha').symm

end Ties

/-! ### The last block that has any -/

section LastBlock

variable {α : Type} (p : α → Bool)

/-- The elements with the property in the last block that has any. -/
def lastBlock : List (List α) → List α
  | [] => []
  | block :: rest => if (lastBlock rest).isEmpty then block.filter p else lastBlock rest

/-- The last element with the property is the last one of the last block that has any. -/
theorem find?_reverse_flatten (blocks : List (List α)) :
    blocks.flatten.reverse.find? p = (lastBlock p blocks).getLast? := by
  induction blocks with
  | nil => rfl
  | cons block rest ih =>
      rw [List.flatten_cons, List.reverse_append, List.find?_append, ih, lastBlock]
      split
      · rename_i hrest
        rw [List.isEmpty_iff.mp hrest, List.getLast?_nil, Option.none_or, ← List.head?_filter,
          List.filter_reverse, List.head?_reverse]
      · rename_i hrest
        rw [List.getLast?_eq_some_getLast fun hnil => hrest (List.isEmpty_iff.mpr hnil),
          Option.some_or]

theorem lastBlock_perm {blocks blocks' : List (List α)}
    (h : List.Forall₂ List.Perm blocks blocks') :
    (lastBlock p blocks).Perm (lastBlock p blocks') := by
  induction h with
  | nil => exact List.Perm.nil
  | cons hperm _ ih =>
      rw [lastBlock, lastBlock, ih.isEmpty_eq]
      split
      · exact hperm.filter p
      · exact ih

theorem of_mem_lastBlock {blocks : List (List α)} {a : α} (h : a ∈ lastBlock p blocks) :
    p a = true ∧ ∃ block ∈ blocks, a ∈ block := by
  induction blocks with
  | nil => exact absurd h List.not_mem_nil
  | cons block rest ih =>
      rw [lastBlock] at h
      split at h
      · obtain ⟨hmem, hp⟩ := List.mem_filter.mp h
        exact ⟨hp, block, List.mem_cons_self, hmem⟩
      · obtain ⟨hp, other, hother, hmem⟩ := ih h
        exact ⟨hp, other, List.mem_cons_of_mem _ hother, hmem⟩

theorem lastBlock_moveLast [DecidableEq α] (a : α) (blocks : List (List α)) :
    lastBlock p (blocks.map (moveLast a)) = moveLast a (lastBlock p blocks) := by
  induction blocks with
  | nil => rfl
  | cons block rest ih =>
      rw [List.map_cons, lastBlock, lastBlock, ih, (moveLast_perm a _).isEmpty_eq, filter_moveLast]
      split <;> rfl

end LastBlock

end Python.Reordering
