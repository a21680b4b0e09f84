/-
A ledger: results that are committed once and reported any number of times.

For each id there is at most one committed result, and it stays.  What is reported of an
id is the committed result if there is one.  Some results may be committed (`may`), and
some must be before they are reported (`must`); of the others only those are reported that
have no committed result beside them.

This is what a service with a cache of results is for: whoever asks again is told the
same.  `reports_agree` and `later_reports` say so for every run.
-/
import Mathlib.Logic.Relation
import Mathlib.Logic.Function.Basic

namespace Interaction

open Relation

structure Ledger (ι ρ : Type) where
  committed : ι → Option ρ
  /-- The reports, the first one first. -/
  reports : List (ι × ρ)

namespace Ledger

variable {ι ρ : Type} [DecidableEq ι]

def empty : Ledger ι ρ := ⟨fun _ => none, []⟩

def commit (l : Ledger ι ρ) (id : ι) (r : ρ) : Ledger ι ρ :=
  { l with committed := Function.update l.committed id (some r) }

def report (l : Ledger ι ρ) (id : ι) (r : ρ) : Ledger ι ρ :=
  { l with reports := l.reports ++ [(id, r)] }

/-- What may happen next. -/
inductive Next (may must : ι → ρ → Prop) : Ledger ι ρ → Ledger ι ρ → Prop
  | commit {l : Ledger ι ρ} {id : ι} {r : ρ} (hmay : may id r) (h : l.committed id = none) :
      Next may must l (l.commit id r)
  | report {l : Ledger ι ρ} {id : ι} {r : ρ}
      (h : l.committed id = some r ∨ l.committed id = none ∧ ¬must id r) :
      Next may must l (l.report id r)

variable {may must : ι → ρ → Prop} {l l' : Ledger ι ρ} {id : ι} {r r' : ρ}

theorem committed_commit (l : Ledger ι ρ) (id other : ι) (r : ρ) :
    (l.commit id r).committed other = if other = id then some r else l.committed other :=
  Function.update_apply _ _ _ _

/-! ### One step -/

theorem Next.committed_of_some (h : Next may must l l') (hr : l.committed id = some r) :
    l'.committed id = some r := by
  cases h with
  | @commit other _ _ hnone =>
      have hne : id ≠ other := by
        rintro rfl
        rw [hnone] at hr
        cases hr
      rw [committed_commit, if_neg hne]
      exact hr
  | report _ => exact hr

/-- Every report that had to be committed is, and only results that may be are. -/
structure Sound (may must : ι → ρ → Prop) (l : Ledger ι ρ) : Prop where
  reported : ∀ id r, (id, r) ∈ l.reports → must id r → l.committed id = some r
  committed : ∀ id r, l.committed id = some r → may id r

omit [DecidableEq ι] in
theorem sound_empty : Sound may must (empty : Ledger ι ρ) :=
  ⟨fun _ _ h => absurd h List.not_mem_nil, fun _ _ h => absurd h (Option.some_ne_none _).symm⟩

theorem Sound.next (hl : Sound may must l) (h : Next may must l l') : Sound may must l' := by
  refine ⟨fun id r hmem hmust => ?_, fun id r hcommitted => ?_⟩
  · cases h with
    | @commit other result hnew hnone =>
        have hnext : Next may must l (l.commit other result) := Next.commit hnew hnone
        exact hnext.committed_of_some (hl.reported id r hmem hmust)
    | @report other result hallowed =>
        rcases List.mem_append.mp hmem with hold | hnew
        · exact hl.reported id r hold hmust
        · obtain ⟨rfl, rfl⟩ := Prod.mk.inj (List.mem_singleton.mp hnew)
          rcases hallowed with hcommitted | ⟨_, hno⟩
          · exact hcommitted
          · exact absurd hmust hno
  · cases h with
    | @commit other result hmay _ =>
        rw [committed_commit] at hcommitted
        split at hcommitted
        · rename_i hid
          rw [hid, ← Option.some.inj hcommitted]
          exact hmay
        · exact hl.committed id r hcommitted
    | report _ => exact hl.committed id r hcommitted

/-! ### Runs -/

theorem committed_of_run (h : ReflTransGen (Next may must) l l') (hr : l.committed id = some r) :
    l'.committed id = some r := by
  induction h with
  | refl => exact hr
  | tail _ hnext ih => exact hnext.committed_of_some ih

theorem sound_of_run (h : ReflTransGen (Next may must) empty l) : Sound may must l := by
  induction h with
  | refl => exact sound_empty
  | tail _ hnext ih => exact ih.next hnext

/-- **Two reports of an id agree** if each of them had to be committed first. -/
theorem reports_agree (h : ReflTransGen (Next may must) empty l) (hr : (id, r) ∈ l.reports)
    (hr' : (id, r') ∈ l.reports) (hmust : must id r) (hmust' : must id r') : r = r' := by
  have hsound := sound_of_run h
  exact Option.some.inj
    ((hsound.reported id r hr hmust).symm.trans (hsound.reported id r' hr' hmust'))

/-- **Once a result is committed, it is all that is reported** of its id. -/
theorem later_reports (h : ReflTransGen (Next may must) l l') (hr : l.committed id = some r) :
    ∃ later, l'.reports = l.reports ++ later ∧ ∀ r', (id, r') ∈ later → r' = r := by
  induction h with
  | refl => exact ⟨[], (List.append_nil _).symm, fun _ h => absurd h List.not_mem_nil⟩
  | tail hbefore hnext ih =>
      obtain ⟨later, hlater, hall⟩ := ih
      cases hnext with
      | commit _ _ => exact ⟨later, hlater, hall⟩
      | @report other result hallowed =>
          refine ⟨later ++ [(other, result)], ?_, fun r' hmem => ?_⟩
          · rw [Ledger.report, hlater, List.append_assoc]
          · rcases List.mem_append.mp hmem with hold | hnew
            · exact hall r' hold
            · obtain ⟨rfl, rfl⟩ := Prod.mk.inj (List.mem_singleton.mp hnew)
              have hcommitted := committed_of_run hbefore hr
              rcases hallowed with hsame | ⟨hnone, _⟩
              · exact Option.some.inj (hsame.symm.trans hcommitted)
              · rw [hnone] at hcommitted
                cases hcommitted

end Ledger

end Interaction
