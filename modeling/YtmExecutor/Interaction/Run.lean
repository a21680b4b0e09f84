/-
Whole runs of a program, with everything that was said in them.

A transcript lists the calls of a run in order, each with its answer.  `Run p t out`
says that `p`, answered as `t` has it, makes the calls of `t` and no other and ends in
`out`.  A program always ends, so what is true of every run is true of every behaviour
of the world; `safe_iff_run` says so.

A run of a larger program falls apart into runs of its pieces (`run_bind`,
`run_handle`).  That is how a statement is proved that relates two calls of one run, or
two runs.
-/
import YtmExecutor.Interaction.Alike

namespace Interaction

/-- The calls of a run and their answers. -/
abbrev Transcript (C V ε : Type) := List (C × Except ε V)

namespace Prog

variable {C C' V ε α β : Type}

/-- Answered as in the transcript, the program makes these calls and ends in `out`. -/
def Run : Prog C V ε α → Transcript C V ε → Except ε α → Prop
  | done a, t, out => t = [] ∧ out = .ok a
  | raise e, t, out => t = [] ∧ out = .error e
  | call c k, t, out => ∃ r rest, t = (c, r) :: rest ∧ Run (k r) rest out

/-- A run that came to a value, not to be unfolded call by call. -/
structure Returns (p : Prog C V ε α) (t : Transcript C V ε) (a : α) : Prop where
  run : Run p t (.ok a)

variable {t t' : Transcript C V ε} {out out' : Except ε α}

theorem run_ofExcept {x : Except ε α} : Run (ofExcept x) t out ↔ t = [] ∧ out = x := by
  cases x <;> rfl

theorem run_perform {c : C} {answer : Except ε V} :
    Run (perform c) t answer ↔ t = [(c, answer)] := by
  constructor
  · rintro ⟨r, rest, rfl, hrun⟩
    obtain ⟨rfl, rfl⟩ := run_ofExcept.mp hrun
    rfl
  · rintro rfl
    exact ⟨answer, [], rfl, run_ofExcept.mpr ⟨rfl, rfl⟩⟩

/-- Alike programs have alike runs: the same answers, and the same outcome. -/
theorem Alike.run {same : C → C → Prop} {p q : Prog C V ε α} (h : Alike same p q)
    (hrun : Run p t out) :
    ∃ t', Run q t' out ∧ List.Forall₂ (fun x y => same x.1 y.1 ∧ x.2 = y.2) t t' := by
  induction h generalizing t with
  | done a | raise e =>
      obtain ⟨rfl, rfl⟩ := hrun
      exact ⟨[], ⟨rfl, rfl⟩, List.Forall₂.nil⟩
  | call hsame _ ih =>
      obtain ⟨r, rest, rfl, hrest⟩ := hrun
      obtain ⟨t', hrun', hrel⟩ := ih r hrest
      exact ⟨_, ⟨r, t', rfl, hrun'⟩, List.Forall₂.cons ⟨hsame, rfl⟩ hrel⟩

/-- A run that begins with a call. -/
theorem run_perform_bind {c : C} {f : V → Prog C V ε α} :
    Run (perform c >>= f) t out ↔
      ∃ answer rest, t = (c, answer) :: rest ∧ Run (ofExcept answer >>= f) rest out := Iff.rfl

/-- A run of `p >>= f` is a run of `p`, and one of `f` if the first came to a value. -/
theorem run_bind {f : α → Prog C V ε β} {out : Except ε β} (p : Prog C V ε α) :
    Run (p >>= f) t out ↔
      (∃ t₁ t₂ a, t = t₁ ++ t₂ ∧ Run p t₁ (.ok a) ∧ Run (f a) t₂ out) ∨
        ∃ e, out = .error e ∧ Run p t (.error e) := by
  induction p generalizing t with
  | done a =>
      constructor
      · exact fun h => Or.inl ⟨[], t, a, rfl, ⟨rfl, rfl⟩, h⟩
      · rintro (⟨_, _, _, rfl, ⟨rfl, ha⟩, h⟩ | ⟨_, _, _, h⟩)
        · cases ha
          exact h
        · cases h
  | raise e =>
      constructor
      · exact fun h => Or.inr ⟨e, h.2, h.1, rfl⟩
      · rintro (⟨_, _, _, _, ⟨_, h⟩, _⟩ | ⟨_, rfl, rfl, h⟩)
        · cases h
        · cases h
          exact ⟨rfl, rfl⟩
  | call c k ih =>
      constructor
      · rintro ⟨r, rest, rfl, h⟩
        rcases (ih r).mp h with ⟨t₁, t₂, a, rfl, hp, hf⟩ | ⟨e, rfl, hp⟩
        · exact Or.inl ⟨(c, r) :: t₁, t₂, a, rfl, ⟨r, t₁, rfl, hp⟩, hf⟩
        · exact Or.inr ⟨e, rfl, r, rest, rfl, hp⟩
      · rintro (⟨_, t₂, a, rfl, ⟨r, t₁, rfl, hp⟩, hf⟩ | ⟨e, rfl, r, rest, rfl, hp⟩)
        · exact ⟨r, t₁ ++ t₂, rfl, (ih r).mpr (Or.inl ⟨t₁, t₂, a, rfl, hp, hf⟩)⟩
        · exact ⟨r, rest, rfl, (ih r).mpr (Or.inr ⟨e, rfl, hp⟩)⟩

/-- A run that came to a value went through its first part. -/
theorem run_bind_ok {f : α → Prog C V ε β} {b : β} {p : Prog C V ε α} :
    Run (p >>= f) t (.ok b) ↔
      ∃ t₁ t₂ a, t = t₁ ++ t₂ ∧ Run p t₁ (.ok a) ∧ Run (f a) t₂ (.ok b) := by
  rw [run_bind]
  refine or_iff_left ?_
  rintro ⟨_, h, _⟩
  cases h

/-- A run that begins with one of `p` goes on as one of `f`. -/
theorem run_bind_append {f : α → Prog C V ε β} {out : Except ε β} {p : Prog C V ε α} {a : α}
    (h : Run p t (.ok a)) : Run (p >>= f) (t ++ t') out ↔ Run (f a) t' out := by
  induction p generalizing t with
  | done b =>
      obtain ⟨rfl, ha⟩ := h
      cases ha
      rfl
  | raise e =>
      obtain ⟨_, ha⟩ := h
      cases ha
  | call c k ih =>
      obtain ⟨r, rest, rfl, hrun⟩ := h
      rw [← ih r hrun]
      constructor
      · rintro ⟨_, _, ht, h⟩
        cases ht
        exact h
      · exact fun h => ⟨r, rest ++ t', rfl, h⟩

/-- Going on without a call. -/
theorem run_bind_ofExcept {g : α → Except ε β} {out : Except ε β} {p : Prog C V ε α} :
    Run (p >>= fun a => ofExcept (g a)) t out ↔ ∃ r, Run p t r ∧ out = r >>= g := by
  rw [run_bind]
  constructor
  · rintro (⟨_, _, a, rfl, hp, hg⟩ | ⟨e, rfl, hp⟩)
    · obtain ⟨rfl, rfl⟩ := run_ofExcept.mp hg
      exact ⟨.ok a, by rwa [List.append_nil], rfl⟩
    · exact ⟨.error e, hp, rfl⟩
  · rintro ⟨r, hp, rfl⟩
    cases r with
    | ok a => exact Or.inl ⟨t, [], a, (List.append_nil t).symm, hp, run_ofExcept.mpr ⟨rfl, rfl⟩⟩
    | error e => exact Or.inr ⟨e, rfl, hp⟩

/-- One call, and what is made of the answer. -/
theorem run_perform_ofExcept {c : C} {g : V → Except ε α} :
    Run (perform c >>= fun answer => ofExcept (g answer)) t out ↔
      ∃ answer, t = [(c, answer)] ∧ out = answer >>= g := by
  rw [run_bind_ofExcept]
  exact exists_congr fun answer => and_congr_left fun _ => run_perform

/-- A run that starts without a call. -/
theorem run_ofExcept_bind {f : α → Prog C V ε β} {out : Except ε β} {x : Except ε α} :
    Run (ofExcept x >>= f) t out ↔
      (∃ a, x = .ok a ∧ Run (f a) t out) ∨ ∃ e, x = .error e ∧ t = [] ∧ out = .error e := by
  cases x with
  | ok a => simp
  | error e => simp [Run]

theorem run_ofExcept_bind_ok {f : α → Prog C V ε β} {b : β} {x : Except ε α} :
    Run (ofExcept x >>= f) t (.ok b) ↔ ∃ a, x = .ok a ∧ Run (f a) t (.ok b) := by
  rw [run_ofExcept_bind]
  refine or_iff_left ?_
  rintro ⟨_, _, _, h⟩
  cases h

/-- A run of `p.handle h` is one of `p`, with one of the handler's program if it is taken. -/
theorem run_handle {h : ε → Option (Prog C V ε α)} (p : Prog C V ε α) :
    Run (p.handle h) t out ↔
      (Run p t out ∧ ∀ e, out = .error e → h e = none) ∨
        ∃ t₁ t₂ e q, t = t₁ ++ t₂ ∧ Run p t₁ (.error e) ∧ h e = some q ∧ Run q t₂ out := by
  induction p generalizing t with
  | done a =>
      constructor
      · exact fun hr => Or.inl ⟨hr, fun e he => by rw [hr.2] at he; cases he⟩
      · rintro (⟨hr, _⟩ | ⟨_, _, _, _, _, ⟨_, hr⟩, _⟩)
        · exact hr
        · cases hr
  | raise e =>
      show Run ((h e).getD (raise e)) t out ↔ _
      cases hq : h e with
      | none =>
          constructor
          · intro hr
            refine Or.inl ⟨hr, fun e' he => ?_⟩
            rw [hr.2] at he
            cases he
            exact hq
          · rintro (⟨hr, _⟩ | ⟨_, _, _, _, _, ⟨_, hr⟩, hsome, _⟩)
            · exact hr
            · cases hr
              rw [hq] at hsome
              cases hsome
      | some q =>
          constructor
          · exact fun hr => Or.inr ⟨[], t, e, q, rfl, ⟨rfl, rfl⟩, hq, hr⟩
          · rintro (⟨⟨_, hr⟩, hnone⟩ | ⟨_, _, _, _, rfl, ⟨rfl, hr⟩, hsome, hrun⟩)
            · rw [hnone e hr] at hq
              cases hq
            · cases hr
              rw [hq] at hsome
              cases hsome
              exact hrun
  | call c k ih =>
      constructor
      · rintro ⟨r, rest, rfl, hr⟩
        rcases (ih r).mp hr with ⟨hp, hnone⟩ | ⟨t₁, t₂, e, q, rfl, hp, hsome, hrun⟩
        · exact Or.inl ⟨⟨r, rest, rfl, hp⟩, hnone⟩
        · exact Or.inr ⟨(c, r) :: t₁, t₂, e, q, rfl, ⟨r, t₁, rfl, hp⟩, hsome, hrun⟩
      · rintro (⟨⟨r, rest, rfl, hp⟩, hnone⟩ | ⟨_, t₂, e, q, rfl, ⟨r, t₁, rfl, hp⟩, hsome, hrun⟩)
        · exact ⟨r, rest, rfl, (ih r).mpr (Or.inl ⟨hp, hnone⟩)⟩
        · exact ⟨r, t₁ ++ t₂, rfl, (ih r).mpr (Or.inr ⟨t₁, t₂, e, q, rfl, hp, hsome, hrun⟩)⟩

/-- A run under other names is a run. -/
theorem run_mapCalls {f : C → C'} {p : Prog C V ε α} {t : Transcript C' V ε} :
    Run (p.mapCalls f) t out ↔
      ∃ t₀ : Transcript C V ε, t = t₀.map (fun x => (f x.1, x.2)) ∧ Run p t₀ out := by
  induction p generalizing t with
  | done a =>
      constructor
      · rintro ⟨rfl, rfl⟩
        exact ⟨[], rfl, rfl, rfl⟩
      · rintro ⟨_, rfl, rfl, rfl⟩
        exact ⟨rfl, rfl⟩
  | raise e =>
      constructor
      · rintro ⟨rfl, rfl⟩
        exact ⟨[], rfl, rfl, rfl⟩
      · rintro ⟨_, rfl, rfl, rfl⟩
        exact ⟨rfl, rfl⟩
  | call c k ih =>
      constructor
      · rintro ⟨r, rest, rfl, h⟩
        obtain ⟨t₀, rfl, hrun⟩ := (ih r).mp h
        exact ⟨(c, r) :: t₀, rfl, r, t₀, rfl, hrun⟩
      · rintro ⟨_, rfl, r, t₀, rfl, hrun⟩
        exact ⟨r, _, rfl, (ih r).mpr ⟨t₀, rfl, hrun⟩⟩

/-! ### Runs and paths -/

/-- **What holds on every path holds of every run.** -/
theorem Safe.run {Q : C → Prop} {P : Except ε α → Prop} {p : Prog C V ε α}
    (h : Safe anyAnswer (fun _ c => Q c) (fun _ r => P r) p ()) (hrun : Run p t out) :
    (∀ x ∈ t, Q x.1) ∧ P out := by
  induction p generalizing t with
  | done a =>
      obtain ⟨rfl, rfl⟩ := hrun
      exact ⟨by simp, h⟩
  | raise e =>
      obtain ⟨rfl, rfl⟩ := hrun
      exact ⟨by simp, h⟩
  | call c k ih =>
      obtain ⟨r, rest, rfl, hrest⟩ := hrun
      obtain ⟨hall, hout⟩ := ih r (h.2 r () trivial) hrest
      exact ⟨List.forall_mem_cons.mpr ⟨h.1, hall⟩, hout⟩

theorem CallsOnly.run {Q : C → Prop} {p : Prog C V ε α} (h : CallsOnly Q p) (hrun : Run p t out) :
    ∀ x ∈ t, Q x.1 := (Safe.run h hrun).1

theorem Yields.run {P : Except ε α → Prop} {p : Prog C V ε α} (h : Yields P p)
    (hrun : Run p t out) : P out := (Safe.run (Q := fun _ => True) h hrun).2

/-! ### Computing a run -/

/-- The run of a program that is given a list of answers, if there are enough of them. -/
def transcribe : List (Except ε V) → Prog C V ε α → Option (Transcript C V ε × Except ε α)
  | _, done a => some ([], .ok a)
  | _, raise e => some ([], .error e)
  | r :: rs, call c k => (transcribe rs (k r)).map fun run => ((c, r) :: run.1, run.2)
  | [], call _ _ => none

theorem run_of_transcribe : ∀ (rs : List (Except ε V)) (p : Prog C V ε α)
    (run : Transcript C V ε × Except ε α), transcribe rs p = some run → Run p run.1 run.2 := by
  intro rs p
  induction p generalizing rs with
  | done a =>
      intro run h
      cases rs <;> cases h <;> exact ⟨rfl, rfl⟩
  | raise e =>
      intro run h
      cases rs <;> cases h <;> exact ⟨rfl, rfl⟩
  | call c k ih =>
      intro run h
      cases rs with
      | nil => cases h
      | cons r rs =>
          obtain ⟨rest, hrest, rfl⟩ := Option.map_eq_some_iff.mp h
          exact ⟨r, rest.1, rfl, ih r rs rest hrest⟩

theorem exists_run (rs : List (Except ε V)) (p : Prog C V ε α)
    (check : Transcript C V ε → Except ε α → Bool)
    (h : ((transcribe rs p).any fun run => check run.1 run.2) = true) :
    ∃ t out, Run p t out ∧ check t out = true := by
  obtain ⟨run, hrun, hcheck⟩ := (Option.any_eq_true _ _).mp h
  exact ⟨run.1, run.2, run_of_transcribe rs p run hrun, hcheck⟩

/-- The run of a program in a world that has one answer for each call. -/
def runIn (world : C → Except ε V) : Prog C V ε α → Transcript C V ε × Except ε α
  | done a => ([], .ok a)
  | raise e => ([], .error e)
  | call c k =>
      let run := runIn world (k (world c))
      ((c, world c) :: run.1, run.2)

theorem run_runIn (world : C → Except ε V) (p : Prog C V ε α) :
    Run p (runIn world p).1 (runIn world p).2 ∧ ∀ x ∈ (runIn world p).1, x.2 = world x.1 := by
  induction p with
  | done a => exact ⟨⟨rfl, rfl⟩, List.forall_mem_nil _⟩
  | raise e => exact ⟨⟨rfl, rfl⟩, List.forall_mem_nil _⟩
  | call c k ih =>
      obtain ⟨hrun, hanswers⟩ := ih (world c)
      exact ⟨⟨world c, _, rfl, hrun⟩, List.forall_mem_cons.mpr ⟨rfl, hanswers⟩⟩

theorem exists_run_in (world : C → Except ε V) (p : Prog C V ε α)
    (check : Transcript C V ε → Except ε α → Bool)
    (h : check (runIn world p).1 (runIn world p).2 = true) :
    ∃ t out, Run p t out ∧ (∀ x ∈ t, x.2 = world x.1) ∧ check t out = true :=
  ⟨_, _, (run_runIn world p).1, (run_runIn world p).2, h⟩

/-- What a program comes to in such a world. -/
def outcome (world : C → Except ε V) (p : Prog C V ε α) : Except ε α := (runIn world p).2

theorem outcome_perform (world : C → Except ε V) (c : C) : outcome world (perform c) = world c := by
  show (runIn world (ofExcept (world c))).2 = world c
  cases world c <;> rfl

theorem outcome_ofExcept (world : C → Except ε V) (x : Except ε α) :
    outcome world (ofExcept x) = x := by
  cases x <;> rfl

theorem outcome_bind (world : C → Except ε V) (p : Prog C V ε α) (f : α → Prog C V ε β) :
    outcome world (p >>= f) = outcome world p >>= fun a => outcome world (f a) := by
  induction p with
  | done a => rfl
  | raise e => rfl
  | call c k ih => exact ih (world c)

theorem outcome_handle (world : C → Except ε V) (p : Prog C V ε α) (q : Prog C V ε α) :
    outcome world (p.handle fun _ => some q) =
      match outcome world p with
      | .ok a => .ok a
      | .error _ => outcome world q := by
  induction p with
  | done a => rfl
  | raise e => rfl
  | call c k ih => exact ih (world c)

end Prog

end Interaction
