/-
What holds on every path of a program.

The world a program runs in is a state and a relation `step`: in state `s` the call
`c` may be answered by `r` and leave the world in `s'`.  `Safe` says that wherever the
answers lead, every call made satisfies `ok` in the state it is made in, and the
outcome satisfies `post` in the state it is reached in.  It is defined by recursion on
the program, so a caller never sees the inside of what it calls: `safe_bind`,
`safe_handle` and `safe_perform` are all a proof about a larger program needs.

`Reaches` is the same thing seen from the other side, as one run, and `Safe.reaches`
joins the two.  `replay` computes a run from the moves the world makes.
-/
import YtmExecutor.Interaction.Prog

namespace Interaction

namespace Prog

variable {σ C V ε α β : Type}
variable {step : σ → C → Except ε V → σ → Prop} {ok : σ → C → Prop}

/-- Every call on every path is `ok`, and every outcome satisfies `post`. -/
def Safe (step : σ → C → Except ε V → σ → Prop) (ok : σ → C → Prop)
    (post : σ → Except ε α → Prop) : Prog C V ε α → σ → Prop
  | done a, s => post s (.ok a)
  | raise e, s => post s (.error e)
  | call c k, s => ok s c ∧ ∀ r s', step s c r s' → Safe step ok post (k r) s'

/-- What `p` has to establish for `p >>= f` to be safe. -/
def Then (step : σ → C → Except ε V → σ → Prop) (ok : σ → C → Prop)
    (post : σ → Except ε β → Prop) (f : α → Prog C V ε β) (s : σ) : Except ε α → Prop
  | .ok a => Safe step ok post (f a) s
  | .error e => post s (.error e)

/-- What `p` has to establish for `p.handle h` to be safe. -/
def Caught (step : σ → C → Except ε V → σ → Prop) (ok : σ → C → Prop)
    (post : σ → Except ε α → Prop) (h : ε → Option (Prog C V ε α)) (s : σ) :
    Except ε α → Prop
  | .ok a => post s (.ok a)
  | .error e =>
      match h e with
      | some q => Safe step ok post q s
      | none => post s (.error e)

theorem safe_bind {post : σ → Except ε β → Prop} {f : α → Prog C V ε β} {s : σ}
    (p : Prog C V ε α) :
    Safe step ok post (p >>= f) s ↔ Safe step ok (Then step ok post f) p s := by
  induction p generalizing s with
  | done a => rfl
  | raise e => rfl
  | call c k ih =>
      constructor
      · rintro ⟨hok, hall⟩
        exact ⟨hok, fun r s' hs => (ih r).mp (hall r s' hs)⟩
      · rintro ⟨hok, hall⟩
        exact ⟨hok, fun r s' hs => (ih r).mpr (hall r s' hs)⟩

theorem safe_handle {post : σ → Except ε α → Prop} {h : ε → Option (Prog C V ε α)} {s : σ}
    (p : Prog C V ε α) :
    Safe step ok post (p.handle h) s ↔ Safe step ok (Caught step ok post h) p s := by
  induction p generalizing s with
  | done a => rfl
  | raise e =>
      show Safe step ok post ((h e).getD (raise e)) s ↔ Caught step ok post h s (.error e)
      cases hq : h e with
      | none => simp [Caught, hq, Safe]
      | some q => simp [Caught, hq]
  | call c k ih =>
      constructor
      · rintro ⟨hok, hall⟩
        exact ⟨hok, fun r s' hs => (ih r).mp (hall r s' hs)⟩
      · rintro ⟨hok, hall⟩
        exact ⟨hok, fun r s' hs => (ih r).mpr (hall r s' hs)⟩

@[simp] theorem safe_ofExcept {post : σ → Except ε α → Prop} {s : σ} (x : Except ε α) :
    Safe step ok post (ofExcept x) s ↔ post s x := by
  cases x <;> rfl

/-- Going on without a call. -/
theorem then_ofExcept {post : σ → Except ε β → Prop} {s : σ} (x : Except ε α)
    (g : α → Except ε β) :
    Then step ok post (fun a => ofExcept (g a)) s x ↔ post s (x >>= g) := by
  cases x with
  | ok a => exact safe_ofExcept (g a)
  | error e => rfl

theorem safe_perform {post : σ → Except ε V → Prop} {s : σ} (c : C) :
    Safe step ok post (perform c) s ↔ ok s c ∧ ∀ r s', step s c r s' → post s' r := by
  constructor
  · rintro ⟨hok, hall⟩
    exact ⟨hok, fun r s' hs => (safe_ofExcept r).mp (hall r s' hs)⟩
  · rintro ⟨hok, hall⟩
    exact ⟨hok, fun r s' hs => (safe_ofExcept r).mpr (hall r s' hs)⟩

/-- A safe program stays safe for a weaker demand. -/
theorem Safe.mono {ok' : σ → C → Prop} {post post' : σ → Except ε α → Prop}
    (hok : ∀ s c, ok s c → ok' s c) (hpost : ∀ s r, post s r → post' s r)
    {p : Prog C V ε α} {s : σ} (h : Safe step ok post p s) : Safe step ok' post' p s := by
  induction p generalizing s with
  | done a => exact hpost s _ h
  | raise e => exact hpost s _ h
  | call c k ih => exact ⟨hok s c h.1, fun r s' hs => ih r (h.2 r s' hs)⟩

/-- The same demand, with the outcome's condition weakened. -/
theorem Safe.post_mono {post post' : σ → Except ε α → Prop}
    (hpost : ∀ s r, post s r → post' s r) {p : Prog C V ε α} {s : σ}
    (h : Safe step ok post p s) : Safe step ok post' p s :=
  h.mono (fun _ _ hc => hc) hpost

/-- Running `p` and then `f`: what `p` leaves behind has to be enough for `f`. -/
theorem Safe.bind {M : σ → Except ε α → Prop} {post : σ → Except ε β → Prop}
    {p : Prog C V ε α} {f : α → Prog C V ε β} {s : σ} (h : Safe step ok M p s)
    (hf : ∀ s a, M s (.ok a) → Safe step ok post (f a) s)
    (he : ∀ s e, M s (.error e) → post s (.error e)) : Safe step ok post (p >>= f) s := by
  refine (safe_bind p).mpr (h.post_mono ?_)
  intro s r hr
  cases r with
  | ok a => exact hf s a hr
  | error e => exact he s e hr

/-- Running `p` with a handler that takes some of its exceptions. -/
theorem Safe.handle {M post : σ → Except ε α → Prop} {p : Prog C V ε α}
    {h : ε → Option (Prog C V ε α)} {s : σ} (hp : Safe step ok M p s)
    (hok : ∀ s a, M s (.ok a) → post s (.ok a))
    (he : ∀ s e, M s (.error e) → h e = none → post s (.error e))
    (hh : ∀ s e q, M s (.error e) → h e = some q → Safe step ok post q s) :
    Safe step ok post (p.handle h) s := by
  refine (safe_handle p).mpr (hp.post_mono ?_)
  intro s r hr
  cases r with
  | ok a => exact hok s a hr
  | error e =>
      cases hq : h e with
      | none => simpa only [Caught, hq] using he s e hr hq
      | some q => simpa only [Caught, hq] using hh s e q hr hq

/-! ### Runs -/

/-- Some answers take `p`, started in `s`, to `p'` in state `s'`. -/
inductive Reaches (step : σ → C → Except ε V → σ → Prop) :
    σ → Prog C V ε α → σ → Prog C V ε α → Prop
  | refl (s : σ) (p : Prog C V ε α) : Reaches step s p s p
  | answer {s s₁ s' : σ} {c : C} {r : Except ε V} {k : Except ε V → Prog C V ε α}
      {p' : Prog C V ε α} (h : step s c r s₁) (rest : Reaches step s₁ (k r) s' p') :
      Reaches step s (call c k) s' p'

/-- What is safe stays safe along a run. -/
theorem Safe.reaches {post : σ → Except ε α → Prop} {s s' : σ} {p p' : Prog C V ε α}
    (h : Safe step ok post p s) (hr : Reaches step s p s' p') : Safe step ok post p' s' := by
  induction hr with
  | refl => exact h
  | answer hs _ ih => exact ih (h.2 _ _ hs)

/-- Any answer at all: the world that constrains nothing. -/
def anyAnswer (_ : Unit) (_ : C) (_ : Except ε V) (_ : Unit) : Prop :=
  True

/-- Some behaviour of the world makes `p` call `c`. -/
def Makes (p : Prog C V ε α) (c : C) : Prop :=
  ∃ k, Reaches anyAnswer () p () (call c k)

theorem Safe.makes {ok : Unit → C → Prop} {post : Unit → Except ε α → Prop}
    {p : Prog C V ε α} {c : C} (h : Safe anyAnswer ok post p ()) (hc : Makes p c) :
    ok () c := by
  obtain ⟨k, hr⟩ := hc
  exact (h.reaches hr).1

/-! ### Programs that only make calls of a kind -/

/-- Every call on every path satisfies `Q`, whatever the calls before it were answered by. -/
def CallsOnly (Q : C → Prop) (p : Prog C V ε α) : Prop :=
  Safe anyAnswer (fun _ c => Q c) (fun _ _ => True) p ()

variable {Q : C → Prop}

theorem CallsOnly.makes {p : Prog C V ε α} {c : C} (h : CallsOnly Q p) (hc : Makes p c) : Q c :=
  Safe.makes h hc

theorem CallsOnly.of_makes {p : Prog C V ε α} (h : ∀ c, Makes p c → Q c) : CallsOnly Q p := by
  induction p with
  | done a => trivial
  | raise e => trivial
  | call c k ih =>
      refine ⟨h c ⟨k, .refl _ _⟩, fun r _ _ => ih r fun c' hc' => ?_⟩
      obtain ⟨k', hk'⟩ := hc'
      exact h c' ⟨k', .answer trivial hk'⟩

/-- Nothing is asked of a program when every call will do. -/
theorem CallsOnly.of_forall (h : ∀ c, Q c) (p : Prog C V ε α) : CallsOnly Q p := by
  induction p with
  | done a => trivial
  | raise e => trivial
  | call c k ih => exact ⟨h c, fun r _ _ => ih r⟩

theorem not_makes_done {a : α} {c : C} : ¬Makes (done a : Prog C V ε α) c := by
  intro h
  exact CallsOnly.makes (Q := fun _ => False) (p := done a) trivial h

theorem not_makes_raise {e : ε} {c : C} : ¬Makes (raise e : Prog C V ε α) c := by
  intro h
  exact CallsOnly.makes (Q := fun _ => False) (p := raise e) trivial h

theorem CallsOnly.ofExcept (x : Except ε α) : CallsOnly Q (ofExcept x : Prog C V ε α) := by
  cases x <;> trivial

theorem CallsOnly.perform {c : C} (h : Q c) : CallsOnly Q (perform c : Prog C V ε V) :=
  (safe_perform c).mpr ⟨h, fun _ _ _ => trivial⟩

theorem CallsOnly.bind {p : Prog C V ε α} {f : α → Prog C V ε β} (h : CallsOnly Q p)
    (hf : ∀ a, CallsOnly Q (f a)) : CallsOnly Q (p >>= f) := by
  refine (safe_bind p).mpr (h.post_mono ?_)
  intro _ r _
  cases r with
  | ok a => exact hf a
  | error e => trivial

theorem CallsOnly.handle {p : Prog C V ε α} {h : ε → Option (Prog C V ε α)}
    (hp : CallsOnly Q p) (hh : ∀ e q, h e = some q → CallsOnly Q q) :
    CallsOnly Q (p.handle h) := by
  refine (safe_handle p).mpr (hp.post_mono ?_)
  intro _ r _
  cases r with
  | ok a => trivial
  | error e =>
      cases hq : h e with
      | none => simp only [Caught, hq]
      | some q =>
          simp only [Caught, hq]
          exact hh e q hq

theorem CallsOnly.mapCalls {C' : Type} {Q : C' → Prop} {f : C → C'} {p : Prog C V ε α}
    (h : CallsOnly (fun c => Q (f c)) p) : CallsOnly Q (p.mapCalls f) := by
  induction p with
  | done a | raise e => trivial
  | call c k ih => exact ⟨h.1, fun r _ _ => ih r (h.2 r () trivial)⟩

/-! ### Outcomes -/

/-- Every outcome satisfies `P`, whatever the calls are answered by. -/
def Yields (P : Except ε α → Prop) (p : Prog C V ε α) : Prop :=
  Safe anyAnswer (fun _ _ => True) (fun _ r => P r) p ()

theorem Yields.of_forall {P : Except ε α → Prop} (h : ∀ r, P r) (p : Prog C V ε α) :
    Yields P p := by
  induction p with
  | done a => exact h _
  | raise e => exact h _
  | call c k ih => exact ⟨trivial, fun r _ _ => ih r⟩

theorem Yields.ofExcept {P : Except ε α → Prop} {x : Except ε α} (h : P x) :
    Yields P (ofExcept x : Prog C V ε α) := (safe_ofExcept x).mpr h

theorem Yields.bind {P : Except ε α → Prop} {R : Except ε β → Prop} {p : Prog C V ε α}
    {f : α → Prog C V ε β} (h : Yields P p) (hf : ∀ a, P (.ok a) → Yields R (f a))
    (he : ∀ e, P (.error e) → R (.error e)) : Yields R (p >>= f) :=
  Safe.bind h (fun _ a ha => hf a ha) fun _ e => he e

theorem Yields.handle {P R : Except ε α → Prop} {p : Prog C V ε α}
    {h : ε → Option (Prog C V ε α)} (hp : Yields P p) (hok : ∀ a, P (.ok a) → R (.ok a))
    (he : ∀ e, P (.error e) → h e = none → R (.error e))
    (hh : ∀ e q, P (.error e) → h e = some q → Yields R q) : Yields R (p.handle h) :=
  Safe.handle hp (fun _ => hok) (fun _ => he) fun _ => hh

/-- What is known of the calls of a program and what is known of its outcome. -/
theorem Safe.of_callsOnly_yields {I : σ → Prop} {P : Except ε α → Prop}
    (hok : ∀ s c, I s → Q c → ok s c) (hkeep : ∀ s c r s', I s → Q c → step s c r s' → I s')
    {p : Prog C V ε α} (h : CallsOnly Q p) (hp : Yields P p) {s : σ} (hs : I s) :
    Safe step ok (fun s r => I s ∧ P r) p s := by
  induction p generalizing s with
  | done a => exact ⟨hs, hp⟩
  | raise e => exact ⟨hs, hp⟩
  | call c k ih =>
      have hc : Q c := h.1
      exact ⟨hok s c hs hc, fun r s' hstep =>
        ih r (h.2 r () trivial) (hp.2 r () trivial) (hkeep s c r s' hs hc hstep)⟩

/-- Calls of a harmless kind are safe wherever an invariant holds, and keep it. -/
theorem CallsOnly.safe {I : σ → Prop} (hok : ∀ s c, I s → Q c → ok s c)
    (hkeep : ∀ s c r s', I s → Q c → step s c r s' → I s') {p : Prog C V ε α}
    (h : CallsOnly Q p) {s : σ} (hs : I s) : Safe step ok (fun s _ => I s) p s := by
  have hyields : Yields (fun _ => True) p :=
    Safe.mono (fun _ _ _ => trivial) (fun _ _ _ => trivial) h
  exact (Safe.of_callsOnly_yields hok hkeep h hyields hs).post_mono fun _ _ hr => hr.1

/-- An invariant the safe calls keep holds wherever the program comes to. -/
theorem Safe.keeping {I : σ → Prop} {post : σ → Except ε α → Prop}
    (hkeep : ∀ s c r s', I s → ok s c → step s c r s' → I s') {p : Prog C V ε α} {s : σ}
    (h : Safe step ok post p s) (hs : I s) : Safe step ok (fun s r => I s ∧ post s r) p s := by
  induction p generalizing s with
  | done a => exact ⟨hs, h⟩
  | raise e => exact ⟨hs, h⟩
  | call c k ih =>
      exact ⟨h.1, fun r s' hstep => ih r (h.2 r s' hstep) (hkeep s c r s' hs h.1 hstep)⟩

/-! ### Computing a run -/

/-- Feed `p` a list of answers. -/
def feed : List (Except ε V) → Prog C V ε α → Prog C V ε α
  | r :: rs, call _ k => feed rs (k r)
  | _, p => p

/-- The call a program is about to make. -/
def next? : Prog C V ε α → Option C
  | call c _ => some c
  | _ => none

theorem feed_reaches : ∀ (rs : List (Except ε V)) (p : Prog C V ε α),
    Reaches anyAnswer () p () (feed rs p) := by
  intro rs
  induction rs with
  | nil => intro p; cases p <;> exact Reaches.refl _ _
  | cons r rs ih =>
      intro p
      cases p with
      | done a => exact Reaches.refl _ _
      | raise e => exact Reaches.refl _ _
      | call c k => exact Reaches.answer trivial (ih (k r))

theorem makes_of_feed {p : Prog C V ε α} {c : C} (rs : List (Except ε V))
    (h : (feed rs p).next? = some c) : Makes p c := by
  have hr := feed_reaches rs p
  cases hp : feed rs p with
  | done a => rw [hp] at h; simp [next?] at h
  | raise e => rw [hp] at h; simp [next?] at h
  | call d k =>
      rw [hp] at h hr
      simp only [next?, Option.some.injEq] at h
      subst h
      exact ⟨k, hr⟩

/-- Follow a list of moves of the world, each of which decides an answer and a next state. -/
def replay {ρ : Type} (move : σ → C → ρ → Option (Except ε V × σ)) :
    List ρ → σ → Prog C V ε α → Option (σ × Prog C V ε α)
  | [], s, p => some (s, p)
  | m :: rest, s, call c k =>
      match move s c m with
      | some (r, s') => replay move rest s' (k r)
      | none => none
  | _ :: _, _, _ => none

theorem replay_reaches {ρ : Type} {move : σ → C → ρ → Option (Except ε V × σ)}
    (hmove : ∀ s c m r s', move s c m = some (r, s') → step s c r s') :
    ∀ (ms : List ρ) (s s' : σ) (p p' : Prog C V ε α),
      replay move ms s p = some (s', p') → Reaches step s p s' p' := by
  intro ms
  induction ms with
  | nil =>
      intro s s' p p' h
      simp only [replay, Option.some.injEq, Prod.mk.injEq] at h
      obtain ⟨rfl, rfl⟩ := h
      exact Reaches.refl _ _
  | cons m rest ih =>
      intro s s' p p' h
      cases p with
      | done a => simp [replay] at h
      | raise e => simp [replay] at h
      | call c k =>
          simp only [replay] at h
          split at h
          · rename_i r s₁ hm
            exact Reaches.answer (hmove _ _ _ _ _ hm) (ih _ _ _ _ h)
          · simp at h

end Prog

end Interaction
