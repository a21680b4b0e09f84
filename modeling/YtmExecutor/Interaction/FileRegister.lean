/-
A file that is written step by step is a register that may break.

A writer makes a new value, of the one in the file or of nothing, and writes the text of
that value: the file is emptied and filled again one element after the other.  Other
parties may read it between any two of these steps, and at any moment the writer may be
gone, the rest of its steps with it.

If no proper prefix of a text can be read, nobody ever sees half of a write.  `Shows.run`
says what is seen instead: the file is a register that changes all at once, which cannot
be read while a write is under way, and which is lost when a writer dies in the middle of
one.  Writers that read the file first never get over that (`torn_by_crash`); one that
does not look at the file repairs it (`read_of_overwriting`).
-/
import Mathlib.Logic.Relation
import Mathlib.Data.List.Basic

namespace Interaction

open Relation

/-- Texts of values.  A valid value can be read from its text, but from no proper prefix. -/
structure Codec (α τ : Type) where
  Valid : τ → Prop
  encode : τ → List α
  decode : List α → Option τ
  decode_encode : ∀ v, Valid v → decode (encode v) = some v
  decode_prefix : ∀ v front back, Valid v → encode v = front ++ back → back ≠ [] →
    decode front = none

namespace FileRegister

variable {α τ ι : Type}

/-! ### The file -/

/-- A step of a writer; `keep` leaves the text alone. -/
inductive Write (α : Type) where
  | keep
  | truncate
  | write (a : α)

/-- The text in the file after a step; a file that does not exist has none. -/
def Write.run : Option (List α) → Write α → Option (List α)
  | file, .keep => file
  | _, .truncate => some []
  | file, .write a => file.map (· ++ [a])

/-- The steps that put a text into the file. -/
def writes (text : List α) : List (Write α) :=
  .keep :: .truncate :: (text.map .write ++ [.keep])

/-- What a reader gets: a value, nothing if there is no file, or no answer at all. -/
def read (codec : Codec α τ) : Option (List α) → Option (Option τ)
  | none => some none
  | some text => (codec.decode text).map some

/-- A file and the writer at work on it: the update it makes, and what it has still to do.
The updates that were begun, and those whose writer came to its end, are only recorded. -/
structure State (α ι : Type) where
  file : Option (List α)
  writer : Option (ι × List (Write α))
  begun : List ι
  finished : List ι

/-- What an update makes of the answer a reader gets; an update may also fail. -/
abbrev Update (τ ι : Type) := ι → Option (Option τ) → Option τ

/-- Updates that read the file first, and fail where it cannot be read. -/
def readFirst (update : ι → Option τ → Option τ) : Update τ ι :=
  fun i answer => answer.bind (update i)

/-- Updates that do not make anything of what is in the file; it may still stop them. -/
def Overwrites (make : ι → Option τ) (update : Update τ ι) : Prop :=
  ∀ i answer new, update i answer = some new → make i = some new

/-- One step of a writer, or its death. -/
inductive Step (codec : Codec α τ) (update : Update τ ι) : State α ι → State α ι → Prop
  | begin {s : State α ι} {i : ι} {new : τ} (hidle : s.writer = none)
      (hnew : update i (read codec s.file) = some new) :
      Step codec update s
        { s with writer := some (i, writes (codec.encode new)), begun := s.begun ++ [i] }
  | write {s : State α ι} {i : ι} {w : Write α} {rest : List (Write α)}
      (h : s.writer = some (i, w :: rest)) :
      Step codec update s { s with file := w.run s.file, writer := some (i, rest) }
  | finish {s : State α ι} {i : ι} (h : s.writer = some (i, [])) :
      Step codec update s { s with writer := none, finished := s.finished ++ [i] }
  | crash (s : State α ι) : Step codec update s { s with writer := none }

theorem run_todo {codec : Codec α τ} {update : Update τ ι} (todo : List (Write α))
    {s : State α ι} {i : ι} (h : s.writer = some (i, todo)) :
    ReflTransGen (Step codec update) s
      { s with file := todo.foldl Write.run s.file, writer := some (i, []) } := by
  induction todo generalizing s with
  | nil => rw [List.foldl_nil, ← h]
  | cons w rest ih => exact ReflTransGen.head (Step.write h) (ih rfl)

theorem foldl_writes (text : List α) (file : Option (List α)) :
    (writes text).foldl Write.run file = some text := by
  have hfill : ∀ front : List α, (text.map Write.write).foldl Write.run (some front) =
      some (front ++ text) := by
    induction text with
    | nil => exact fun front => congrArg some (List.append_nil front).symm
    | cons a rest ih =>
        intro front
        rw [List.map_cons, List.foldl_cons, Write.run, Option.map_some, ih, List.append_assoc]
        rfl
  rw [writes, List.foldl_cons, List.foldl_cons, List.foldl_append]
  show Write.run ((text.map Write.write).foldl Write.run (some [])) .keep = some text
  rw [hfill, List.nil_append]
  rfl

/-- **An update that is left alone** comes to its end. -/
theorem run_update {codec : Codec α τ} {update : Update τ ι} {s : State α ι} {i : ι} {new : τ}
    (hidle : s.writer = none) (hnew : update i (read codec s.file) = some new) :
    ReflTransGen (Step codec update) s
      ⟨some (codec.encode new), none, s.begun ++ [i], s.finished ++ [i]⟩ := by
  let written : State α ι := ⟨some (codec.encode new), some (i, []), s.begun ++ [i], s.finished⟩
  have hfinish : Step codec update written
      { written with writer := none, finished := s.finished ++ [i] } := Step.finish rfl
  refine ReflTransGen.head (Step.begin hidle hnew) (ReflTransGen.tail ?_ hfinish)
  show ReflTransGen (Step codec update) _ { written with file := some (codec.encode new) }
  rw [← foldl_writes (codec.encode new) s.file]
  exact run_todo (writes (codec.encode new)) rfl

/-! ### The register -/

/-- A value that changes all at once, by the updates in `done`; it has none once it is lost. -/
structure Register (τ ι : Type) where
  value : Option (Option τ)
  done : List ι

inductive Register.Next (update : Update τ ι) : Register τ ι → Register τ ι → Prop
  | update {a : Register τ ι} {i : ι} {new : τ} (hnew : update i a.value = some new) :
      Register.Next update a ⟨some (some new), a.done ++ [i]⟩
  | lose (a : Register τ ι) : Register.Next update a { a with value := none }

/-- The updates done are only ever added to. -/
theorem Register.done_of_run {update : Update τ ι} {a a' : Register τ ι}
    (h : ReflTransGen (Register.Next update) a a') : ∃ later, a'.done = a.done ++ later := by
  induction h with
  | refl => exact ⟨[], (List.append_nil _).symm⟩
  | tail _ hnext ih =>
      obtain ⟨later, hdone⟩ := ih
      cases hnext with
      | @update i new hnew => exact ⟨later ++ [i], by rw [hdone, List.append_assoc]⟩
      | lose => exact ⟨later, hdone⟩

/-- What an update makes of the value; one that fails leaves it. -/
def advance (update : ι → Option τ → Option τ) (value : Option τ) (i : ι) : Option τ :=
  (update i value).elim value some

/-- As long as it is not lost, the value is what the updates have made of the first one. -/
theorem Register.value_of_readFirst {update : ι → Option τ → Option τ} {a a' : Register τ ι}
    (h : ReflTransGen (Register.Next (readFirst update)) a a') {v' : Option τ}
    (hv' : a'.value = some v') :
    ∃ v later, a.value = some v ∧ a'.done = a.done ++ later ∧
      v' = later.foldl (advance update) v := by
  induction h generalizing v' with
  | refl => exact ⟨v', [], hv', (List.append_nil _).symm, rfl⟩
  | tail _ hnext ih =>
      cases hnext with
      | @update i new hnew =>
          obtain ⟨before, hbefore, hnew⟩ := Option.bind_eq_some_iff.mp hnew
          obtain ⟨v, later, hv, hdone, hvalue⟩ := ih hbefore
          refine ⟨v, later ++ [i], hv, by rw [hdone, List.append_assoc], ?_⟩
          rw [← Option.some.inj hv', List.foldl_append, ← hvalue, List.foldl_cons, List.foldl_nil,
            advance, hnew]
          rfl
      | lose => cases hv'

/-- The value after some updates: the first one, or what the last of them has made. -/
inductive LastMade (make : ι → Option τ) (v : Option τ) : List ι → Option τ → Prop
  | first : LastMade make v [] v
  | made (done : List ι) {i : ι} {new : τ} (h : make i = some new) :
      LastMade make v (done ++ [i]) (some new)

/-- As long as it is not lost, the value is what the last update has made. -/
theorem Register.value_of_overwriting {make : ι → Option τ} {update : Update τ ι} {v : Option τ}
    {a a' : Register τ ι} (hmake : Overwrites make update)
    (h : ReflTransGen (Register.Next update) a a')
    (hfirst : ∀ w, a.value = some w → LastMade make v a.done w) :
    ∀ w, a'.value = some w → LastMade make v a'.done w := by
  induction h with
  | refl => exact hfirst
  | tail _ hnext ih =>
      cases hnext with
      | @update i new hnew =>
          intro w hw
          rw [← Option.some.inj hw]
          exact LastMade.made _ (hmake i _ new hnew)
      | lose =>
          intro w hw
          cases hw

/-! ### One for the other -/

section Simulation

variable {codec : Codec α τ} {update : Update τ ι}

/-- What can be read is valid. -/
def IsValid (codec : Codec α τ) (answer : Option (Option τ)) : Prop :=
  ∀ v, answer = some (some v) → codec.Valid v

/-- Updates make valid values of valid ones. -/
def KeepsValid (codec : Codec α τ) (update : Update τ ι) : Prop :=
  ∀ i old new, IsValid codec old → update i old = some new → codec.Valid new

theorem Register.valid_of_run {a a' : Register τ ι} (hvalid : KeepsValid codec update)
    (hvalue : IsValid codec a.value) (h : ReflTransGen (Register.Next update) a a') :
    IsValid codec a'.value := by
  induction h with
  | refl => exact hvalue
  | tail _ hnext ih =>
      cases hnext with
      | @update i new hnew =>
          intro v hv
          rw [← Option.some.inj (Option.some.inj hv)]
          exact hvalid i _ new ih hnew
      | lose =>
          intro v hv
          cases hv

/-- The updates done are among those begun, and all that came to an end are done. -/
structure Between (finished done begun : List ι) : Prop where
  finished : finished.Sublist done
  begun : done.Sublist begun

theorem Between.concat {finished done begun : List ι} (h : Between finished done begun) (i : ι) :
    Between finished (done ++ [i]) (begun ++ [i]) where
  finished := h.finished.trans (List.sublist_append_left done [i])
  begun := h.begun.append_right [i]

theorem Between.aborted {finished done begun : List ι} (h : Between finished done begun) (i : ι) :
    Between finished done (begun ++ [i]) where
  finished := h.finished
  begun := h.begun.trans (List.sublist_append_left begun [i])

/-- Where a write stands, and what the register says then. -/
inductive Shows (codec : Codec α τ) (update : Update τ ι) :
    State α ι → Register τ ι → Prop
  /-- Nobody is at work. -/
  | idle {s : State α ι} {a : Register τ ι} (hread : read codec s.file = a.value)
      (hwriter : s.writer = none) (hdone : Between s.finished a.done s.begun) :
      Shows codec update s a
  /-- A write is about to empty the file. -/
  | starting {s : State α ι} {a : Register τ ι} {i : ι} {new : τ} {earlier : List ι}
      (front : List (Write α)) (hread : read codec s.file = a.value)
      (hnew : update i a.value = some new) (hfront : ∀ w ∈ front, w = .keep)
      (hwriter : s.writer =
        some (i, front ++ .truncate :: ((codec.encode new).map .write ++ [.keep])))
      (hdone : Between s.finished a.done earlier) (hbegun : s.begun = earlier ++ [i]) :
      Shows codec update s a
  /-- A part of the new text is in the file. -/
  | filling {s : State α ι} {a : Register τ ι} {i : ι} {new : τ} {earlier : List ι}
      (front back : List α) (hnew : update i a.value = some new)
      (htext : codec.encode new = front ++ back) (hback : back ≠ [])
      (hfile : s.file = some front) (hwriter : s.writer = some (i, back.map .write ++ [.keep]))
      (hdone : Between s.finished a.done earlier) (hbegun : s.begun = earlier ++ [i]) :
      Shows codec update s a
  /-- The new text is in the file as a whole. -/
  | written {s : State α ι} {a : Register τ ι} {i : ι} {before earlier : List ι}
      (rest : List (Write α)) (hread : read codec s.file = a.value)
      (hwriter : s.writer = some (i, rest)) (hrest : ∀ w ∈ rest, w = .keep)
      (hbefore : a.done = before ++ [i]) (hdone : Between s.finished before earlier)
      (hbegun : s.begun = earlier ++ [i]) : Shows codec update s a

theorem read_front {new : τ} {front back : List α} (hvalid : codec.Valid new)
    (htext : codec.encode new = front ++ back) (hback : back ≠ []) :
    read codec (some front) = none := by
  rw [read, codec.decode_prefix new front back hvalid htext hback, Option.map_none]

theorem read_whole {new : τ} (hvalid : codec.Valid new) :
    read codec (some (codec.encode new)) = some (some new) := by
  rw [read, codec.decode_encode new hvalid, Option.map_some]

/-- A reader sees the value of the register or nothing. -/
theorem Shows.read {s : State α ι} {a : Register τ ι}
    (hvalid : KeepsValid codec update) (hvalue : IsValid codec a.value)
    (h : Shows codec update s a) {v : Option τ} (hv : read codec s.file = some v) :
    a.value = some v := by
  cases h with
  | idle hread => exact hread.symm.trans hv
  | starting _ hread => exact hread.symm.trans hv
  | filling _ _ hnew htext hback hfile =>
      rw [hfile, read_front (hvalid _ _ _ hvalue hnew) htext hback] at hv
      cases hv
  | written _ hread => exact hread.symm.trans hv

/-- The updates the register has done are among those begun, and all that came to an end. -/
theorem Shows.between {s : State α ι} {a : Register τ ι} (h : Shows codec update s a) :
    Between s.finished a.done s.begun := by
  cases h with
  | idle _ _ hdone => exact hdone
  | @starting i _ _ _ _ _ _ _ hdone hbegun => exact hbegun ▸ hdone.aborted i
  | @filling i _ _ _ _ _ _ _ _ _ hdone hbegun => exact hbegun ▸ hdone.aborted i
  | @written i _ _ _ _ _ _ hbefore hdone hbegun => exact hbefore ▸ hbegun ▸ hdone.concat i

/-- Once the text is in the file as a whole, the register has changed. -/
theorem shows_written {a : Register τ ι} {i : ι} {new : τ} {finished earlier : List ι}
    (hvalid : KeepsValid codec update) (hvalue : IsValid codec a.value)
    (hnew : update i a.value = some new) (hdone : Between finished a.done earlier) :
    ∃ a', ReflTransGen (Register.Next update) a a' ∧
      Shows codec update
        ⟨some (codec.encode new), some (i, [.keep]), earlier ++ [i], finished⟩ a' :=
  ⟨_, ReflTransGen.single (Register.Next.update hnew),
    Shows.written [.keep] (read_whole (hvalid i _ new hvalue hnew)) rfl
      (fun _ hw => List.mem_singleton.mp hw) rfl hdone rfl⟩

/-- **One step of a writer** is one of the register, or none. -/
theorem Shows.step {s s' : State α ι} {a : Register τ ι}
    (hvalid : KeepsValid codec update) (hvalue : IsValid codec a.value)
    (h : Shows codec update s a) (hs : Step codec update s s') :
    ∃ a', ReflTransGen (Register.Next update) a a' ∧ Shows codec update s' a' := by
  cases hs with
  | @begin i new hidle hnew =>
      cases h with
      | idle hread _ hdone =>
          rw [hread] at hnew
          exact ⟨a, ReflTransGen.refl, Shows.starting [.keep] hread hnew
            (fun _ hw => List.mem_singleton.mp hw) rfl hdone rfl⟩
      | starting _ _ _ _ hwriter | filling _ _ _ _ _ _ hwriter | written _ _ hwriter =>
          rw [hwriter] at hidle
          cases hidle
  | crash =>
      have hdone : Between s.finished a.done s.begun := h.between
      cases h with
      | idle hread => exact ⟨a, ReflTransGen.refl, Shows.idle hread rfl hdone⟩
      | starting _ hread => exact ⟨a, ReflTransGen.refl, Shows.idle hread rfl hdone⟩
      | written _ hread => exact ⟨a, ReflTransGen.refl, Shows.idle hread rfl hdone⟩
      | filling _ _ hnew htext hback hfile =>
          refine ⟨_, ReflTransGen.single (Register.Next.lose a), Shows.idle ?_ rfl hdone⟩
          show FileRegister.read codec s.file = none
          rw [hfile, read_front (hvalid _ _ _ hvalue hnew) htext hback]
  | @finish i hwriter' =>
      cases h with
      | idle _ hwriter =>
          rw [hwriter] at hwriter'
          cases hwriter'
      | starting front _ _ _ hwriter =>
          rw [hwriter, Option.some.injEq, Prod.mk.injEq] at hwriter'
          exact absurd hwriter'.2 (List.append_ne_nil_of_right_ne_nil _ (List.cons_ne_nil _ _))
      | filling _ _ _ _ _ _ hwriter =>
          rw [hwriter, Option.some.injEq, Prod.mk.injEq] at hwriter'
          exact absurd hwriter'.2 (List.append_ne_nil_of_right_ne_nil _ (List.cons_ne_nil _ _))
      | written _ hread hwriter _ hbefore hdone hbegun =>
          rw [hwriter, Option.some.injEq, Prod.mk.injEq] at hwriter'
          obtain ⟨rfl, -⟩ := hwriter'
          refine ⟨a, ReflTransGen.refl, Shows.idle hread rfl ⟨?_, ?_⟩⟩
          · rw [hbefore]
            exact hdone.finished.append_right _
          · rw [hbefore, show s.begun = _ from hbegun]
            exact hdone.begun.append_right _
  | @write i w rest hwriter' =>
      cases h with
      | idle _ hwriter =>
          rw [hwriter] at hwriter'
          cases hwriter'
      | written todo hread hwriter htodo hbefore hdone hbegun =>
          rw [hwriter, Option.some.injEq, Prod.mk.injEq] at hwriter'
          obtain ⟨rfl, rfl⟩ := hwriter'
          obtain ⟨rfl, hrest⟩ := List.forall_mem_cons.mp htodo
          exact ⟨a, ReflTransGen.refl, Shows.written rest hread rfl hrest hbefore hdone hbegun⟩
      | @starting _ new earlier front hread hnew hfront hwriter hdone hbegun =>
          rw [hwriter, Option.some.injEq, Prod.mk.injEq] at hwriter'
          obtain ⟨rfl, htodo⟩ := hwriter'
          cases front with
          | cons w' front =>
              obtain ⟨rfl, rfl⟩ := List.cons.inj htodo
              obtain ⟨rfl, hkeep⟩ := List.forall_mem_cons.mp hfront
              exact ⟨a, ReflTransGen.refl,
                Shows.starting front hread hnew hkeep rfl hdone hbegun⟩
          | nil =>
              -- the file is emptied; only of an empty text that is all
              obtain ⟨rfl, rfl⟩ := List.cons.inj htodo
              cases htext : codec.encode new with
              | nil =>
                  have hwritten := shows_written hvalid hvalue hnew hdone
                  rw [htext, ← hbegun] at hwritten
                  exact hwritten
              | cons c cs =>
                  exact ⟨a, ReflTransGen.refl, Shows.filling [] (c :: cs) hnew htext
                    (List.cons_ne_nil c cs) rfl rfl hdone hbegun⟩
      | @filling _ new earlier front back hnew htext hback hfile hwriter hdone hbegun =>
          rw [hwriter, Option.some.injEq, Prod.mk.injEq] at hwriter'
          obtain ⟨rfl, htodo⟩ := hwriter'
          cases back with
          | nil => exact absurd rfl hback
          | cons c back =>
              obtain ⟨rfl, rfl⟩ := List.cons.inj htodo
              rw [hfile]
              cases back with
              | nil =>
                  have hwritten := shows_written hvalid hvalue hnew hdone
                  rw [htext, ← hbegun] at hwritten
                  exact hwritten
              | cons d back =>
                  refine ⟨a, ReflTransGen.refl, Shows.filling (front ++ [c]) (d :: back)
                    hnew ?_ (List.cons_ne_nil d back) rfl rfl hdone hbegun⟩
                  rw [htext, List.append_assoc]
                  rfl

/-- **The file is a register that may break.**  Whatever the writers and the crashes do,
the register takes steps of its own, and the two go together. -/
theorem Shows.run {s s' : State α ι} {a : Register τ ι}
    (hvalid : KeepsValid codec update) (hvalue : IsValid codec a.value)
    (h : Shows codec update s a) (hs : ReflTransGen (Step codec update) s s') :
    ∃ a', ReflTransGen (Register.Next update) a a' ∧ Shows codec update s' a' := by
  induction hs with
  | refl => exact ⟨a, ReflTransGen.refl, h⟩
  | tail _ hstep ih =>
      obtain ⟨a', hrun, hshows⟩ := ih
      obtain ⟨a'', hrun', hshows'⟩ :=
        hshows.step hvalid (Register.valid_of_run hvalid hvalue hrun) hstep
      exact ⟨a'', hrun.trans hrun', hshows'⟩

/-- A file nobody has written to. -/
def initial (file : Option (List α)) : State α ι := ⟨file, none, [], []⟩

theorem shows_initial {file : Option (List α)} :
    Shows codec update (initial file) ⟨read codec file, []⟩ :=
  Shows.idle rfl rfl ⟨List.Sublist.refl _, List.Sublist.refl _⟩

/-- Two readers, one after the other, and the register they see. -/
theorem registers_of_run {file : Option (List α)} {s₁ s₂ : State α ι} {v₁ v₂ : Option τ}
    (hvalid : KeepsValid codec update) (hfile : IsValid codec (read codec file))
    (h₁ : ReflTransGen (Step codec update) (initial file) s₁)
    (h₂ : ReflTransGen (Step codec update) s₁ s₂)
    (hv₁ : read codec s₁.file = some v₁) (hv₂ : read codec s₂.file = some v₂) :
    ∃ done later,
      Between s₁.finished done s₁.begun ∧ Between s₂.finished (done ++ later) s₂.begun ∧
      ReflTransGen (Register.Next update) ⟨read codec file, []⟩ ⟨some v₁, done⟩ ∧
      ReflTransGen (Register.Next update) ⟨some v₁, done⟩ ⟨some v₂, done ++ later⟩ := by
  obtain ⟨a₁, hrun₁, hshows₁⟩ := shows_initial.run hvalid hfile h₁
  have hvalue₁ := Register.valid_of_run hvalid hfile hrun₁
  obtain ⟨a₂, hrun₂, hshows₂⟩ := hshows₁.run hvalid hvalue₁ h₂
  have hvalue₂ := Register.valid_of_run hvalid hvalue₁ hrun₂
  obtain ⟨later, hlater⟩ := Register.done_of_run hrun₂
  have ha₁ : a₁ = ⟨some v₁, a₁.done⟩ :=
    congrArg (Register.mk · a₁.done) (hshows₁.read hvalid hvalue₁ hv₁)
  have ha₂ : a₂ = ⟨some v₂, a₁.done ++ later⟩ := by
    rw [← hlater]
    exact congrArg (Register.mk · a₂.done) (hshows₂.read hvalid hvalue₂ hv₂)
  refine ⟨a₁.done, later, hshows₁.between, hlater ▸ hshows₂.between, ha₁ ▸ hrun₁, ?_⟩
  rw [← ha₁, ← ha₂]
  exact hrun₂

/-! ### Writers that read the file first -/

/-- **What two readers see**, one after the other: what some of the updates begun have made of
the first value, in their order, all those among them that came to an end; and what more
updates have made of that. -/
theorem reads_of_run {update : ι → Option τ → Option τ} {file : Option (List α)}
    {s₁ s₂ : State α ι} {v v₁ v₂ : Option τ} (hvalid : KeepsValid codec (readFirst update))
    (hvalue : ∀ w ∈ v, codec.Valid w) (hread : read codec file = some v)
    (h₁ : ReflTransGen (Step codec (readFirst update)) (initial file) s₁)
    (h₂ : ReflTransGen (Step codec (readFirst update)) s₁ s₂)
    (hv₁ : read codec s₁.file = some v₁) (hv₂ : read codec s₂.file = some v₂) :
    ∃ done later, Between s₁.finished done s₁.begun ∧
      Between s₂.finished (done ++ later) s₂.begun ∧ v₁ = done.foldl (advance update) v ∧
      v₂ = later.foldl (advance update) v₁ := by
  have hfile : IsValid codec (read codec file) := by
    intro w hw
    rw [hread] at hw
    exact hvalue w (Option.some.inj hw)
  obtain ⟨done, later, hdone, hlater, hrun₁, hrun₂⟩ :=
    registers_of_run hvalid hfile h₁ h₂ hv₁ hv₂
  obtain ⟨v', done', hv', hdone', hvalue₁⟩ := Register.value_of_readFirst hrun₁ rfl
  obtain rfl : v = v' := Option.some.inj (hread.symm.trans hv')
  obtain rfl : done = done' := hdone'
  obtain ⟨v₁', later', hv₁', hlater', hvalue₂⟩ := Register.value_of_readFirst hrun₂ rfl
  obtain rfl : v₁ = v₁' := Option.some.inj hv₁'
  obtain rfl : later = later' := List.append_cancel_left hlater'
  exact ⟨done, later, hdone, hlater, hvalue₁, hvalue₂⟩

/-- **Nobody repairs a torn file** who reads it first: with no writer at work it stays as it
is. -/
theorem torn_forever {update : ι → Option τ → Option τ} {s s' : State α ι}
    (hidle : s.writer = none) (hread : read codec s.file = none)
    (h : ReflTransGen (Step codec (readFirst update)) s s') : s' = s := by
  induction h with
  | refl => rfl
  | tail _ hstep ih =>
      subst ih
      cases hstep with
      | begin _ hnew =>
          rw [hread] at hnew
          cases hnew
      | write hwriter | finish hwriter =>
          rw [hidle] at hwriter
          cases hwriter
      | crash => rw [← hidle]

/-- **A writer that dies between emptying the file and its last letter** leaves a file that
nobody ever reads or writes again. -/
theorem torn_by_crash {update : ι → Option τ → Option τ} {file : Option (List α)} {v : Option τ}
    {s s' : State α ι} {i : ι} {todo : List (Write α)} {a : α}
    (hvalid : KeepsValid codec (readFirst update)) (hvalue : ∀ w ∈ v, codec.Valid w)
    (hread : read codec file = some v)
    (hrun : ReflTransGen (Step codec (readFirst update)) (initial file) s)
    (hwriter : s.writer = some (i, todo)) (hwrite : .write a ∈ todo) (htruncate : .truncate ∉ todo)
    (hrun' : ReflTransGen (Step codec (readFirst update)) { s with writer := none } s') :
    s' = { s with writer := none } ∧ read codec s'.file = none := by
  have hfile : IsValid codec (read codec file) := by
    intro w hw
    rw [hread] at hw
    exact hvalue w (Option.some.inj hw)
  obtain ⟨_, hregister, hshows⟩ := shows_initial.run hvalid hfile hrun
  have htorn : read codec s.file = none := by
    have hvalue := Register.valid_of_run hvalid hfile hregister
    cases hshows with
    | idle _ hidle =>
        rw [hidle] at hwriter
        cases hwriter
    | starting front _ _ _ hwriter' =>
        rw [hwriter', Option.some.injEq, Prod.mk.injEq] at hwriter
        rw [← hwriter.2] at htruncate
        exact absurd (List.mem_append_right _ List.mem_cons_self) htruncate
    | filling _ _ hnew htext hback hfile =>
        rw [hfile, read_front (hvalid _ _ _ hvalue hnew) htext hback]
    | written rest _ hwriter' hrest =>
        rw [hwriter', Option.some.injEq, Prod.mk.injEq] at hwriter
        cases hrest _ (hwriter.2 ▸ hwrite)
  have hsame : s' = { s with writer := none } :=
    torn_forever (s := { s with writer := none }) rfl htorn hrun'
  exact ⟨hsame, hsame ▸ htorn⟩

/-! ### Writers that overwrite it -/

/-- **What two readers see**, one after the other: what the last of some updates has made, which
are all begun and among them all that came to an end; and what the last of these and more
updates has made. -/
theorem read_of_overwriting {make : ι → Option τ} {file : Option (List α)} {s₁ s₂ : State α ι}
    {v v₁ v₂ : Option τ} (hmake : Overwrites make update)
    (hvalid : ∀ i new, make i = some new → codec.Valid new) (hvalue : ∀ w ∈ v, codec.Valid w)
    (hread : ∀ w, read codec file = some w → w = v)
    (h₁ : ReflTransGen (Step codec update) (initial file) s₁)
    (h₂ : ReflTransGen (Step codec update) s₁ s₂)
    (hv₁ : read codec s₁.file = some v₁) (hv₂ : read codec s₂.file = some v₂) :
    ∃ done later, Between s₁.finished done s₁.begun ∧
      Between s₂.finished (done ++ later) s₂.begun ∧ LastMade make v done v₁ ∧
      LastMade make v (done ++ later) v₂ := by
  have hfile : IsValid codec (read codec file) := fun w hw => hvalue w (hread _ hw).symm
  have hkeeps : KeepsValid codec update := fun i answer new _ hnew =>
    hvalid i new (hmake i answer new hnew)
  obtain ⟨done, later, hdone, hlater, hrun₁, hrun₂⟩ := registers_of_run hkeeps hfile h₁ h₂ hv₁ hv₂
  have hvalue₁ := Register.value_of_overwriting hmake hrun₁ (v := v) fun w hw => by
    rw [hread w hw]
    exact LastMade.first
  have hvalue₂ := Register.value_of_overwriting hmake hrun₂ hvalue₁
  exact ⟨done, later, hdone, hlater, hvalue₁ _ rfl, hvalue₂ _ rfl⟩

end Simulation

end FileRegister

end Interaction
