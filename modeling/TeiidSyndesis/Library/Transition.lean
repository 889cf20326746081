/-
# TeiidSyndesis.Library.Transition — labelled transition systems, runs and guarded invariants.

A `System` says where a run may start and what one labelled step may do.  A `Run` records every
step it takes as the pair of the state the step was taken in and its label, so a condition on the
steps of a run is a condition on the members of that list.  The invariant rule is the one rule every
safety statement below rests on: an invariant that holds initially and is kept by each step that
meets the guard holds in every state of a run all of whose steps meet it.

The second half is about systems given by a partial function from states and labels to states.
There a run is computed from its labels, which is how concrete schedules are exhibited.

Main results:
* `Run.preserves`, `Run.invariant` — what a guarded step keeps, a guarded run keeps;
* `Run.exists_marked`, `Run.countP_le_one` — a run that leaves an invariant took a marked step, and a
  step that cannot be taken twice was taken at most once;
* `Run.visited_iff`, `Run.visited_iff_of_invariant` — every state visited is good exactly if every step
  met the guard;
* `run_after` — the labels of a schedule give a run.

Nothing here names a program.
-/
import Mathlib.Data.List.Basic

namespace TeiidSyndesis.Library

universe u v

/-! ## Systems and their runs -/

/-- A labelled transition system. -/
structure System (σ : Type u) (ε : Type v) where
  init : σ → Prop
  step : σ → ε → σ → Prop

namespace System

variable {σ : Type u} {ε : Type v} {S : System σ ε}

/-- `S.Run s tr t`: from `s` the system reaches `t` through the steps listed in `tr`, each as the
state it was taken in and its label. -/
inductive Run (S : System σ ε) : σ → List (σ × ε) → σ → Prop
  | nil (s : σ) : Run S s [] s
  | cons {s t u : σ} {e : ε} {tr : List (σ × ε)} :
      S.step s e t → Run S t tr u → Run S s ((s, e) :: tr) u

/-- Every step of the trace meets the guard. -/
def Guarded (guard : σ → ε → Prop) (tr : List (σ × ε)) : Prop :=
  ∀ x ∈ tr, guard x.1 x.2

@[simp]
theorem guarded_nil (guard : σ → ε → Prop) : Guarded guard [] := by
  intro x hx
  cases hx

@[simp]
theorem guarded_cons {guard : σ → ε → Prop} {s : σ} {e : ε} {tr : List (σ × ε)} :
    Guarded guard ((s, e) :: tr) ↔ guard s e ∧ Guarded guard tr := by
  simp [Guarded]

instance (guard : σ → ε → Prop) [∀ s e, Decidable (guard s e)] (tr : List (σ × ε)) :
    Decidable (Guarded guard tr) :=
  inferInstanceAs (Decidable (∀ x ∈ tr, guard x.1 x.2))

namespace Run

/-- An invariant kept by every guarded step is carried from one end of a guarded run to the
other. -/
theorem preserves {guard : σ → ε → Prop} {Inv : σ → Prop}
    (hstep : ∀ s e t, Inv s → guard s e → S.step s e t → Inv t)
    {s t : σ} {tr : List (σ × ε)} (hrun : S.Run s tr t) (hg : Guarded guard tr) (hs : Inv s) :
    Inv t := by
  induction hrun with
  | nil s => exact hs
  | cons hst _ ih =>
      obtain ⟨hhead, htail⟩ := guarded_cons.mp hg
      exact ih htail (hstep _ _ _ hs hhead hst)

/-- The invariant rule for guarded runs. -/
theorem invariant {guard : σ → ε → Prop} {Inv : σ → Prop}
    (hinit : ∀ s, S.init s → Inv s)
    (hstep : ∀ s e t, Inv s → guard s e → S.step s e t → Inv t)
    {s t : σ} {tr : List (σ × ε)} (hs : S.init s) (hrun : S.Run s tr t)
    (hg : Guarded guard tr) : Inv t :=
  hrun.preserves hstep hg (hinit s hs)

/-- An invariant kept by every step is carried from one end of a run to the other. -/
theorem preserves_of_all {Inv : σ → Prop} (hstep : ∀ s e t, Inv s → S.step s e t → Inv t)
    {s t : σ} {tr : List (σ × ε)} (hrun : S.Run s tr t) (hs : Inv s) : Inv t :=
  have hg : Guarded (fun _ _ => True) tr := fun _ _ => trivial
  hrun.preserves (fun s e t hi _ hst => hstep s e t hi hst) hg hs

/-- The invariant rule for all runs. -/
theorem invariant_of_all {Inv : σ → Prop}
    (hinit : ∀ s, S.init s → Inv s) (hstep : ∀ s e t, Inv s → S.step s e t → Inv t)
    {s t : σ} {tr : List (σ × ε)} (hs : S.init s) (hrun : S.Run s tr t) : Inv t :=
  hrun.preserves_of_all hstep (hinit s hs)

/-- A run that leaves what unmarked steps keep has a marked step. -/
theorem exists_marked {mark : σ → ε → Prop} {Inv : σ → Prop}
    (hstep : ∀ s e t, Inv s → ¬mark s e → S.step s e t → Inv t)
    {s t : σ} {tr : List (σ × ε)} (hrun : S.Run s tr t) (hs : Inv s) (ht : ¬Inv t) :
    ∃ x ∈ tr, mark x.1 x.2 := by
  by_contra hnone
  push Not at hnone
  exact ht (hrun.preserves hstep hnone hs)

/-- A step that finds a condition false, and makes it true for good, is taken at most once. -/
theorem countP_le_one {Inv A : σ → Prop} {mark : σ × ε → Bool}
    (hinv : ∀ s e t, Inv s → S.step s e t → Inv t)
    (hkeep : ∀ s e t, Inv s → A s → S.step s e t → A t)
    (hmark : ∀ s e t, Inv s → S.step s e t → mark (s, e) = true → ¬A s ∧ A t)
    {s t : σ} {tr : List (σ × ε)} (hrun : S.Run s tr t) (hs : Inv s) :
    tr.countP mark ≤ 1 ∧ (A s → tr.countP mark = 0) := by
  induction hrun with
  | nil s => simp
  | @cons s m u e tr hst _ ih =>
      obtain ⟨hle, hzero⟩ := ih (hinv s e m hs hst)
      rw [List.countP_cons]
      cases he : mark (s, e) with
      | true =>
          obtain ⟨hbefore, hafter⟩ := hmark s e m hs hst he
          rw [hzero hafter]
          exact ⟨Nat.le_refl _, fun ha => absurd ha hbefore⟩
      | false => exact ⟨hle, fun ha => hzero (hkeep s e m hs ha hst)⟩

/-- When every step keeps `Aux`, and keeps `Inv` exactly if it meets the guard, then `Inv` holds in
every state a run visits exactly if all its steps meet the guard. -/
theorem visited_iff {guard : σ → ε → Prop} {Aux Inv : σ → Prop}
    (haux : ∀ s e t, Aux s → S.step s e t → Aux t)
    (hstep : ∀ s e t, Aux s → Inv s → S.step s e t → (Inv t ↔ guard s e))
    {s t : σ} {tr : List (σ × ε)} (hrun : S.Run s tr t) (ha : Aux s) (hs : Inv s) :
    (Inv t ∧ ∀ x ∈ tr, Inv x.1) ↔ Guarded guard tr := by
  induction hrun with
  | nil s => exact ⟨fun _ => guarded_nil guard, fun _ => ⟨hs, fun x hx => nomatch hx⟩⟩
  | @cons s m u e tr hst hrest ih =>
      have hhead := hstep s e m ha hs hst
      rw [guarded_cons, List.forall_mem_cons, ← hhead]
      constructor
      · rintro ⟨hu, _, htail⟩
        have hm : Inv m := by
          cases hrest with
          | nil => exact hu
          | cons => exact htail _ List.mem_cons_self
        exact ⟨hm, (ih (haux s e m ha hst) hm).mp ⟨hu, htail⟩⟩
      · rintro ⟨hm, htail⟩
        obtain ⟨hu, hvisited⟩ := (ih (haux s e m ha hst) hm).mpr htail
        exact ⟨hu, hs, hvisited⟩

/-- When an invariant entails a property, is kept by each step that meets the guard, and the property
is broken by each that does not, then the property holds in every state a run visits exactly if all
its steps meet the guard. -/
theorem visited_iff_of_invariant {guard : σ → ε → Prop} {Inv P : σ → Prop}
    (hentails : ∀ s, Inv s → P s)
    (hkeep : ∀ s e t, Inv s → guard s e → S.step s e t → Inv t)
    (hbreak : ∀ s e t, Inv s → ¬guard s e → S.step s e t → ¬P t)
    {s t : σ} {tr : List (σ × ε)} (hrun : S.Run s tr t) (hs : Inv s) :
    (P t ∧ ∀ x ∈ tr, P x.1) ↔ Guarded guard tr := by
  induction hrun with
  | nil s => exact ⟨fun _ => guarded_nil guard, fun _ => ⟨hentails s hs, fun x hx => nomatch hx⟩⟩
  | @cons s m u e tr hst hrest ih =>
      rw [guarded_cons, List.forall_mem_cons]
      constructor
      · rintro ⟨hu, _, htail⟩
        have hm : P m := by
          cases hrest with
          | nil => exact hu
          | cons => exact htail _ List.mem_cons_self
        have hg : guard s e := by
          by_contra hg
          exact hbreak s e m hs hg hst hm
        exact ⟨hg, (ih (hkeep s e m hs hg hst)).mp ⟨hu, htail⟩⟩
      · rintro ⟨hg, htail⟩
        obtain ⟨hu, hvisited⟩ := (ih (hkeep s e m hs hg hst)).mpr htail
        exact ⟨hu, hentails s hs, hvisited⟩

/-- A run is cut at any of its steps. -/
theorem split {s u : σ} {tr : List (σ × ε)} (h : S.Run s tr u) {x : σ × ε} (hx : x ∈ tr) :
    ∃ tr₁ tr₂ t, tr = tr₁ ++ x :: tr₂ ∧ S.Run s tr₁ x.1 ∧ S.step x.1 x.2 t ∧ S.Run t tr₂ u := by
  induction h with
  | nil s => cases hx
  | @cons s t u e tr hst hrest ih =>
      rcases List.mem_cons.mp hx with rfl | hx
      · exact ⟨[], tr, t, rfl, .nil s, hst, hrest⟩
      · obtain ⟨tr₁, tr₂, t', htr, h₁, hmid, h₂⟩ := ih hx
        exact ⟨(s, e) :: tr₁, tr₂, t', by rw [htr]; rfl, .cons hst h₁, hmid, h₂⟩

end Run

/-! ## Systems given by a partial step function -/

variable {init : σ → Prop} {next : σ → ε → Option σ}

/-- The system whose step on a label is computed, or refused. -/
def ofNext (init : σ → Prop) (next : σ → ε → Option σ) : System σ ε where
  init := init
  step s e t := next s e = some t

/-- The steps a list of labels takes, up to the first label that is refused. -/
def stepsOf (next : σ → ε → Option σ) : σ → List ε → List (σ × ε)
  | _, [] => []
  | s, e :: es =>
      match next s e with
      | none => []
      | some t => (s, e) :: stepsOf next t es

/-- Where those steps lead. -/
def after (next : σ → ε → Option σ) : σ → List ε → σ
  | s, [] => s
  | s, e :: es =>
      match next s e with
      | none => s
      | some t => after next t es

/-- A list of labels is a run through its own steps. -/
theorem run_after (init : σ → Prop) (next : σ → ε → Option σ) (s : σ) (es : List ε) :
    (ofNext init next).Run s (stepsOf next s es) (after next s es) := by
  induction es generalizing s with
  | nil => exact .nil s
  | cons e es ih =>
      unfold stepsOf after
      cases hnext : next s e with
      | none => exact .nil s
      | some t => exact .cons hnext (ih t)

/-- Those steps have labels of the list. -/
theorem label_mem_of_mem_stepsOf {s : σ} {es : List ε} {x : σ × ε} (h : x ∈ stepsOf next s es) :
    x.2 ∈ es := by
  induction es generalizing s with
  | nil => cases h
  | cons e es ih =>
      unfold stepsOf at h
      split at h
      · cases h
      · rcases List.mem_cons.mp h with rfl | h
        · exact List.mem_cons_self
        · exact List.mem_cons_of_mem _ (ih h)

end System

end TeiidSyndesis.Library
