/-
# TeiidSyndesis.Library.Descent — runs whose marked steps come to an end.

The marked steps of a run are those a system takes by itself, and the others are what is asked of it.  A
rank that every marked step lowers, and that every other step raises by a bounded amount, bounds the
marked steps of a run by its other steps.  So a system that is left alone stops, and where it stops is a
matter of the steps it can still take there.

Main results:
* `sum_map_set`, `sum_map_filter_le` — a summed rank where one member changes, or some are dropped;
* `Run.countP_le` — the marked steps of a run are bounded by its start and its other steps.

Nothing here names a program.
-/
import TeiidSyndesis.Library.Transition
import Mathlib.Algebra.Ring.Nat

namespace TeiidSyndesis.Library

universe u v

/-! ## Ranks of lists -/

/-- The rank of a list changes by what is written at a position, and what stood there. -/
theorem sum_map_set {α : Type u} (rank : α → Nat) {l : List α} {i : Nat} {old : α}
    (h : l[i]? = some old) (new : α) :
    ((l.set i new).map rank).sum + rank old = (l.map rank).sum + rank new := by
  induction l generalizing i with
  | nil => cases h
  | cons a l ih =>
      cases i with
      | zero =>
          obtain rfl := Option.some.inj h
          simp only [List.set_cons_zero, List.map_cons, List.sum_cons]
          omega
      | succ i =>
          have htail := ih (i := i) h
          simp only [List.set_cons_succ, List.map_cons, List.sum_cons]
          omega

theorem sum_map_filter_le {α : Type u} (rank : α → Nat) (p : α → Bool) (l : List α) :
    ((l.filter p).map rank).sum ≤ (l.map rank).sum := by
  induction l with
  | nil => exact Nat.le_refl _
  | cons a l ih =>
      rw [List.filter_cons]
      split
      · simp only [List.map_cons, List.sum_cons]
        omega
      · simp only [List.map_cons, List.sum_cons]
        omega

namespace System

variable {σ : Type u} {ε : Type v} {S : System σ ε} {Inv : σ → Prop} {rank : σ → Nat}
  {mark : ε → Bool} {cost : Nat}

/-- The marked steps of a run are paid for by the others. -/
theorem Run.countP_le (hinv : ∀ s e t, Inv s → S.step s e t → Inv t)
    (hmarked : ∀ s e t, Inv s → S.step s e t → mark e = true → rank t < rank s)
    (hother : ∀ s e t, Inv s → S.step s e t → mark e = false → rank t ≤ rank s + cost)
    {s t : σ} {tr : List (σ × ε)} (hrun : S.Run s tr t) (hs : Inv s) :
    tr.countP (fun x => mark x.2) + rank t ≤ rank s + cost * tr.countP (fun x => !mark x.2) := by
  induction hrun with
  | nil s => simp
  | @cons s m t e tr hstep _ ih =>
      have htail := ih (hinv s e m hs hstep)
      rw [List.countP_cons, List.countP_cons]
      cases hmark : mark e with
      | true =>
          have hlower := hmarked s e m hs hstep hmark
          simp only [Bool.not_true, Bool.false_eq_true, if_false, if_true, Nat.add_zero]
          omega
      | false =>
          have hraise := hother s e m hs hstep hmark
          simp only [Bool.not_false, Bool.false_eq_true, if_false, if_true, Nat.add_zero, Nat.mul_add,
            Nat.mul_one]
          omega

end System

end TeiidSyndesis.Library
