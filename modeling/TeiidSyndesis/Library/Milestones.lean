/-
# TeiidSyndesis.Library.Milestones — what a run has been through.

A state can be reached through stages only: the steps that enter one leave from the one before.  A state
need not stay in a stage, and may fall back to any earlier one, so the stages are no ranks, and what they
have in common is the order in which they are entered.  A run that ends in the last stage has entered all
of them, one after another.

Main results:
* `Staged` — each stage is entered by marked steps, from the one before;
* `Run.passed` — a run into a stage passed through all stages before it, in order.

Nothing here names a program.
-/
import TeiidSyndesis.Library.Transition

namespace TeiidSyndesis.Library

universe u v

namespace System

variable {σ : Type u} {ε : Type v} {S : System σ ε} {Inv : σ → Prop} {stage : Nat → σ → Prop}
  {mark : Nat → σ → ε → Prop}

/-- A stage is entered from the one before, by a step with the mark of the stage. -/
def Staged (S : System σ ε) (Inv : σ → Prop) (stage : Nat → σ → Prop) (mark : Nat → σ → ε → Prop) : Prop :=
  ∀ n s e t, Inv s → S.step s e t → stage (n + 1) t → stage (n + 1) s ∨ (stage n s ∧ mark n s e)

/-- The steps of the trace that entered the first stages, in order. -/
def Passed (mark : Nat → σ → ε → Prop) (n : Nat) (tr : List (σ × ε)) : Prop :=
  ∃ steps : List (σ × ε), steps.Sublist tr ∧ steps.length = n ∧
    ∀ k x, steps[k]? = some x → mark k x.1 x.2

theorem Passed.extend {n : Nat} {tr rest : List (σ × ε)} {x : σ × ε} (h : Passed mark n tr)
    (hx : mark n x.1 x.2) : Passed mark (n + 1) (tr ++ x :: rest) := by
  obtain ⟨steps, hsub, hlength, hmarks⟩ := h
  refine ⟨steps ++ [x], ?_, ?_, ?_⟩
  · apply hsub.append
    exact List.singleton_sublist.mpr List.mem_cons_self
  · rw [List.length_append, List.length_singleton, hlength]
  · intro k y hy
    rcases Nat.lt_trichotomy k steps.length with hlt | rfl | hgt
    · rw [List.getElem?_append_left hlt] at hy
      exact hmarks k y hy
    · rw [List.getElem?_concat_length] at hy
      obtain rfl := Option.some.inj hy
      rwa [hlength]
    · rw [List.getElem?_eq_none (by simp only [List.length_append, List.length_singleton]; omega)] at hy
      cases hy

/-- A run that ends in a stage it did not start in has entered the stages up to it, in order. -/
theorem Run.passed (hinv : ∀ s e t, Inv s → S.step s e t → Inv t) (hstaged : Staged S Inv stage mark)
    {s : σ} (hs : Inv s) (hout : ∀ n, ¬ stage (n + 1) s) {n : Nat} {t : σ} {tr : List (σ × ε)}
    (hrun : S.Run s tr t) (ht : stage n t) : Passed mark n tr := by
  induction n generalizing t tr with
  | zero => exact ⟨[], List.nil_sublist tr, rfl, fun k x hx => by simp at hx⟩
  | succ n ih =>
      -- the last step that entered the stage came from the one before
      have hstep : ∀ u e w, Inv u ∧ ¬ stage (n + 1) u → ¬ (stage n u ∧ mark n u e) → S.step u e w →
          Inv w ∧ ¬ stage (n + 1) w := by
        rintro u e w ⟨hu, hnot⟩ hmark hnext
        refine ⟨hinv u e w hu hnext, fun hw => ?_⟩
        rcases hstaged n u e w hu hnext hw with hold | hentered
        · exact hnot hold
        · exact hmark hentered
      obtain ⟨x, hx, hstage, hmark⟩ := hrun.exists_marked hstep ⟨hs, hout n⟩ fun hend => hend.2 ht
      obtain ⟨before, after, _, rfl, hbefore, _, _⟩ := hrun.split hx
      exact (ih hbefore hstage).extend hmark

end System

end TeiidSyndesis.Library
