/-
# TeiidSyndesis.Library.Simulation — one transition system carried out by another.

A step of the concrete system is observed as an abstract label, or is silent.  The concrete system
simulates the abstract one along a relation between their states when a silent step keeps the relation
and an observed one is matched by the abstract step with that label.  Then a run of the concrete system
is one of the abstract system, whose labels are what the run was observed to do, in its order; so what
holds in every run of the abstract system holds of the concrete one.

The steps may be asked to meet a guard, as in the runs of `Transition`.

Main results:
* `Simulates` — what the two kinds of steps have to meet;
* `Simulates.run` — a run of the concrete system gives one of the abstract system.

Nothing here names a program.
-/
import TeiidSyndesis.Library.Transition

namespace TeiidSyndesis.Library

universe u v w x

namespace System

variable {σ : Type u} {ε : Type v} {α : Type w} {δ : Type x} {S : System σ ε} {A : System α δ}
  {guard : σ → ε → Prop} {R : σ → α → Prop} {observe : σ → ε → Option δ}

/-- What a run was observed to do. -/
def observed (observe : σ → ε → Option δ) (tr : List (σ × ε)) : List δ :=
  tr.filterMap fun x => observe x.1 x.2

theorem observed_cons_none {s : σ} {e : ε} {tr : List (σ × ε)} (h : observe s e = none) :
    observed observe ((s, e) :: tr) = observed observe tr :=
  List.filterMap_cons_none h

theorem observed_cons_some {s : σ} {e : ε} {d : δ} {tr : List (σ × ε)} (h : observe s e = some d) :
    observed observe ((s, e) :: tr) = d :: observed observe tr :=
  List.filterMap_cons_some h

/-- `S` carries out `A`: a guarded step is silent, or one of `A`. -/
structure Simulates (S : System σ ε) (A : System α δ) (guard : σ → ε → Prop) (R : σ → α → Prop)
    (observe : σ → ε → Option δ) : Prop where
  silent {s t : σ} {e : ε} {a : α} :
    R s a → guard s e → S.step s e t → observe s e = none → R t a
  matched {s t : σ} {e : ε} {a : α} {d : δ} :
    R s a → guard s e → S.step s e t → observe s e = some d → ∃ b, A.step a d b ∧ R t b

/-- A guarded run of the concrete system is a run of the abstract one, with the labels observed. -/
theorem Simulates.run (h : Simulates S A guard R observe) {s t : σ} {tr : List (σ × ε)}
    (hrun : S.Run s tr t) (hg : Guarded guard tr) {a : α} (hs : R s a) :
    ∃ b atr, A.Run a atr b ∧ atr.map Prod.snd = observed observe tr ∧ R t b := by
  induction hrun generalizing a with
  | nil s => exact ⟨a, [], .nil a, rfl, hs⟩
  | @cons s m t e tr hstep _ ih =>
      obtain ⟨hhead, htail⟩ := guarded_cons.mp hg
      cases hobserve : observe s e with
      | none =>
          obtain ⟨b, atr, habstract, hlabels, ht⟩ := ih htail (h.silent hs hhead hstep hobserve)
          rw [observed_cons_none hobserve]
          exact ⟨b, atr, habstract, hlabels, ht⟩
      | some d =>
          obtain ⟨mid, hmatched, hm⟩ := h.matched hs hhead hstep hobserve
          obtain ⟨b, atr, habstract, hlabels, ht⟩ := ih htail hm
          rw [observed_cons_some hobserve]
          exact ⟨b, (a, d) :: atr, .cons hmatched habstract, congrArg (d :: ·) hlabels, ht⟩

end System

end TeiidSyndesis.Library
