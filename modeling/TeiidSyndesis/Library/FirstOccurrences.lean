/-
# TeiidSyndesis.Library.FirstOccurrences — a list without what has been met already.

Elements are compared by a key.  Going through the list with the keys met so far, an element is kept when
its key is new.  What is kept has different keys, and a representative of every element.

Nothing here names a program.
-/
import Mathlib.Data.List.Basic

namespace TeiidSyndesis.Library

universe u v

variable {α : Type u} {κ : Type v} [DecidableEq κ] {key : α → κ}

/-- The elements whose key has not been met. -/
def unseen (key : α → κ) : List κ → List α → List α
  | _, [] => []
  | seen, x :: xs => if key x ∈ seen then unseen key seen xs else x :: unseen key (key x :: seen) xs

theorem mem_of_mem_unseen {seen : List κ} {xs : List α} {x : α} (h : x ∈ unseen key seen xs) :
    x ∈ xs ∧ key x ∉ seen := by
  induction xs generalizing seen with
  | nil => cases h
  | cons y ys ih =>
      rw [unseen] at h
      split at h
      · exact ⟨List.mem_cons_of_mem y (ih h).1, (ih h).2⟩
      · rename_i hnew
        rcases List.mem_cons.mp h with rfl | h
        · exact ⟨List.mem_cons_self, hnew⟩
        · obtain ⟨hmem, hseen⟩ := ih h
          exact ⟨List.mem_cons_of_mem y hmem, fun hx => hseen (List.mem_cons_of_mem _ hx)⟩

theorem nodup_unseen (seen : List κ) (xs : List α) : ((unseen key seen xs).map key).Nodup := by
  induction xs generalizing seen with
  | nil => exact .nil
  | cons x xs ih =>
      rw [unseen]
      split
      · exact ih seen
      · rw [List.map_cons, List.nodup_cons]
        refine ⟨fun hmem => ?_, ih _⟩
        obtain ⟨y, hy, hkey⟩ := List.mem_map.mp hmem
        exact (mem_of_mem_unseen hy).2 (hkey ▸ List.mem_cons_self)

/-- Every element is represented, unless its key had been met. -/
theorem exists_mem_unseen {seen : List κ} {xs : List α} {x : α} (h : x ∈ xs) (hnew : key x ∉ seen) :
    ∃ y ∈ unseen key seen xs, key y = key x := by
  induction xs generalizing seen with
  | nil => cases h
  | cons z zs ih =>
      rw [unseen]
      by_cases hseen : key z ∈ seen
      · rw [if_pos hseen]
        rcases List.mem_cons.mp h with rfl | h
        · exact absurd hseen hnew
        · exact ih h hnew
      · rw [if_neg hseen]
        by_cases hsame : key x = key z
        · exact ⟨z, List.mem_cons_self, hsame.symm⟩
        · have hx : x ∈ zs := by
            rcases List.mem_cons.mp h with rfl | h
            · exact absurd rfl hsame
            · exact h
          obtain ⟨y, hy, hkey⟩ := @ih (key z :: seen) hx (by simp [hsame, hnew])
          exact ⟨y, List.mem_cons_of_mem z hy, hkey⟩

end TeiidSyndesis.Library
