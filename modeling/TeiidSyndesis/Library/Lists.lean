/-
# TeiidSyndesis.Library.Lists — lists with one position changed, and loops over lists.

A list of records indexed by position is the model of a collection of mutable objects.  The first facts
say which members a change at one position can bring in, and which it can take away.  The others are
about a property that one round of a loop brings about and the following rounds keep.
-/
import Mathlib.Data.List.Basic

namespace TeiidSyndesis.Library

universe u v

variable {α : Type u} {β : Type v}

/-! ## One position changed -/

/-- A member of the modified list was there before, or is the changed one. -/
theorem mem_modify {l : List α} {i : Nat} {f : α → α} {x : α} (h : x ∈ l.modify i f) :
    x ∈ l ∨ ∃ a, l[i]? = some a ∧ x = f a := by
  obtain ⟨j, hj⟩ := List.mem_iff_getElem?.mp h
  rw [List.getElem?_modify, Option.map_eq_map, Option.map_eq_some_iff] at hj
  obtain ⟨a, ha, hx⟩ := hj
  by_cases hij : i = j
  · subst hij
    exact .inr ⟨a, ha, by simpa using hx.symm⟩
  · rw [if_neg hij] at hx
    exact .inl (hx ▸ List.mem_of_getElem? ha)

/-- A member of the list is still there after the change, or it is the one that changed. -/
theorem mem_modify_or {l : List α} {x : α} (h : x ∈ l) (i : Nat) (f : α → α) :
    x ∈ l.modify i f ∨ (l[i]? = some x ∧ f x ∈ l.modify i f) := by
  obtain ⟨j, hj⟩ := List.mem_iff_getElem?.mp h
  have hmod : (l.modify i f)[j]? = some (if i = j then f x else x) := by
    rw [List.getElem?_modify, hj]
    by_cases hij : i = j
    · simp [hij]
    · simp [hij]
  by_cases hij : i = j
  · subst hij
    rw [if_pos rfl] at hmod
    exact .inr ⟨hj, List.mem_of_getElem? hmod⟩
  · rw [if_neg hij] at hmod
    exact .inl (List.mem_of_getElem? hmod)

/-- The members at the other positions stay. -/
theorem mem_modify_of_mem_eraseIdx {l : List α} {i : Nat} {x : α} (h : x ∈ l.eraseIdx i)
    (f : α → α) : x ∈ l.modify i f := by
  obtain ⟨j, hj, hget⟩ := List.mem_eraseIdx_iff_getElem?.mp h
  refine List.mem_of_getElem? (?_ : (l.modify i f)[j]? = some x)
  rw [List.getElem?_modify, hget, Option.map_eq_map, Option.map_some, if_neg (Ne.symm hj)]

/-- A member stays when a position is overwritten, unless it was there. -/
theorem mem_set_or {l : List α} {i : Nat} {old x : α} (hold : l[i]? = some old) (h : x ∈ l)
    (new : α) : x = old ∨ x ∈ l.set i new := by
  obtain ⟨j, hj⟩ := List.mem_iff_getElem?.mp h
  by_cases hij : i = j
  · subst hij
    exact .inl (Option.some.inj (hj.symm.trans hold))
  · exact .inr (List.mem_of_getElem? ((List.getElem?_set_ne hij).trans hj))

/-- Nothing changes where a position is overwritten with what stands there. -/
theorem set_of_getElem? {l : List α} {i : Nat} {x : α} (h : l[i]? = some x) : l.set i x = l := by
  obtain ⟨hi, rfl⟩ := List.getElem?_eq_some_iff.mp h
  exact List.set_getElem_self hi

/-- What stands at a position after one has been overwritten. -/
theorem getElem?_set_cases {l : List α} {i j : Nat} {new x : α} (h : (l.set i new)[j]? = some x) :
    (j = i ∧ x = new) ∨ (j ≠ i ∧ l[j]? = some x) := by
  rw [List.getElem?_set] at h
  split at h
  · rename_i hij
    split at h
    · exact .inl ⟨hij.symm, (Option.some.inj h).symm⟩
    · cases h
  · rename_i hij
    exact .inr ⟨Ne.symm hij, h⟩

/-- An entry is found among those whose keys are kept if its own is. -/
theorem lookup_filter [BEq α] [LawfulBEq α] (p : α → Bool) (l : List (α × β)) (key : α) :
    (l.filter fun entry => p entry.1).lookup key = if p key then l.lookup key else none := by
  induction l with
  | nil => simp
  | cons entry l ih =>
      obtain ⟨other, value⟩ := entry
      cases hkey : key == other with
      | true =>
          obtain rfl := eq_of_beq hkey
          cases hp : p key with
          | true => simp [hp]
          | false => simpa [hp] using ih
      | false =>
          cases hp : p other with
          | true => simp [hp, List.lookup_cons, hkey, ih]
          | false => simp [hp, List.lookup_cons, hkey, ih]

/-- The entry of a key stays when those of another are taken out. -/
theorem lookup_filter_ne [BEq α] [LawfulBEq α] [DecidableEq α] {l : List (α × β)} {key other : α}
    (h : key ≠ other) : (l.filter (·.1 ≠ other)).lookup key = l.lookup key := by
  rw [lookup_filter (fun k => decide (k ≠ other)), if_pos (decide_eq_true h)]

/-- Entries are found again under keys that have been renamed. -/
theorem lookup_map_key {γ : Type*} [BEq α] [LawfulBEq α] [BEq γ] [LawfulBEq γ] {f : α → γ}
    (hf : Function.Injective f) (l : List (α × β)) (key : α) :
    (l.map fun entry => (f entry.1, entry.2)).lookup (f key) = l.lookup key := by
  induction l with
  | nil => rfl
  | cons entry l ih =>
      obtain ⟨k, b⟩ := entry
      have hkeys : (f key == f k) = (key == k) := by
        rw [Bool.eq_iff_iff, beq_iff_eq, beq_iff_eq]
        exact hf.eq_iff
      rw [List.map_cons, List.lookup_cons, List.lookup_cons, hkeys, ih]

/-! ## Loops -/

theorem foldl_of_inv {f : β → α → β} {P : β → Prop} {l : List α} (hkeep : ∀ b a, P b → P (f b a))
    {b : β} (hb : P b) : P (l.foldl f b) := by
  induction l generalizing b with
  | nil => exact hb
  | cons a l ih => exact ih (hkeep b a hb)

/-- A property that the round of one member brings about holds after the loop. -/
theorem foldl_of_mem {f : β → α → β} {P : β → Prop} {l : List α} {a : α} (hmem : a ∈ l)
    (hkeep : ∀ b a, P b → P (f b a)) (hadd : ∀ b, P (f b a)) (b : β) : P (l.foldl f b) := by
  obtain ⟨front, back, rfl⟩ := List.append_of_mem hmem
  rw [List.foldl_append, List.foldl_cons]
  exact foldl_of_inv hkeep (hadd _)

theorem foldlM_of_inv {f : β → α → Option β} {P : β → Prop} {l : List α}
    (hkeep : ∀ b a b', P b → f b a = some b' → P b') {b b' : β} (hb : P b)
    (h : l.foldlM f b = some b') : P b' := by
  induction l generalizing b with
  | nil =>
      cases h
      exact hb
  | cons a l ih =>
      rw [List.foldlM_cons] at h
      obtain ⟨m, hm, hrest⟩ := Option.bind_eq_some_iff.mp h
      exact ih (hkeep b a m hb hm) hrest

/-- The same for a loop that may fail, where it has not. -/
theorem foldlM_of_mem {f : β → α → Option β} {P : β → Prop} {l : List α} {a : α} (hmem : a ∈ l)
    (hkeep : ∀ b a b', P b → f b a = some b' → P b') (hadd : ∀ b b', f b a = some b' → P b')
    {b b' : β} (h : l.foldlM f b = some b') : P b' := by
  obtain ⟨front, back, rfl⟩ := List.append_of_mem hmem
  rw [List.foldlM_append] at h
  obtain ⟨m, _, h⟩ := Option.bind_eq_some_iff.mp h
  rw [List.foldlM_cons] at h
  obtain ⟨m', hm', hrest⟩ := Option.bind_eq_some_iff.mp h
  exact foldlM_of_inv hkeep (hadd m m' hm') hrest

end TeiidSyndesis.Library
