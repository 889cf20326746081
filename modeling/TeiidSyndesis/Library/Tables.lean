/-
# TeiidSyndesis.Library.Tables — tables as lists of rows with a key.

Writing a row replaces the rows that bear its key.  In a table whose keys are distinct this changes
one row, and a summary of the table changes exactly if what it takes from that row does.

Main results:
* `find?_of_mem`, `find?_map_key`, `find?_filter_key` — looking rows up by key;
* `writeRow_split`, `find?_writeRow`, `find?_writeRow_map` — what a write does where keys are distinct;
* `filterMap_writeRow` — and what it does to a summary of the table.
-/
import Mathlib.Data.List.Find
import Mathlib.Data.List.Nodup

namespace TeiidSyndesis.Library

universe u v w

variable {α : Type u} {κ : Type v} {β : Type w} [DecidableEq κ] {key : α → κ}

/-- A row found under a key bears it. -/
theorem key_of_find? {key : α → κ} {table : List α} {k : κ} {row : α}
    (h : table.find? (key · = k) = some row) : key row = k := by
  simpa using List.find?_some h

/-- With distinct keys a row is found under its own. -/
theorem find?_of_mem {table : List α} {row : α} (hkeys : (table.map key).Nodup) (h : row ∈ table) :
    table.find? (key · = key row) = some row := by
  cases hfind : table.find? (key · = key row) with
  | none =>
      have hnone := List.find?_eq_none.mp hfind row h
      simp at hnone
  | some other =>
      have hkey := key_of_find? hfind
      rw [List.inj_on_of_nodup_map hkeys (List.mem_of_find?_eq_some hfind) h hkey]

/-- Rows that are changed under their keys are found as before, and changed. -/
theorem find?_map_key (key : α → κ) {f : α → α} (hf : ∀ x, key (f x) = key x) (table : List α) (k : κ) :
    (table.map f).find? (key · = k) = (table.find? (key · = k)).map f := by
  rw [List.find?_map]
  congr 2
  funext x
  show decide (key (f x) = k) = _
  rw [hf]

/-- Where the rows of one key are gone, the others are found as before. -/
theorem find?_filter_key (key : α → κ) (table : List α) (gone k : κ) :
    (table.filter (key · ≠ gone)).find? (key · = k) =
      if k = gone then none else table.find? (key · = k) := by
  rw [List.find?_filter]
  by_cases hk : k = gone
  · rw [if_pos hk, List.find?_eq_none]
    intro x _
    simp [hk]
  · rw [if_neg hk]
    congr 1
    funext x
    by_cases hx : key x = k
    · simp [hx, hk]
    · simp [hx]

/-- The table with the row written over the one of its key. -/
def writeRow (key : α → κ) (row : α) (table : List α) : List α :=
  table.map fun other => if key other = key row then row else other

/-- A write keeps the keys. -/
@[simp]
theorem map_key_writeRow (row : α) (table : List α) :
    (writeRow key row table).map key = table.map key := by
  unfold writeRow
  rw [List.map_map]
  refine List.map_congr_left ?_
  intro other _
  by_cases h : key other = key row
  · simp [h]
  · simp [h]

/-- What is in the table afterwards is the row, or bears another key. -/
theorem mem_writeRow {row x : α} {table : List α} (h : x ∈ writeRow key row table) :
    x = row ∨ (x ∈ table ∧ key x ≠ key row) := by
  obtain ⟨other, hmem, rfl⟩ := List.mem_map.mp h
  by_cases hkey : key other = key row
  · rw [if_pos hkey]
    exact .inl rfl
  · rw [if_neg hkey]
    exact .inr ⟨hmem, hkey⟩

/-- A table without the key stays as it is. -/
theorem writeRow_of_forall_ne {row : α} {table : List α} (h : ∀ x ∈ table, key x ≠ key row) :
    writeRow key row table = table := by
  unfold writeRow
  have hsame : ∀ x ∈ table, (if key x = key row then row else x) = x :=
    fun x hx => if_neg (h x hx)
  exact (List.map_congr_left hsame).trans (List.map_id' table)

/-- A row with a new key is written where it was added. -/
theorem writeRow_append {row old : α} {table : List α} (h : ∀ x ∈ table, key x ≠ key row)
    (hkey : key old = key row) : writeRow key row (table ++ [old]) = table ++ [row] := by
  have hadded : writeRow key row [old] = [row] := by
    show [if key old = key row then row else old] = [row]
    rw [if_pos hkey]
  calc writeRow key row (table ++ [old])
      = writeRow key row table ++ writeRow key row [old] := List.map_append
    _ = table ++ [row] := by rw [writeRow_of_forall_ne h, hadded]

/-- With distinct keys one row is written. -/
theorem writeRow_split {row old : α} {table : List α} (hkeys : (table.map key).Nodup)
    (hold : old ∈ table) (hkey : key old = key row) :
    ∃ front back, table = front ++ old :: back ∧
      writeRow key row table = front ++ row :: back := by
  obtain ⟨front, back, rfl⟩ := List.append_of_mem hold
  rw [List.map_append, List.map_cons, List.nodup_append, List.nodup_cons] at hkeys
  obtain ⟨_, ⟨hback, _⟩, hfront⟩ := hkeys
  have hfrontSame : writeRow key row front = front := by
    refine writeRow_of_forall_ne ?_
    intro x hx heq
    exact hfront (key x) (List.mem_map_of_mem hx) (key old) List.mem_cons_self (heq.trans hkey.symm)
  have hbackSame : writeRow key row back = back := by
    refine writeRow_of_forall_ne ?_
    intro x hx heq
    exact hback (List.mem_map.mpr ⟨x, hx, heq.trans hkey.symm⟩)
  refine ⟨front, back, rfl, ?_⟩
  calc writeRow key row (front ++ old :: back)
      = writeRow key row front ++ writeRow key row (old :: back) := List.map_append
    _ = front ++ row :: back := by
        rw [hfrontSame]
        show front ++ (if key old = key row then row else old) :: writeRow key row back = _
        rw [if_pos hkey, hbackSame]

/-- A row whose key is there is written. -/
theorem mem_writeRow_self {row old : α} {table : List α} (hold : old ∈ table)
    (hkey : key old = key row) : row ∈ writeRow key row table :=
  List.mem_map.mpr ⟨old, hold, if_pos hkey⟩

/-- The row that is written is found under its key, if the table has the key. -/
theorem find?_writeRow (row : α) (table : List α) (k : κ) :
    (writeRow key row table).find? (key · = k) =
      if k = key row then (table.find? (key · = k)).map fun _ => row
      else table.find? (key · = k) := by
  have hkeep : ∀ other, key (if key other = key row then row else other) = key other := by
    intro other
    split
    · rename_i h
      exact h.symm
    · rfl
  unfold writeRow
  rw [find?_map_key key hkeep]
  cases hfind : table.find? (key · = k) with
  | none => simp
  | some other =>
      rw [Option.map_some, key_of_find? hfind]
      by_cases hk : k = key row
      · simp [hk]
      · simp [hk]

/-- Writing a row that is there changes nothing. -/
theorem writeRow_self {row : α} {table : List α} (hkeys : (table.map key).Nodup) (h : row ∈ table) :
    writeRow key row table = table := by
  obtain ⟨front, back, htable, hwritten⟩ := writeRow_split hkeys h rfl
  rw [hwritten, htable]

/-- A query that does not tell a row from the one it is written over finds the same place. -/
theorem find?_writeRow_map {row old : α} {table : List α} {p : α → Bool}
    (hkeys : (table.map key).Nodup) (hold : old ∈ table) (hkey : key old = key row)
    (hp : p row = p old) :
    (writeRow key row table).find? p =
      (table.find? p).map fun other => if key other = key row then row else other := by
  have hsame : ∀ x ∈ table, (p ∘ fun other => if key other = key row then row else other) x = p x := by
    intro x hx
    show p (if key x = key row then row else x) = p x
    by_cases hx' : key x = key row
    · rw [if_pos hx', hp, List.inj_on_of_nodup_map hkeys hx hold (hx'.trans hkey.symm)]
    · rw [if_neg hx']
  unfold writeRow
  rw [List.find?_map, List.find?_congr hsame]

/-- A summary that takes something or nothing from each row changes with what it takes from the row
that is written. -/
theorem filterMap_writeRow {row old : α} {table : List α} (hkeys : (table.map key).Nodup)
    (hold : old ∈ table) (hkey : key old = key row) (f : α → Option β) :
    (writeRow key row table).filterMap f = table.filterMap f ↔ f row = f old := by
  obtain ⟨front, back, htable, hwritten⟩ := writeRow_split hkeys hold hkey
  rw [hwritten, htable, List.filterMap_append, List.filterMap_append, List.append_cancel_left_eq]
  cases hrow : f row with
  | none =>
      rw [List.filterMap_cons_none hrow]
      cases holdRow : f old with
      | none => simp [List.filterMap_cons_none holdRow]
      | some b =>
          rw [List.filterMap_cons_some holdRow]
          simp
  | some a =>
      rw [List.filterMap_cons_some hrow]
      cases holdRow : f old with
      | none =>
          rw [List.filterMap_cons_none holdRow]
          simp
      | some b =>
          rw [List.filterMap_cons_some holdRow, List.cons_eq_cons, Option.some.injEq]
          simp

/-- Rows that give nothing may go. -/
theorem filterMap_filter_of_none {table : List α} {p : α → Bool} {f : α → Option β}
    (h : ∀ x ∈ table, p x = false → f x = none) :
    (table.filter p).filterMap f = table.filterMap f := by
  rw [List.filterMap_filter]
  refine List.filterMap_congr ?_
  intro x hx
  cases hp : p x with
  | true => rfl
  | false => exact (h x hx hp).symm

/-- A row enters a table with a unique column, which may be empty, where its value is new. -/
theorem nodup_filterMap_concat {f : α → Option β} {table : List α} {row : α}
    (h : (table.filterMap f).Nodup) :
    ((table ++ [row]).filterMap f).Nodup ↔ ∀ x ∈ f row, ∀ other ∈ table, f other ≠ some x := by
  rw [List.filterMap_append, List.nodup_append']
  cases hrow : f row with
  | none => simp [hrow, h]
  | some x => simp [hrow, h, List.disjoint_singleton]

end TeiidSyndesis.Library
