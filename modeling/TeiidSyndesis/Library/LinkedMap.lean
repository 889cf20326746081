/-
# TeiidSyndesis.Library.LinkedMap — maps that remember the order of their keys.

A value carries its key.  A key that is put again keeps its place and takes the new value; a new key
goes to the end.  That no key occurs twice is part of the type.

Nothing here names a program.

Main results:
* `mem_keys_put`, `get_of_mem`, `put_of_mem` — one operation;
* `values_foldl_put`, `values_foldl_putIfAbsent` — and many, from an empty map.
-/
import Mathlib.Data.List.Nodup
import TeiidSyndesis.Library.Tables

namespace TeiidSyndesis.Library

universe u v

variable {α : Type u} {κ : Type v}

/-- A linked map, by its values in the order their keys came. -/
structure LinkedMap (key : α → κ) where
  values : List α
  nodup : (values.map key).Nodup

namespace LinkedMap

variable {key : α → κ}

def empty : LinkedMap key := ⟨[], .nil⟩

@[simp]
theorem values_empty : (empty : LinkedMap key).values = [] := rfl

/-- The keys, in the order of their values. -/
def keys (m : LinkedMap key) : List κ := m.values.map key

variable [DecidableEq κ]

/-- The key is there. -/
def containsKey (m : LinkedMap key) (k : κ) : Bool := decide (k ∈ m.keys)

/-- The value of a key. -/
def get (m : LinkedMap key) (k : κ) : Option α := m.values.find? fun x => key x = k

/-- The value replaces the one of its key, or goes to the end. -/
def put (m : LinkedMap key) (x : α) : LinkedMap key where
  values := if key x ∈ m.keys then writeRow key x m.values else m.values ++ [x]
  nodup := by
    split
    · rw [map_key_writeRow]
      exact m.nodup
    · rename_i hnew
      rw [List.map_append, List.map_singleton]
      exact List.nodup_append.mpr ⟨m.nodup, List.nodup_singleton _, by
        rintro k hk _ hx rfl
        rw [List.mem_singleton] at hx
        exact hnew (hx ▸ hk)⟩

/-- The value goes to the end, unless its key is there. -/
def putIfAbsent (m : LinkedMap key) (x : α) : LinkedMap key :=
  if m.containsKey (key x) then m else m.put x

/-- A new key goes to the end. -/
theorem values_put_of_new {m : LinkedMap key} {x : α} (h : key x ∉ m.keys) :
    (m.put x).values = m.values ++ [x] := if_neg h

/-- The keys after a value has been put. -/
theorem mem_keys_put {m : LinkedMap key} {x : α} {k : κ} :
    k ∈ (m.put x).keys ↔ k ∈ m.keys ∨ k = key x := by
  by_cases hold : key x ∈ m.keys
  · have hkeys : (m.put x).keys = m.keys := by
      show (if key x ∈ m.keys then writeRow key x m.values else m.values ++ [x]).map key = m.keys
      rw [if_pos hold, map_key_writeRow]
      rfl
    rw [hkeys]
    constructor
    · exact .inl
    · rintro (hk | rfl)
      · exact hk
      · exact hold
  · unfold keys
    rw [values_put_of_new hold, List.map_append, List.map_singleton, List.mem_append,
      List.mem_singleton]

/-- Keys that are put are there. -/
theorem mem_keys_foldl_put {m : LinkedMap key} {xs : List α} {k : κ} :
    k ∈ (xs.foldl put m).keys ↔ k ∈ m.keys ∨ k ∈ xs.map key := by
  induction xs generalizing m with
  | nil => simp
  | cons x xs ih =>
      rw [List.foldl_cons, ih, mem_keys_put, List.map_cons, List.mem_cons]
      tauto

/-- A value is found under its key. -/
theorem get_of_mem {m : LinkedMap key} {x : α} (h : x ∈ m.values) : m.get (key x) = some x :=
  find?_of_mem m.nodup h

/-- Putting a value that is there changes nothing. -/
theorem put_of_mem {m : LinkedMap key} {x : α} (h : x ∈ m.values) : (m.put x).values = m.values := by
  have hkey : key x ∈ m.keys := List.mem_map_of_mem h
  show (if key x ∈ m.keys then writeRow key x m.values else m.values ++ [x]) = m.values
  rw [if_pos hkey, writeRow_self m.nodup h]

/-- Where no two values have one key, all that are put are there. -/
theorem mem_values_foldl_put {m : LinkedMap key} {xs : List α}
    (h : ∀ x ∈ m.values ++ xs, ∀ y ∈ m.values ++ xs, key x = key y → x = y) {z : α} :
    z ∈ (xs.foldl put m).values ↔ z ∈ m.values ++ xs := by
  induction xs generalizing m with
  | nil => simp
  | cons x xs ih =>
      have hx : x ∈ m.values ++ x :: xs := by simp
      rw [List.foldl_cons]
      by_cases hkey : key x ∈ m.keys
      · obtain ⟨y, hy, hyx⟩ := List.mem_map.mp hkey
        obtain rfl := h y (List.mem_append_left _ hy) x hx hyx
        have hsame := put_of_mem hy
        have hsub : ∀ w, w ∈ (m.put y).values ++ xs ↔ w ∈ m.values ++ y :: xs := by
          intro w
          rw [hsame, List.mem_append, List.mem_append, List.mem_cons]
          constructor
          · rintro (hw | hw)
            · exact .inl hw
            · exact .inr (.inr hw)
          · rintro (hw | rfl | hw)
            · exact .inl hw
            · exact .inl hy
            · exact .inr hw
        rw [ih fun a ha b hb => h a ((hsub a).mp ha) b ((hsub b).mp hb), hsub]
      · have hnew := values_put_of_new hkey
        have hsub : (m.put x).values ++ xs = m.values ++ x :: xs := by
          rw [hnew, List.append_assoc, List.singleton_append]
        rw [ih (by rw [hsub]; exact h), hsub]

/-- Putting values with new and different keys appends them. -/
theorem values_foldl_put {m : LinkedMap key} {xs : List α}
    (h : (m.keys ++ xs.map key).Nodup) : (xs.foldl put m).values = m.values ++ xs := by
  induction xs generalizing m with
  | nil => simp
  | cons x xs ih =>
      have hnew : key x ∉ m.keys := by
        intro hmem
        exact (List.disjoint_of_nodup_append h) hmem (by simp)
      have hvalues := values_put_of_new hnew
      have hkeys : (m.put x).keys = m.keys ++ [key x] := by
        unfold keys
        rw [hvalues, List.map_append, List.map_singleton]
      rw [List.foldl_cons, ih (by rw [hkeys]; simpa using h), hvalues, List.append_assoc]
      rfl

/-- Putting values with different keys where these are absent appends those with new keys. -/
theorem values_foldl_putIfAbsent {m : LinkedMap key} {xs : List α} (h : (xs.map key).Nodup) :
    (xs.foldl putIfAbsent m).values = m.values ++ xs.filter fun x => key x ∉ m.keys := by
  induction xs generalizing m with
  | nil => simp
  | cons x xs ih =>
      rw [List.map_cons, List.nodup_cons] at h
      rw [List.foldl_cons, ih h.2]
      by_cases hold : key x ∈ m.keys
      · have hsame : m.putIfAbsent x = m := if_pos (decide_eq_true hold)
        rw [hsame, List.filter_cons_of_neg (by simpa using hold)]
      · have hput : m.putIfAbsent x = m.put x := if_neg (by simpa [containsKey] using hold)
        have hvalues := values_put_of_new hold
        -- the keys that follow differ from the one that has been added
        have hrest : (xs.filter fun y => key y ∉ (m.put x).keys) = xs.filter fun y => key y ∉ m.keys := by
          refine List.filter_congr fun y hy => ?_
          have hne : key y ≠ key x := by
            intro heq
            exact h.1 (heq ▸ List.mem_map_of_mem hy)
          unfold keys
          rw [hvalues]
          simp [hne]
        rw [hput, hrest, hvalues, List.filter_cons_of_pos (by simpa using hold), List.append_assoc]
        rfl

end LinkedMap

end TeiidSyndesis.Library
