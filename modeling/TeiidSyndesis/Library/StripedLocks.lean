/-
# TeiidSyndesis.Library.StripedLocks — locks by key, made when they are asked for and dropped when unused.

A table has at most one lock for each key, and refers to it weakly: a lock that no thread refers to may be
collected, and the next thread gets a new one.  A thread refers to a lock from when it gets it until it has
released it.  So the locks that threads refer to are those of the table, and of the threads that got a lock
for one key, at most one holds it.

Main results:
* `next_spec`, `next_refs_of_ne` — what a step does to the thread that takes it, and to the others;
* `Consistent.step` — the invariant: references that are held are those of the table;
* `Consistent.eq_of_holding` — so of the threads that got a lock for one key, at most one holds it.
-/
import Mathlib.Logic.Function.Basic
import TeiidSyndesis.Library.Lists

namespace TeiidSyndesis.Library

universe u

variable {κ : Type u}

/-! ## The table -/

/-- The lock of each key; those made so far are below `fresh`. -/
structure LockTable (κ : Type u) where
  entries : κ → Option Nat
  fresh : Nat
  entries_lt : ∀ k lock, entries k = some lock → lock < fresh

namespace LockTable

def empty : LockTable κ where
  entries _ := none
  fresh := 0
  entries_lt _ _ h := by cases h

variable [DecidableEq κ]

/-- A new lock for a key. -/
def add (table : LockTable κ) (k : κ) : LockTable κ where
  entries := Function.update table.entries k (some table.fresh)
  fresh := table.fresh + 1
  entries_lt k' lock h := by
    by_cases hk : k' = k
    · subst hk
      rw [Function.update_self] at h
      cases h
      exact Nat.lt_succ_self _
    · rw [Function.update_of_ne hk] at h
      exact Nat.lt_succ_of_lt (table.entries_lt k' lock h)

/-- The collector takes the lock of a key. -/
def drop (table : LockTable κ) (k : κ) : LockTable κ where
  entries := Function.update table.entries k none
  fresh := table.fresh
  entries_lt k' lock h := by
    by_cases hk : k' = k
    · subst hk
      rw [Function.update_self] at h
      cases h
    · rw [Function.update_of_ne hk] at h
      exact table.entries_lt k' lock h

/-- The lock of a key, which is made if there is none. -/
def get (table : LockTable κ) (k : κ) : Nat × LockTable κ :=
  match table.entries k with
  | some lock => (lock, table)
  | none => (table.fresh, table.add k)

/-- Asking for a lock changes the entry of its key alone. -/
theorem entries_get (table : LockTable κ) (k : κ) :
    (table.get k).2.entries = Function.update table.entries k (some (table.get k).1) := by
  unfold get
  cases h : table.entries k with
  | some lock => exact (Function.update_eq_self_iff.mpr h.symm).symm
  | none => rfl

end LockTable

/-! ## Threads -/

/-- What a thread refers to: the lock it has got for a key, which it waits for or holds. -/
inductive LockRef (κ : Type u)
  | idle
  | waiting (k : κ) (lock : Nat)
  | holding (k : κ) (lock : Nat)
  deriving DecidableEq

namespace LockRef

/-- The lock a thread refers to, with its key. -/
def target : LockRef κ → Option (κ × Nat)
  | idle => none
  | waiting k lock | holding k lock => some (k, lock)

/-- The lock a thread refers to. -/
def lock (ref : LockRef κ) : Option Nat := ref.target.map (·.2)

/-- The lock a thread holds. -/
def held : LockRef κ → Option Nat
  | holding _ lock => some lock
  | _ => none

end LockRef

/-- The table with what each thread refers to. -/
structure StripedLocks (κ : Type u) where
  table : LockTable κ
  refs : List (LockRef κ)

/-- What can happen to the locks. -/
inductive LockLabel (κ : Type u)
  | get (thread : Nat) (k : κ)
  | acquire (thread : Nat)
  | release (thread : Nat)
  /-- the collector drops the entry of a key -/
  | collect (k : κ)

/-- The thread whose step it is. -/
def LockLabel.actor : LockLabel κ → Option Nat
  | get thread _ | acquire thread | release thread => some thread
  | collect _ => none

namespace StripedLocks

section Steps

variable [DecidableEq κ]

/-- A lock is acquired when no thread holds it, and collected when no thread refers to it. -/
def next (s : StripedLocks κ) : LockLabel κ → Option (StripedLocks κ)
  | .get thread k =>
      if s.refs[thread]? = some .idle then
        some
          { table := (s.table.get k).2
            refs := s.refs.set thread (.waiting k (s.table.get k).1) }
      else none
  | .acquire thread =>
      match s.refs[thread]? with
      | some (.waiting k lock) =>
          if ∀ ref ∈ s.refs, ref.held ≠ some lock then
            some { s with refs := s.refs.set thread (.holding k lock) }
          else none
      | _ => none
  | .release thread =>
      match s.refs[thread]? with
      | some (.holding _ _) => some { s with refs := s.refs.set thread .idle }
      | _ => none
  | .collect k =>
      match s.table.entries k with
      | none => some s
      | some lock =>
          if ∀ ref ∈ s.refs, ref.lock ≠ some lock then some { s with table := s.table.drop k } else none

/-- All that a step can do. -/
theorem next_spec {s t : StripedLocks κ} {label : LockLabel κ} (h : s.next label = some t) :
    match label with
    | .get thread k =>
        s.refs[thread]? = some .idle ∧
          t = { table := (s.table.get k).2, refs := s.refs.set thread (.waiting k (s.table.get k).1) }
    | .acquire thread =>
        ∃ k lock, s.refs[thread]? = some (.waiting k lock) ∧ (∀ ref ∈ s.refs, ref.held ≠ some lock) ∧
          t = { s with refs := s.refs.set thread (.holding k lock) }
    | .release thread =>
        ∃ k lock, s.refs[thread]? = some (.holding k lock) ∧
          t = { s with refs := s.refs.set thread .idle }
    | .collect k =>
        t = s ∨ ∃ lock, s.table.entries k = some lock ∧ (∀ ref ∈ s.refs, ref.lock ≠ some lock) ∧
          t = { s with table := s.table.drop k } := by
  -- one case for each label; where the guard of the step fails there is no next state
  cases label with
  | get thread k =>
      simp only [next] at h
      split at h
      · rename_i hidle
        exact ⟨hidle, (Option.some.inj h).symm⟩
      · cases h
  | acquire thread =>
      simp only [next] at h
      split at h
      · rename_i k lock hwaiting
        split at h
        · rename_i hfree
          exact ⟨k, lock, hwaiting, hfree, (Option.some.inj h).symm⟩
        · cases h
      · cases h
  | release thread =>
      simp only [next] at h
      split at h
      · rename_i k lock hholding
        exact ⟨k, lock, hholding, (Option.some.inj h).symm⟩
      · cases h
  | collect k =>
      simp only [next] at h
      split at h
      · exact .inl (Option.some.inj h).symm
      · rename_i lock hentry
        split at h
        · rename_i hunused
          exact .inr ⟨lock, hentry, hunused, (Option.some.inj h).symm⟩
        · cases h

/-- Other threads refer to what they referred to. -/
theorem next_refs_of_ne {s t : StripedLocks κ} {label : LockLabel κ} (h : s.next label = some t)
    {i : Nat} (hi : label.actor ≠ some i) : t.refs[i]? = s.refs[i]? := by
  have hset {thread : Nat} (new : LockRef κ) (hthread : some thread ≠ some i) :
      (s.refs.set thread new)[i]? = s.refs[i]? :=
    List.getElem?_set_ne fun heq => hthread (congrArg some heq)
  have hspec := next_spec h
  cases label with
  | get thread k =>
      obtain ⟨-, rfl⟩ := hspec
      exact hset _ hi
  | acquire thread =>
      obtain ⟨k, lock, -, -, rfl⟩ := hspec
      exact hset _ hi
  | release thread =>
      obtain ⟨k, lock, -, rfl⟩ := hspec
      exact hset _ hi
  | collect k =>
      obtain rfl | ⟨lock, -, -, rfl⟩ := hspec
      · rfl
      · rfl

end Steps

/-! ## Mutual exclusion -/

/-- Threads refer to the locks of the table, and no two hold one. -/
structure Consistent (s : StripedLocks κ) : Prop where
  current : ∀ ref ∈ s.refs, ∀ k lock, ref.target = some (k, lock) → s.table.entries k = some lock
  exclusive : ∀ {i j lock : Nat} {ref ref' : LockRef κ}, s.refs[i]? = some ref →
    ref.held = some lock → s.refs[j]? = some ref' → ref'.held = some lock → i = j

namespace Consistent

/-- Of the threads that got a lock for one key, at most one holds it. -/
theorem eq_of_holding {s : StripedLocks κ} (h : s.Consistent) {i j lock lock' : Nat} {k : κ}
    (hi : s.refs[i]? = some (.holding k lock)) (hj : s.refs[j]? = some (.holding k lock')) :
    i = j := by
  have hlock := h.current _ (List.mem_of_getElem? hi) k lock rfl
  have hlock' := h.current _ (List.mem_of_getElem? hj) k lock' rfl
  obtain rfl : lock = lock' := Option.some.inj (hlock.symm.trans hlock')
  exact h.exclusive hi rfl hj rfl

/-- Threads that refer to no lock are consistent with any table. -/
theorem of_idle {s : StripedLocks κ} (h : ∀ ref ∈ s.refs, ref = .idle) : s.Consistent := by
  constructor
  · intro ref href k lock htarget
    rw [h ref href] at htarget
    cases htarget
  · intro i j lock ref ref' hi hheld
    rw [h ref (List.mem_of_getElem? hi)] at hheld
    cases hheld

/-- The lock that a thread refers to may change to one of the table, and to one it holds if no other
does. -/
theorem set {s : StripedLocks κ} (h : s.Consistent) {thread : Nat} {new : LockRef κ}
    (hcurrent : ∀ k lock, new.target = some (k, lock) → s.table.entries k = some lock)
    (hfree : ∀ lock, new.held = some lock → ∀ ref ∈ s.refs, ref.held ≠ some lock) :
    Consistent { s with refs := s.refs.set thread new } := by
  constructor
  · intro ref href k lock htarget
    rcases List.mem_or_eq_of_mem_set href with hold | rfl
    · exact h.current ref hold k lock htarget
    · exact hcurrent k lock htarget
  · intro i j lock ref ref' hi hheld hj hheld'
    rcases getElem?_set_cases hi with ⟨rfl, rfl⟩ | ⟨-, hold⟩
    · rcases getElem?_set_cases hj with ⟨rfl, -⟩ | ⟨-, hold'⟩
      · rfl
      · exact absurd hheld' (hfree lock hheld _ (List.mem_of_getElem? hold'))
    · rcases getElem?_set_cases hj with ⟨-, rfl⟩ | ⟨-, hold'⟩
      · exact absurd hheld (hfree lock hheld' _ (List.mem_of_getElem? hold))
      · exact h.exclusive hold hheld hold' hheld'

/-- The table may change where no thread refers to it. -/
theorem of_entries {s : StripedLocks κ} (h : s.Consistent) {table : LockTable κ}
    (hentries : ∀ ref ∈ s.refs, ∀ k lock, ref.target = some (k, lock) →
      s.table.entries k = some lock → table.entries k = some lock) :
    Consistent { s with table := table } := by
  constructor
  · intro ref href k lock htarget
    exact hentries ref href k lock htarget (h.current ref href k lock htarget)
  · exact h.exclusive

variable [DecidableEq κ]

/-- Asking for a lock keeps the references there are. -/
theorem get {s : StripedLocks κ} (h : s.Consistent) (k : κ) :
    Consistent { s with table := (s.table.get k).2 } := by
  refine h.of_entries fun ref _ k' lock _ hentry => ?_
  rw [LockTable.entries_get]
  by_cases hk : k' = k
  · subst hk
    rw [Function.update_self]
    unfold LockTable.get
    rw [hentry]
  · rw [Function.update_of_ne hk]
    exact hentry

/-- Every step keeps the locks consistent. -/
theorem step {s t : StripedLocks κ} {label : LockLabel κ} (h : s.Consistent)
    (hstep : s.next label = some t) : t.Consistent := by
  have hspec := next_spec hstep
  cases label with
  | get thread k =>
      obtain ⟨-, rfl⟩ := hspec
      refine (h.get k).set ?_ nofun
      intro k' lock htarget
      cases htarget
      rw [LockTable.entries_get, Function.update_self]
  | acquire thread =>
      obtain ⟨k, lock, hwaiting, hfree, rfl⟩ := hspec
      refine h.set ?_ ?_
      · intro k' lock' htarget
        cases htarget
        exact h.current _ (List.mem_of_getElem? hwaiting) k lock rfl
      · intro lock' hheld
        cases hheld
        exact hfree
  | release thread =>
      obtain ⟨k, lock, -, rfl⟩ := hspec
      exact h.set nofun nofun
  | collect k =>
      obtain rfl | ⟨lock, hentry, hunused, rfl⟩ := hspec
      · exact h
      · refine h.of_entries fun ref href k' lock' htarget hentry' => ?_
        -- a thread that refers to the lock of the key keeps it from being collected
        have hk : k' ≠ k := by
          rintro rfl
          refine hunused ref href ?_
          rw [LockRef.lock, htarget, ← hentry, hentry']
          rfl
        show Function.update s.table.entries k none k' = some lock'
        rw [Function.update_of_ne hk]
        exact hentry'

end Consistent

end StripedLocks

end TeiidSyndesis.Library
