/-
# TeiidSyndesis.Library.Versions — tables whose rows bear versions, and what becomes of them.

A row has a key and a version.  One state of the table follows another when each of its rows was there
before, or stands for a row that was there at a lower version, or has a key that had not been drawn.
This is what a commit that checks versions can do, and it holds along any sequence of such commits.
Along it a version of a row is the row: whoever finds the version he has read finds what he has read.

Main results:
* `Follows.refl`, `Follows.trans`, `Follows.eq_or_lt` — the order of the states, and of the rows of a key;
* `Remembered.eq_of_version` — a row of the version that was read is the row that was read;
* `succeeds_writeRow`, `succeeds_concat` — what keeps a table following another.

Nothing here names a program.
-/
import Mathlib.Order.Basic
import TeiidSyndesis.Library.Tables

namespace TeiidSyndesis.Library

universe u v w

variable {ρ : Type u} {κ : Type v} {ν : Type w} [Preorder ν]

/-- Rows and the keys drawn for them so far. -/
structure KeyedRows (ρ : Type u) (κ : Type v) where
  rows : List ρ
  drawn : κ → Prop

namespace KeyedRows

variable {key : ρ → κ} {version : ρ → ν} {s t r : KeyedRows ρ κ}

/-- The keys of the rows are distinct, and have been drawn. -/
structure WellKeyed (key : ρ → κ) (s : KeyedRows ρ κ) : Prop where
  distinct : (s.rows.map key).Nodup
  drawn : ∀ row ∈ s.rows, s.drawn (key row)

/-- A row that can be there after `s`. -/
def Succeeds (key : ρ → κ) (version : ρ → ν) (s : KeyedRows ρ κ) (row : ρ) : Prop :=
  row ∈ s.rows ∨ (∃ old ∈ s.rows, key old = key row ∧ version old < version row) ∨ ¬s.drawn (key row)

/-- The state follows `s`: its rows succeed, and no key has been given back. -/
structure Follows (key : ρ → κ) (version : ρ → ν) (s t : KeyedRows ρ κ) : Prop where
  rows : ∀ row ∈ t.rows, s.Succeeds key version row
  drawn : ∀ k, s.drawn k → t.drawn k

theorem Follows.refl (key : ρ → κ) (version : ρ → ν) (s : KeyedRows ρ κ) :
    s.Follows key version s :=
  ⟨fun _ hrow => .inl hrow, fun _ hk => hk⟩

theorem Follows.trans (h : s.Follows key version t) (h' : t.Follows key version r) :
    s.Follows key version r := by
  refine ⟨?_, fun k hk => h'.drawn k (h.drawn k hk)⟩
  intro row hrow
  rcases h'.rows row hrow with hmem | ⟨old, hold, hkey, hlt⟩ | hfresh
  · exact h.rows row hmem
  · -- a row that was raised after `t` had succeeded a row of `s`, or had a new key
    rcases h.rows old hold with hmem | ⟨older, holder, hkey', hlt'⟩ | hfresh
    · exact .inr (.inl ⟨old, hmem, hkey, hlt⟩)
    · exact .inr (.inl ⟨older, holder, hkey'.trans hkey, lt_trans hlt' hlt⟩)
    · rw [hkey] at hfresh
      exact .inr (.inr hfresh)
  · exact .inr (.inr fun hdrawn => hfresh (h.drawn _ hdrawn))

/-- A row that is found later under its key is the row, or has a higher version. -/
theorem Follows.eq_or_lt (h : s.Follows key version t) (hs : s.WellKeyed key) {row row' : ρ}
    (hrow : row ∈ s.rows) (hrow' : row' ∈ t.rows) (hkey : key row = key row') :
    row' = row ∨ version row < version row' := by
  rcases h.rows row' hrow' with hmem | ⟨old, hold, hkey', hlt⟩ | hfresh
  · exact .inl (List.inj_on_of_nodup_map hs.distinct hmem hrow hkey.symm)
  · have heq := List.inj_on_of_nodup_map hs.distinct hold hrow (hkey'.trans hkey.symm)
    rw [heq] at hlt
    exact .inr hlt
  · rw [← hkey] at hfresh
    exact absurd (hs.drawn row hrow) hfresh

/-- A version identifies a row for good. -/
theorem Follows.eq_of_version (h : s.Follows key version t) (hs : s.WellKeyed key) {row row' : ρ}
    (hrow : row ∈ s.rows) (hrow' : row' ∈ t.rows) (hkey : key row = key row')
    (hversion : version row = version row') : row' = row := by
  rcases h.eq_or_lt hs hrow hrow' hkey with heq | hlt
  · exact heq
  · rw [hversion] at hlt
    exact absurd hlt (lt_irrefl _)

/-! ## Rows that have been read -/

/-- The row was there in a state that `s` follows. -/
def Remembered (key : ρ → κ) (version : ρ → ν) (s : KeyedRows ρ κ) (row : ρ) : Prop :=
  ∃ earlier : KeyedRows ρ κ,
    earlier.WellKeyed key ∧ row ∈ earlier.rows ∧ earlier.Follows key version s

theorem remembered_of_mem (hs : s.WellKeyed key) {row : ρ} (h : row ∈ s.rows) :
    s.Remembered key version row :=
  ⟨s, hs, h, .refl key version s⟩

theorem Remembered.follows {row : ρ} (h : s.Remembered key version row)
    (hfollows : s.Follows key version t) : t.Remembered key version row := by
  obtain ⟨earlier, hearlier, hmem, hbefore⟩ := h
  exact ⟨earlier, hearlier, hmem, hbefore.trans hfollows⟩

/-- A row is as it was read, or has a higher version. -/
theorem Remembered.eq_or_lt {row row' : ρ} (h : s.Remembered key version row) (hrow' : row' ∈ s.rows)
    (hkey : key row = key row') : row' = row ∨ version row < version row' := by
  obtain ⟨earlier, hearlier, hmem, hfollows⟩ := h
  exact hfollows.eq_or_lt hearlier hmem hrow' hkey

theorem Remembered.eq_of_version {row row' : ρ} (h : s.Remembered key version row)
    (hrow' : row' ∈ s.rows) (hkey : key row = key row') (hversion : version row = version row') :
    row' = row := by
  obtain ⟨earlier, hearlier, hmem, hfollows⟩ := h
  exact hfollows.eq_of_version hearlier hmem hrow' hkey hversion

/-! ## The writes of one commit

The versions are checked against the rows before the commit, so each write is compared with those. -/

section

variable {rows : List ρ}

/-- A row is written over one whose version was checked. -/
theorem succeeds_writeRow [DecidableEq κ] (h : ∀ row ∈ rows, s.Succeeds key version row) {row : ρ}
    (hrow : s.Succeeds key version row) :
    ∀ other ∈ writeRow key row rows, s.Succeeds key version other := by
  intro other hother
  rcases mem_writeRow hother with rfl | ⟨hother, _⟩
  · exact hrow
  · exact h other hother

theorem succeeds_concat (h : ∀ row ∈ rows, s.Succeeds key version row) {row : ρ}
    (hrow : s.Succeeds key version row) : ∀ other ∈ rows ++ [row], s.Succeeds key version other := by
  intro other hother
  rcases List.mem_append.mp hother with hother | hother
  · exact h other hother
  · obtain rfl := List.mem_singleton.mp hother
    exact hrow

end

end KeyedRows

end TeiidSyndesis.Library
