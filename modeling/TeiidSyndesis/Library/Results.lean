/-
# TeiidSyndesis.Library.Results — computations that return or fail.

A computation in `Except` that returns has returned at each of its steps.  The lemmas take such a
computation apart, one bind at a time.
-/
import Mathlib.Data.List.Forall2

namespace TeiidSyndesis.Library

universe u v

variable {ε : Type u} {α β : Type v}

/-- A sequence returns what its second part returns on what its first part returns. -/
theorem bind_eq_ok {x : Except ε α} {f : α → Except ε β} {b : β} :
    x >>= f = .ok b ↔ ∃ a, x = .ok a ∧ f a = .ok b := by
  constructor
  · intro h
    cases x with
    | error e => cases h
    | ok a => exact ⟨a, rfl, h⟩
  · rintro ⟨a, rfl, h⟩
    exact h

theorem pure_eq_ok {a b : α} : (pure a : Except ε α) = .ok b ↔ a = b := by
  constructor
  · intro h
    cases h
    rfl
  · rintro rfl
    rfl

theorem map_eq_ok {γ : Type v} {x : Except ε α} {f : α → γ} {c : γ} :
    x.map f = .ok c ↔ ∃ a, x = .ok a ∧ f a = c := by
  constructor
  · intro h
    cases x with
    | error e => cases h
    | ok a => exact ⟨a, rfl, Except.ok.inj h⟩
  · rintro ⟨a, rfl, rfl⟩
    rfl

theorem toOption_eq_some {x : Except ε α} {a : α} : x.toOption = some a ↔ x = .ok a := by
  constructor
  · intro h
    cases x with
    | error e => cases h
    | ok b => exact congrArg Except.ok (Option.some.inj h)
  · rintro rfl
    rfl

/-- What is built from a check is returned exactly if the check has passed. -/
theorem checked_eq_ok {p : Prop} [Decidable p] {f : p → α} {e : ε} {a : α} :
    (if h : p then Except.ok (f h) else .error e) = .ok a ↔ ∃ h, f h = a := by
  by_cases h : p
  · rw [dif_pos h]
    exact ⟨fun heq => ⟨h, Except.ok.inj heq⟩, fun ⟨_, heq⟩ => congrArg Except.ok heq⟩
  · rw [dif_neg h]
    exact ⟨nofun, fun ⟨hp, _⟩ => absurd hp h⟩

/-- A loop returns whose body does, whatever it has collected. -/
theorem foldlM_isOk {f : β → α → Except ε β} {as : List α} (b : β)
    (h : ∀ a ∈ as, ∀ b, ∃ b', f b a = .ok b') : ∃ b', as.foldlM f b = .ok b' := by
  induction as generalizing b with
  | nil => exact ⟨b, rfl⟩
  | cons a as ih =>
      rw [List.forall_mem_cons] at h
      obtain ⟨b', hb'⟩ := h.1 b
      obtain ⟨b'', hb''⟩ := ih b' h.2
      rw [List.foldlM_cons]
      exact ⟨b'', bind_eq_ok.mpr ⟨b', hb', hb''⟩⟩

/-- Where the body returns or fails for each element on its own, the loop returns exactly if it returns
for all. -/
theorem foldlM_isOk_iff {f : β → α → Except ε β} {p : α → Prop}
    (h : ∀ a b, (∃ b', f b a = .ok b') ↔ p a) {as : List α} {b : β} :
    (∃ b', as.foldlM f b = .ok b') ↔ ∀ a ∈ as, p a := by
  induction as generalizing b with
  | nil => exact iff_of_true ⟨b, rfl⟩ nofun
  | cons a as ih =>
      rw [List.foldlM_cons, List.forall_mem_cons, ← h a b]
      constructor
      · rintro ⟨b'', h⟩
        obtain ⟨b', hhead, htail⟩ := bind_eq_ok.mp h
        exact ⟨⟨b', hhead⟩, ih.mp ⟨b'', htail⟩⟩
      · rintro ⟨⟨b', hhead⟩, htail⟩
        obtain ⟨b'', hrest⟩ := (@ih b').mpr htail
        exact ⟨b'', bind_eq_ok.mpr ⟨b', hhead, hrest⟩⟩

/-- A list is mapped exactly if each of its elements is. -/
theorem mapM_eq_ok {f : α → Except ε β} {as : List α} {bs : List β} :
    as.mapM f = .ok bs ↔ List.Forall₂ (fun a b => f a = .ok b) as bs := by
  induction as generalizing bs with
  | nil => rw [List.mapM_nil, pure_eq_ok, List.forall₂_nil_left_iff, eq_comm]
  | cons a as ih =>
      rw [List.mapM_cons, bind_eq_ok, List.forall₂_cons_left_iff]
      constructor
      · rintro ⟨b, hb, h⟩
        obtain ⟨rest, hrest, h⟩ := bind_eq_ok.mp h
        exact ⟨b, rest, hb, ih.mp hrest, (pure_eq_ok.mp h).symm⟩
      · rintro ⟨b, rest, hb, hrest, rfl⟩
        exact ⟨b, hb, bind_eq_ok.mpr ⟨rest, ih.mpr hrest, rfl⟩⟩

end TeiidSyndesis.Library
