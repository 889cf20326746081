/-
# TeiidSyndesis.Library.Affixes — lists that end in one of several words, or begin with one.

No word of the collection is the end of another one, so the words at the ends of one list are the same,
and so is what stands before them.  The same for words at the beginning.
-/
import Mathlib.Data.List.Infix

namespace TeiidSyndesis.Library

universe u

variable {α : Type u}

/-- No word is the end of another one. -/
def SuffixFree (words : List (List α)) : Prop :=
  ∀ word ∈ words, ∀ other ∈ words, word <:+ other → word = other

/-- No word is the beginning of another one. -/
def PrefixFree (words : List (List α)) : Prop :=
  ∀ word ∈ words, ∀ other ∈ words, word <+: other → word = other

instance [DecidableEq α] (words : List (List α)) : Decidable (SuffixFree words) :=
  inferInstanceAs (Decidable (∀ word ∈ words, ∀ other ∈ words, _ → _))

instance [DecidableEq α] (words : List (List α)) : Decidable (PrefixFree words) :=
  inferInstanceAs (Decidable (∀ word ∈ words, ∀ other ∈ words, _ → _))

variable {words : List (List α)}

theorem SuffixFree.append_inj (h : SuffixFree words) {front front' word word' : List α}
    (hword : word ∈ words) (hword' : word' ∈ words) (heq : front ++ word = front' ++ word') :
    front = front' ∧ word = word' := by
  have hends : word = word' := by
    have hsuffix : word <:+ front ++ word := List.suffix_append _ _
    have hsuffix' : word' <:+ front ++ word := heq ▸ List.suffix_append _ _
    rcases List.suffix_or_suffix_of_suffix hsuffix hsuffix' with hle | hle
    · exact h word hword word' hword' hle
    · exact (h word' hword' word hword hle).symm
  subst hends
  exact ⟨List.append_cancel_right heq, rfl⟩

theorem PrefixFree.append_inj (h : PrefixFree words) {word word' back back' : List α}
    (hword : word ∈ words) (hword' : word' ∈ words) (heq : word ++ back = word' ++ back') :
    word = word' ∧ back = back' := by
  have hbegins : word = word' := by
    have hprefix : word <+: word ++ back := List.prefix_append _ _
    have hprefix' : word' <+: word ++ back := heq ▸ List.prefix_append _ _
    rcases List.prefix_or_prefix_of_prefix hprefix hprefix' with hle | hle
    · exact h word hword word' hword' hle
    · exact (h word' hword' word hword hle).symm
  subst hbegins
  exact ⟨rfl, List.append_cancel_left heq⟩

end TeiidSyndesis.Library
