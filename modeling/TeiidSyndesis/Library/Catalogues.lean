/-
# TeiidSyndesis.Library.Catalogues — named objects that are defined over each other.

A catalogue names objects.  What some of them hold is kept elsewhere; the others are queries, which refer
to objects of the catalogue and are evaluated on what these denote.  A reference need not spell a name
out, so it is resolved among all the names there are, and an object that is taken away may change what
the others mean.

The main result says when it does not: the objects that are kept denote what they did, provided that
each reference of theirs had been resolved, to an object that is kept as well.

Main results:
* `Resolver.unique` — a reference is resolved to one object at most;
* `denote_isSome` — where every reference is resolved, every object denotes;
* `Keeps.resolve`, `Keeps.denote` — what is kept resolves and denotes as it did.
-/
import Mathlib.Data.List.Basic
import Mathlib.Logic.Relation

namespace TeiidSyndesis.Library

universe u v w

/-! ## Queries and references -/

/-- What is known of an object. -/
inductive Definition (Data Query : Type u)
  | stored (data : Data)
  | derived (query : Query)
  deriving DecidableEq, Repr

/-- Queries: what they refer to, and how they are evaluated. -/
structure QueryLanguage (Data Query Ref : Type u) (Value : Type v) where
  /-- what data that is kept elsewhere holds -/
  read : Data → Value
  references : Query → List Ref
  /-- the result of a query, from what its references denote -/
  eval : Query → List Value → Value

/-- How a reference finds a name.  It finds one of those there are, and still finds it when other names
have been taken away. -/
structure Resolver (Ref : Type u) (Key : Type w) where
  resolve : List Key → Ref → Option Key
  mem : ∀ {keys ref key}, resolve keys ref = some key → key ∈ keys
  kept : ∀ {keys keys' ref key}, resolve keys ref = some key → (∀ k ∈ keys', k ∈ keys) →
    key ∈ keys' → resolve keys' ref = some key

/-- A reference finds the only name it fits. -/
def Resolver.unique {Ref : Type u} {Key : Type w} [DecidableEq Key] (fits : Ref → Key → Bool) :
    Resolver Ref Key where
  resolve keys ref :=
    match keys.find? (fits ref) with
    | none => none
    | some key => if ∀ k ∈ keys, fits ref k = true → k = key then some key else none
  mem {keys ref key} h := by
    split at h
    · cases h
    · rename_i first hfirst
      split at h
      · cases h
        exact List.mem_of_find?_eq_some hfirst
      · cases h
  kept {keys keys' ref key} h hsubset hmem := by
    split at h
    · cases h
    · rename_i first hfirst
      split at h
      · rename_i honly
        cases h
        have hfits : fits ref key = true := List.find?_some hfirst
        have honly' : ∀ k ∈ keys', fits ref k = true → k = key :=
          fun k hk => honly k (hsubset k hk)
        cases hfind : keys'.find? (fits ref) with
        | none => exact absurd hfits (List.find?_eq_none.mp hfind key hmem)
        | some found =>
            obtain rfl :=
              honly' found (List.mem_of_find?_eq_some hfind) (List.find?_some hfind)
            exact if_pos honly'
      · cases h

/-! ## Catalogues -/

/-- Functions that agree on a list agree on all of it. -/
theorem mapM_congr_of_mem {α : Type w} {β : Type v} {l : List α} {f g : α → Option β}
    (h : ∀ a ∈ l, f a = g a) : l.mapM f = l.mapM g := by
  induction l with
  | nil => rfl
  | cons a l ih =>
      rw [List.forall_mem_cons] at h
      rw [List.mapM_cons, List.mapM_cons, h.1, ih h.2]

/-- A list is mapped if each of its elements is. -/
theorem mapM_isSome {α : Type w} {β : Type v} {l : List α} {f : α → Option β}
    (h : ∀ a ∈ l, (f a).isSome) : (l.mapM f).isSome := by
  induction l with
  | nil => rfl
  | cons a l ih =>
      rw [List.forall_mem_cons] at h
      obtain ⟨b, hb⟩ := Option.isSome_iff_exists.mp h.1
      obtain ⟨bs, hbs⟩ := Option.isSome_iff_exists.mp (ih h.2)
      rw [List.mapM_cons, hb, hbs]
      rfl

/-- A catalogue lists its objects by key. -/
abbrev Catalogue (Key : Type w) (Data Query : Type u) := List (Key × Definition Data Query)

namespace Catalogue

variable {Key : Type w} {Data Query Ref : Type u} {Value : Type v} [DecidableEq Key]
  {language : QueryLanguage Data Query Ref Value} {resolver : Resolver Ref Key}

def names (catalogue : Catalogue Key Data Query) : List Key := catalogue.map (·.1)

/-- Of two objects of one name the first counts. -/
def definition (catalogue : Catalogue Key Data Query) (key : Key) : Option (Definition Data Query) :=
  (catalogue.find? fun entry => decide (entry.1 = key)).map (·.2)

/-- What an object denotes, when references are followed so many levels deep. -/
def denote (language : QueryLanguage Data Query Ref Value) (resolver : Resolver Ref Key)
    (catalogue : Catalogue Key Data Query) : Nat → Key → Option Value
  | 0, _ => none
  | depth + 1, key =>
      match catalogue.definition key with
      | none => none
      | some (.stored data) => some (language.read data)
      | some (.derived query) =>
          ((language.references query).mapM fun ref =>
            (resolver.resolve catalogue.names ref).bind (denote language resolver catalogue depth)).map
              (language.eval query)

/-- The first object is a query with a reference to the second. -/
def Uses (language : QueryLanguage Data Query Ref Value) (resolver : Resolver Ref Key)
    (catalogue : Catalogue Key Data Query) (key used : Key) : Prop :=
  ∃ query, catalogue.definition key = some (.derived query) ∧
    ∃ ref ∈ language.references query, resolver.resolve catalogue.names ref = some used

/-- The second object is used by the first, through any number of queries, or is the first. -/
def Reaches (language : QueryLanguage Data Query Ref Value) (resolver : Resolver Ref Key)
    (catalogue : Catalogue Key Data Query) : Key → Key → Prop :=
  Relation.ReflTransGen (catalogue.Uses language resolver)

/-- No reference of a query is left open. -/
def Resolved (language : QueryLanguage Data Query Ref Value) (resolver : Resolver Ref Key)
    (catalogue : Catalogue Key Data Query) : Prop :=
  ∀ key query, catalogue.definition key = some (.derived query) →
    ∀ ref ∈ language.references query, (resolver.resolve catalogue.names ref).isSome

/-! ### Looking up a definition -/

/-- A look-up goes to the first part first. -/
theorem definition_append (catalogue catalogue' : Catalogue Key Data Query) (key : Key) :
    definition (catalogue ++ catalogue') key =
      (catalogue.definition key).or (catalogue'.definition key) := by
  unfold definition
  rw [List.find?_append]
  cases catalogue.find? fun entry => decide (entry.1 = key) <;> rfl

/-- What is not named has no definition. -/
theorem definition_eq_none_iff {catalogue : Catalogue Key Data Query} {key : Key} :
    catalogue.definition key = none ↔ key ∉ catalogue.names := by
  unfold definition names
  rw [Option.map_eq_none_iff, List.find?_eq_none, List.mem_map]
  constructor
  · rintro h ⟨entry, hentry, rfl⟩
    exact h entry hentry (decide_eq_true rfl)
  · intro h entry hentry hkey
    exact h ⟨entry, hentry, of_decide_eq_true hkey⟩

/-- A definition is one of the catalogue's. -/
theorem mem_of_definition {catalogue : Catalogue Key Data Query} {key : Key}
    {object : Definition Data Query} (h : catalogue.definition key = some object) :
    (key, object) ∈ catalogue := by
  obtain ⟨entry, hfind, rfl⟩ := Option.map_eq_some_iff.mp h
  obtain rfl : entry.1 = key := by simpa using List.find?_some hfind
  exact List.mem_of_find?_eq_some hfind

theorem mem_names_of_definition {catalogue : Catalogue Key Data Query} {key : Key}
    {object : Definition Data Query} (h : catalogue.definition key = some object) :
    key ∈ catalogue.names :=
  List.mem_map_of_mem (mem_of_definition h)

omit [DecidableEq Key] in
/-- The names of two parts. -/
theorem mem_names_append {catalogue catalogue' : Catalogue Key Data Query} {key : Key} :
    key ∈ names (catalogue ++ catalogue') ↔ key ∈ catalogue.names ∨ key ∈ catalogue'.names := by
  unfold names
  rw [List.map_append, List.mem_append]

omit [DecidableEq Key] in
/-- The names of many. -/
theorem mem_names_flatMap {α : Type*} {parts : List α} {entries : α → Catalogue Key Data Query}
    {key : Key} :
    key ∈ names (parts.flatMap entries) ↔ ∃ part ∈ parts, key ∈ (entries part).names := by
  unfold names
  rw [List.map_flatMap, List.mem_flatMap]

/-- Where one part only can hold a name, it is looked up in that part. -/
theorem definition_flatMap {α : Type*} {parts : List α} {part : α}
    {entries : α → Catalogue Key Data Query} {key : Key} (hpart : part ∈ parts)
    (honly : ∀ other ∈ parts, key ∈ (entries other).names → other = part) :
    definition (parts.flatMap entries) key = (entries part).definition key := by
  induction parts with
  | nil => cases hpart
  | cons first rest ih =>
      rw [List.flatMap_cons, definition_append]
      rw [List.forall_mem_cons] at honly
      by_cases hfirst : key ∈ (entries first).names
      · obtain rfl := honly.1 hfirst
        cases hdefinition : (entries first).definition key with
        | none => exact absurd hfirst (definition_eq_none_iff.mp hdefinition)
        | some object => rfl
      · rw [definition_eq_none_iff.mpr hfirst, Option.none_or]
        by_cases hrest : part ∈ rest
        · exact ih hrest honly.2
        · -- then the part is the first one, which does not hold the name
          obtain rfl | hmem := List.mem_cons.mp hpart
          · rw [definition_eq_none_iff.mpr hfirst, definition_eq_none_iff]
            intro hkey
            obtain ⟨other, hother, hmem⟩ := mem_names_flatMap.mp hkey
            obtain rfl := honly.2 other hother hmem
            exact hrest hother
          · exact absurd hmem hrest

/-- A choice by name does not change what a chosen name stands for. -/
theorem definition_filter {catalogue : Catalogue Key Data Query} {p : Key → Bool} {key : Key}
    (h : p key = true) :
    definition (catalogue.filter fun entry => p entry.1) key = catalogue.definition key := by
  unfold definition
  rw [List.find?_filter]
  congr 2
  funext entry
  by_cases hkey : entry.1 = key
  · simp [hkey, h]
  · simp [hkey]

/-- The same, computed over all objects. -/
def allResolved (language : QueryLanguage Data Query Ref Value) (resolver : Resolver Ref Key)
    (catalogue : Catalogue Key Data Query) : Bool :=
  catalogue.all fun entry =>
    match entry.2 with
    | .stored _ => true
    | .derived query =>
        (language.references query).all fun ref => (resolver.resolve catalogue.names ref).isSome

/-- The check, and what it checks. -/
theorem resolved_of_allResolved {catalogue : Catalogue Key Data Query}
    (h : catalogue.allResolved language resolver = true) : catalogue.Resolved language resolver := by
  intro key query hdefinition ref href
  have hentry := List.all_eq_true.mp h (key, .derived query) (mem_of_definition hdefinition)
  exact List.all_eq_true.mp hentry ref href

/-- Where every reference is resolved and leads to an object of a lower rank, an object denotes
something once references are followed further than its rank. -/
theorem denote_isSome {catalogue : Catalogue Key Data Query} {rank : Key → Nat}
    (hresolved : catalogue.Resolved language resolver)
    (hrank : ∀ key used, catalogue.Uses language resolver key used → rank used < rank key)
    (depth : Nat) {key : Key} (hkey : key ∈ catalogue.names) (hdepth : rank key < depth) :
    (catalogue.denote language resolver depth key).isSome := by
  induction depth generalizing key with
  | zero => omega
  | succ depth ih =>
      unfold denote
      cases hdefinition : catalogue.definition key with
      | none => exact absurd hkey (definition_eq_none_iff.mp hdefinition)
      | some object =>
          cases object with
          | stored data => rfl
          | derived query =>
              show (Option.map _ _).isSome
              rw [Option.isSome_map]
              refine mapM_isSome fun ref href => ?_
              obtain ⟨used, hused⟩ :=
                Option.isSome_iff_exists.mp (hresolved key query hdefinition ref href)
              have hlower := hrank key used ⟨query, hdefinition, ref, href, hused⟩
              rw [hused]
              exact ih (resolver.mem hused) (by omega)

/-! ### Taking objects away -/

/-- The part keeps some objects of the whole, as they are, with all they refer to. -/
structure Keeps (language : QueryLanguage Data Query Ref Value) (resolver : Resolver Ref Key)
    (whole part : Catalogue Key Data Query) (kept : Key → Prop) : Prop where
  names : ∀ key ∈ part.names, key ∈ whole.names
  definition : ∀ key, kept key → part.definition key = whole.definition key
  used : ∀ key query, kept key → whole.definition key = some (.derived query) →
    ∀ ref ∈ language.references query, ∃ used, resolver.resolve whole.names ref = some used ∧ kept used

variable {whole part : Catalogue Key Data Query} {kept : Key → Prop}

/-- A reference of an object that is kept finds the same name in the part. -/
theorem Keeps.resolve (h : Keeps language resolver whole part kept) {ref : Ref} {key : Key}
    (hresolve : resolver.resolve whole.names ref = some key) (hkey : kept key) :
    resolver.resolve part.names ref = some key := by
  refine resolver.kept hresolve h.names ?_
  by_contra hmem
  have hnone := h.definition key hkey
  rw [definition_eq_none_iff.mpr hmem] at hnone
  exact definition_eq_none_iff.mp hnone.symm (resolver.mem hresolve)

/-- By induction on the depth, with the references of a kept object kept. -/
theorem Keeps.denote (h : Keeps language resolver whole part kept) (depth : Nat) {key : Key}
    (hkey : kept key) :
    part.denote language resolver depth key = whole.denote language resolver depth key := by
  -- on the depth; what a kept definition refers to is kept, and resolves to the same
  induction depth generalizing key with
  | zero => rfl
  | succ depth ih =>
      unfold Catalogue.denote
      rw [h.definition key hkey]
      cases hdefinition : whole.definition key with
      | none => rfl
      | some object =>
          cases object with
          | stored data => rfl
          | derived query =>
              have hused := h.used key query hkey hdefinition
              have hrefs : ((language.references query).mapM fun ref =>
                    (resolver.resolve part.names ref).bind
                      (part.denote language resolver depth)) =
                  (language.references query).mapM fun ref =>
                    (resolver.resolve whole.names ref).bind
                      (whole.denote language resolver depth) := by
                refine mapM_congr_of_mem fun ref href => ?_
                obtain ⟨used, hresolve, hkept⟩ := hused ref href
                rw [hresolve, h.resolve hresolve hkept]
                exact ih hkept
              simp only [hrefs]

end Catalogue

end TeiidSyndesis.Library
