/-
# TeiidSyndesis.Library.Forest — forests whose siblings have different keys.

A node of a forest is found along the keys from a root down to it.  A forest is changed along such a
path: nodes that are missing are added on the way, and the label at the end becomes what a function
makes of it.  What a change does is said by the label at each path, and labels determine a forest up to
the order of siblings.

Nothing here names a program.

Main results:
* `find?_alterFirst`, `find?_alterFirst_of_other`, `map_alterFirst` — changing the first of a kind;
* `labelAt_alter_self`, `labelAt_alter_of_prefix`, `labelAt_alter_of_not_prefix` — the label at each path
  after a change along one;
* `Distinct.alter` — siblings keep different keys;
* `Distinct.sameUpToOrder` — labels determine such a forest up to the order of siblings.
-/
import Mathlib.Data.List.Infix
import Mathlib.Data.List.Nodup

namespace TeiidSyndesis.Library

universe u v

variable {α : Type u} {κ : Type v}

/-! ## The first of a kind -/

/-- The first element of a kind becomes what `g` makes of it; if there is none, a new one goes to the
end. -/
def alterFirst (p : α → Bool) (g : Option α → α) : List α → List α
  | [] => [g none]
  | x :: xs => if p x then g (some x) :: xs else x :: alterFirst p g xs

/-- Changes that agree on the list agree. -/
theorem alterFirst_congr {p q : α → Bool} {g g' : Option α → α} {xs : List α}
    (hp : ∀ x ∈ xs, p x = q x) (hnone : g none = g' none) (hsome : ∀ x ∈ xs, g (some x) = g' (some x)) :
    alterFirst p g xs = alterFirst q g' xs := by
  induction xs with
  | nil => exact congrArg (fun x => [x]) hnone
  | cons x xs ih =>
      rw [List.forall_mem_cons] at hp hsome
      unfold alterFirst
      rw [hp.1, hsome.1, ih hp.2 hsome.2]

/-- The element of the kind is the one that has been made. -/
theorem find?_alterFirst {p : α → Bool} {g : Option α → α} {xs : List α}
    (hg : p (g (xs.find? p)) = true) : (alterFirst p g xs).find? p = some (g (xs.find? p)) := by
  induction xs with
  | nil => exact List.find?_cons_of_pos hg
  | cons x xs ih =>
      unfold alterFirst
      by_cases hx : p x = true
      · rw [List.find?_cons_of_pos hx] at hg ⊢
        rw [if_pos hx]
        exact List.find?_cons_of_pos hg
      · rw [List.find?_cons_of_neg hx] at hg ⊢
        rw [if_neg hx, List.find?_cons_of_neg hx, ih hg]

/-- Elements of another kind stay. -/
theorem find?_alterFirst_of_other {p q : α → Bool} {g : Option α → α} {xs : List α}
    (hnone : q (g none) = false) (hsome : ∀ x, p x = true → q x = false ∧ q (g (some x)) = false) :
    (alterFirst p g xs).find? q = xs.find? q := by
  induction xs with
  | nil => exact List.find?_cons_of_neg (by simp [hnone])
  | cons x xs ih =>
      unfold alterFirst
      by_cases hx : p x = true
      · obtain ⟨hold, hnew⟩ := hsome x hx
        rw [if_pos hx, List.find?_cons_of_neg (by simp [hnew]), List.find?_cons_of_neg (by simp [hold])]
      · rw [if_neg hx, List.find?_cons, List.find?_cons, ih]

/-- What is in the list afterwards was there, is new, or was changed. -/
theorem mem_alterFirst {p : α → Bool} {g : Option α → α} {xs : List α} {y : α}
    (h : y ∈ alterFirst p g xs) : y ∈ xs ∨ y = g none ∨ ∃ x ∈ xs, p x = true ∧ y = g (some x) := by
  induction xs with
  | nil => exact .inr (.inl (List.mem_singleton.mp h))
  | cons x xs ih =>
      unfold alterFirst at h
      split at h
      · rename_i hx
        rcases List.mem_cons.mp h with rfl | h
        · exact .inr (.inr ⟨x, List.mem_cons_self, hx, rfl⟩)
        · exact .inl (List.mem_cons_of_mem _ h)
      · rcases List.mem_cons.mp h with rfl | h
        · exact .inl List.mem_cons_self
        · rcases ih h with h | h | ⟨z, hz, hkind, rfl⟩
          · exact .inl (List.mem_cons_of_mem _ h)
          · exact .inr (.inl h)
          · exact .inr (.inr ⟨z, List.mem_cons_of_mem _ hz, hkind, rfl⟩)

/-- A key that comes in is a new one. -/
theorem map_alterFirst [DecidableEq κ] {key : α → κ} {k : κ} {g : Option α → α} {xs : List α}
    (hnone : key (g none) = k) (hsome : ∀ x, key x = k → key (g (some x)) = k) :
    (alterFirst (fun x => decide (key x = k)) g xs).map key =
      if k ∈ xs.map key then xs.map key else xs.map key ++ [k] := by
  induction xs with
  | nil => simp [alterFirst, hnone]
  | cons x xs ih =>
      unfold alterFirst
      by_cases hx : key x = k
      · simp [hx, hsome x hx]
      · have hne : k ≠ key x := Ne.symm hx
        rw [if_neg (by simpa using hx), List.map_cons, ih, List.map_cons]
        by_cases hmem : k ∈ xs.map key
        · rw [if_pos hmem, if_pos (List.mem_cons_of_mem _ hmem)]
        · rw [if_neg hmem, if_neg (by rw [List.mem_cons, not_or]; exact ⟨hne, hmem⟩)]
          rfl

/-! ## Forests -/

/-- A tree with a label at each node. -/
inductive LabelTree (α : Type u)
  | node (label : α) (children : List (LabelTree α))

namespace LabelTree

def label : LabelTree α → α
  | node label _ => label

def children : LabelTree α → List (LabelTree α)
  | node _ children => children

@[simp]
theorem label_node (a : α) (ts : List (LabelTree α)) : (node a ts).label = a := rfl

@[simp]
theorem children_node (a : α) (ts : List (LabelTree α)) : (node a ts).children = ts := rfl

end LabelTree

/-- A forest, by its roots. -/
abbrev Forest (α : Type u) := List (LabelTree α)

namespace Forest

/-- A node stands at the end of a path of keys from a root on. -/
def Stands (key : α → κ) : List κ → Forest α → LabelTree α → Prop
  | [], _, _ => False
  | k :: ks, ts, node =>
      ∃ t ∈ ts, key t.label = k ∧ (ks = [] ∧ t = node ∨ Stands key ks t.children node)

/-- No two siblings have one key. -/
inductive Distinct (key : α → κ) : Forest α → Prop
  | intro {ts : Forest α} (siblings : (ts.map fun t => key t.label).Nodup)
      (inner : ∀ t ∈ ts, Distinct key t.children) : Distinct key ts

/-- Roots have different keys. -/
theorem Distinct.siblings {key : α → κ} {ts : Forest α} (h : Distinct key ts) :
    (ts.map fun t => key t.label).Nodup := by
  cases h with
  | intro siblings _ => exact siblings

/-- The children of each root have different keys again. -/
theorem Distinct.inner {key : α → κ} {ts : Forest α} (h : Distinct key ts) :
    ∀ t ∈ ts, Distinct key t.children := by
  cases h with
  | intro _ inner => exact inner

theorem distinct_nil (key : α → κ) : Distinct key [] := .intro .nil nofun

/-- Where siblings differ, one node stands at a path. -/
theorem Distinct.stands_unique {key : α → κ} {ts : Forest α} (h : Distinct key ts) {path : List κ}
    {node node' : LabelTree α} (hnode : Stands key path ts node) (hnode' : Stands key path ts node') :
    node = node' := by
  induction path generalizing ts with
  | nil => exact hnode.elim
  | cons k ks ih =>
      obtain ⟨t, ht, hk, hrest⟩ := hnode
      obtain ⟨t', ht', hk', hrest'⟩ := hnode'
      obtain rfl := List.inj_on_of_nodup_map h.siblings ht ht' (hk.trans hk'.symm)
      cases ks with
      | nil => exact ((hrest.resolve_right id).2.symm).trans (hrest'.resolve_right id).2
      | cons k' ks =>
          exact ih (h.inner t ht) (hrest.resolve_left fun h => nomatch h.1)
            (hrest'.resolve_left fun h => nomatch h.1)

/-- `f` makes labels with the last key of the path of labels that have it, or of none. -/
def Keeps (key : α → κ) (f : Option α → α) (path : List κ) : Prop :=
  ∀ k, path.getLast? = some k → ∀ a : Option α, (∀ b ∈ a, key b = k) → key (f a) = k

/-- Along the rest of a path labels keep their keys as well. -/
theorem keeps_tail {key : α → κ} {f : Option α → α} {k k' : κ} {ks : List κ} (h : Keeps key f (k :: k' :: ks)) :
    Keeps key f (k' :: ks) := by
  intro last hlast
  exact h last (by rw [List.getLast?_cons_cons]; exact hlast)

/-! ## Labels -/

section Labels

variable [DecidableEq κ]

/-- The root with the key. -/
def find (key : α → κ) (k : κ) (ts : Forest α) : Option (LabelTree α) :=
  ts.find? fun t => decide (key t.label = k)

/-- The label at the end of a path, along the first siblings of each key. -/
def labelAt (key : α → κ) : List κ → Forest α → Option α
  | [], _ => none
  | [k], ts => (find key k ts).map LabelTree.label
  | k :: k' :: ks, ts => (find key k ts).bind fun t => labelAt key (k' :: ks) t.children

variable {key : α → κ}

/-- What is found has the key that was asked for. -/
theorem find_eq_some {k : κ} {ts : Forest α} {t : LabelTree α} (h : find key k ts = some t) :
    t ∈ ts ∧ key t.label = k :=
  ⟨List.mem_of_find?_eq_some h, by simpa using List.find?_some h⟩

/-- Where keys differ every root is found by its own. -/
theorem Distinct.find_of_mem {ts : Forest α} (h : Distinct key ts) {t : LabelTree α} (ht : t ∈ ts) :
    find key (key t.label) ts = some t := by
  cases hfind : find key (key t.label) ts with
  | none =>
      have hnone := List.find?_eq_none.mp hfind t ht
      simp at hnone
  | some u =>
      obtain ⟨hu, hkey⟩ := find_eq_some hfind
      rw [List.inj_on_of_nodup_map h.siblings hu ht hkey]

/-- A node stands where there is a label, which is its label. -/
theorem Distinct.labelAt_eq_some {ts : Forest α} (h : Distinct key ts) {path : List κ} {a : α} :
    labelAt key path ts = some a ↔ ∃ node, Stands key path ts node ∧ node.label = a := by
  -- on the path; among siblings with distinct keys the first tree found is the only one
  induction path generalizing ts with
  | nil => simp [labelAt, Stands]
  | cons k ks ih =>
      cases ks with
      | nil =>
          unfold labelAt
          constructor
          · intro hlabel
            obtain ⟨t, ht, rfl⟩ := Option.map_eq_some_iff.mp hlabel
            obtain ⟨hmem, hk⟩ := find_eq_some ht
            exact ⟨t, ⟨t, hmem, hk, .inl ⟨rfl, rfl⟩⟩, rfl⟩
          · rintro ⟨node, ⟨t, ht, rfl, hrest⟩, rfl⟩
            obtain ⟨-, rfl⟩ := hrest.resolve_right id
            rw [h.find_of_mem ht]
            rfl
      | cons k' ks =>
          unfold labelAt
          constructor
          · intro hlabel
            obtain ⟨t, ht, hrest⟩ := Option.bind_eq_some_iff.mp hlabel
            obtain ⟨hmem, hk⟩ := find_eq_some ht
            obtain ⟨node, hnode, hlabel⟩ := (ih (h.inner t hmem)).mp hrest
            exact ⟨node, ⟨t, hmem, hk, .inr hnode⟩, hlabel⟩
          · rintro ⟨node, ⟨t, ht, rfl, hrest⟩, rfl⟩
            rw [h.find_of_mem ht]
            exact (ih (h.inner t ht)).mpr ⟨node, hrest.resolve_left (fun h => nomatch h.1), rfl⟩

/-! ## Changes along a path -/

/-- The labels on the way are `fresh` where they are missing; the last one becomes what `f` makes of
it. -/
def alter (key : α → κ) (fresh : κ → α) (f : Option α → α) : List κ → Forest α → Forest α
  | [], ts => ts
  | [k], ts =>
      alterFirst (fun t => decide (key t.label = k))
        (fun t => .node (f (t.map LabelTree.label)) ((t.map LabelTree.children).getD [])) ts
  | k :: k' :: ks, ts =>
      alterFirst (fun t => decide (key t.label = k))
        (fun t =>
          .node ((t.map LabelTree.label).getD (fresh k))
            (alter key fresh f (k' :: ks) ((t.map LabelTree.children).getD [])))
        ts

variable {fresh : κ → α} {f : Option α → α}

/-- The first tree of the key after a change. -/
theorem find_alterFirst {k : κ} {g : Option (LabelTree α) → LabelTree α} {ts : Forest α}
    (hg : ∀ t : Option (LabelTree α), (∀ u ∈ t, key u.label = k) → key (g t).label = k) (k' : κ) :
    find key k' (alterFirst (fun t => decide (key t.label = k)) g ts) =
      if k' = k then some (g (find key k ts)) else find key k' ts := by
  have hfound : ∀ u ∈ find key k ts, key u.label = k := fun u hu => (find_eq_some hu).2
  split
  · rename_i heq
    subst heq
    exact find?_alterFirst (decide_eq_true (hg _ hfound))
  · rename_i hne
    refine find?_alterFirst_of_other ?_ fun t ht => ?_
    · rw [decide_eq_false_iff_not, hg none nofun]
      exact Ne.symm hne
    · have hk : key t.label = k := of_decide_eq_true ht
      have hnew : key (g (some t)).label = k := by
        refine hg (some t) fun u hu => ?_
        rw [← Option.some.inj hu]
        exact hk
      rw [decide_eq_false_iff_not, decide_eq_false_iff_not, hk, hnew]
      exact ⟨Ne.symm hne, Ne.symm hne⟩

/-- A change of a root, seen from the roots. -/
theorem find_alter_one {k : κ} (hf : Keeps key f [k]) (ts : Forest α) (k' : κ) :
    find key k' (alter key fresh f [k] ts) =
      if k' = k then
        some (.node (f ((find key k ts).map LabelTree.label)) (((find key k ts).map LabelTree.children).getD []))
      else find key k' ts := by
  refine find_alterFirst (fun t ht => ?_) k'
  refine hf k rfl _ fun a ha => ?_
  obtain ⟨u, hu, rfl⟩ := Option.map_eq_some_iff.mp ha
  exact ht u hu

/-- A change below a root, seen from the roots. -/
theorem find_alter_cons {k k' : κ} {ks : List κ} (hfresh : ∀ k, key (fresh k) = k) (ts : Forest α)
    (j : κ) :
    find key j (alter key fresh f (k :: k' :: ks) ts) =
      if j = k then
        some (.node (((find key k ts).map LabelTree.label).getD (fresh k))
          (alter key fresh f (k' :: ks) (((find key k ts).map LabelTree.children).getD [])))
      else find key j ts := by
  refine find_alterFirst (fun t ht => ?_) j
  cases t with
  | none => exact hfresh k
  | some u => exact ht u rfl

/-- The children of the tree that is found have the labels below it. -/
theorem labelAt_children (k : κ) {k' : κ} {ks : List κ} (ts : Forest α) :
    labelAt key (k' :: ks) (((find key k ts).map LabelTree.children).getD []) =
      labelAt key (k :: k' :: ks) ts := by
  cases hfind : find key k ts with
  | none =>
      have hempty : ∀ path : List κ, labelAt key path ([] : Forest α) = none := by
        intro path
        match path with
        | [] => rfl
        | [_] => rfl
        | _ :: _ :: _ => rfl
      simp only [labelAt, hfind]
      exact hempty _
  | some t =>
      simp only [labelAt, hfind]
      rfl

/-- At the end of its path a change is what its function says. -/
theorem labelAt_alter_self (hfresh : ∀ k, key (fresh k) = k) {path : List κ} (hf : Keeps key f path)
    (hpath : path ≠ []) (ts : Forest α) :
    labelAt key path (alter key fresh f path ts) = some (f (labelAt key path ts)) := by
  induction path generalizing ts with
  | nil => exact absurd rfl hpath
  | cons k ks ih =>
      cases ks with
      | nil =>
          simp only [labelAt]
          rw [find_alter_one hf, if_pos rfl]
          rfl
      | cons k' ks =>
          rw [labelAt, find_alter_cons hfresh, if_pos rfl, Option.bind_some, LabelTree.children_node,
            ih (keeps_tail hf) (List.cons_ne_nil _ _), labelAt_children]

/-- On the way there are labels now. -/
theorem labelAt_alter_of_prefix (hfresh : ∀ k, key (fresh k) = k) {path front : List κ} {k : κ}
    (hstarts : front ++ [k] <+: path) (hne : front ++ [k] ≠ path) (ts : Forest α) :
    labelAt key (front ++ [k]) (alter key fresh f path ts) =
      some ((labelAt key (front ++ [k]) ts).getD (fresh k)) := by
  -- on the path that is altered; both paths lose their first key together
  induction path generalizing front ts with
  | nil => simp at hstarts
  | cons j js ih =>
      cases js with
      | nil =>
          cases front with
          | nil =>
              obtain ⟨rfl, -⟩ := List.cons_prefix_cons.mp hstarts
              exact absurd rfl hne
          | cons i is =>
              obtain ⟨-, hrest⟩ := List.cons_prefix_cons.mp hstarts
              simp at hrest
      | cons j' js =>
          cases front with
          | nil =>
              obtain ⟨rfl, -⟩ := List.cons_prefix_cons.mp hstarts
              simp only [List.nil_append, labelAt]
              rw [find_alter_cons hfresh, if_pos rfl]
              rfl
          | cons i is =>
              obtain ⟨rfl, hrest⟩ := List.cons_prefix_cons.mp hstarts
              have hne' : is ++ [k] ≠ j' :: js := fun h => hne (congrArg (i :: ·) h)
              obtain ⟨l, ls, hls⟩ : ∃ l ls, is ++ [k] = l :: ls := by
                cases is with
                | nil => exact ⟨k, [], rfl⟩
                | cons l ls => exact ⟨l, ls ++ [k], rfl⟩
              have hbelow := @ih is hrest hne' (((find key i ts).map LabelTree.children).getD [])
              rw [List.cons_append]
              rw [hls] at hbelow ⊢
              rw [labelAt_children] at hbelow
              rw [labelAt, find_alter_cons hfresh, if_pos rfl, Option.bind_some, LabelTree.children_node,
                hbelow]

/-- The labels that are not on the way stay. -/
theorem labelAt_alter_of_not_prefix (hfresh : ∀ k, key (fresh k) = k) {path other : List κ}
    (hf : Keeps key f path) (hother : ¬other <+: path) (ts : Forest α) :
    labelAt key other (alter key fresh f path ts) = labelAt key other ts := by
  induction path generalizing other ts with
  | nil => rfl
  | cons k ks ih =>
      cases other with
      | nil => exact absurd (List.nil_prefix) hother
      | cons j js =>
          have hfind : j ≠ k → find key j (alter key fresh f (k :: ks) ts) = find key j ts := by
            intro hne
            cases ks with
            | nil => rw [find_alter_one hf, if_neg hne]
            | cons k' ks => rw [find_alter_cons hfresh, if_neg hne]
          -- the paths part at the first key, or further down
          by_cases hjk : j = k
          · subst hjk
            have hrest : ¬js <+: ks := fun h => hother (List.cons_prefix_cons.mpr ⟨rfl, h⟩)
            cases js with
            | nil => exact absurd List.nil_prefix hrest
            | cons j' js =>
                cases ks with
                | nil =>
                    rw [labelAt, find_alter_one hf, if_pos rfl, Option.bind_some, LabelTree.children_node,
                      labelAt_children]
                | cons k' ks =>
                    rw [labelAt, find_alter_cons hfresh, if_pos rfl, Option.bind_some,
                      LabelTree.children_node, ih (keeps_tail hf) hrest, labelAt_children]
          · cases js with
            | nil =>
                simp only [labelAt]
                rw [hfind hjk]
            | cons j' js =>
                simp only [labelAt]
                rw [hfind hjk]

/-- A change keeps siblings different. -/
theorem Distinct.alter (hfresh : ∀ k, key (fresh k) = k) {path : List κ} (hf : Keeps key f path)
    {ts : Forest α} (h : Distinct key ts) : Distinct key (alter key fresh f path ts) := by
  -- altering the first tree of a key adds no second one of this key
  have hkeys : ∀ {g : Option (LabelTree α) → LabelTree α} {k : κ} {ts : Forest α}, Distinct key ts →
      (∀ t : Option (LabelTree α), (∀ u ∈ t, key u.label = k) → key (g t).label = k) →
      ((alterFirst (fun t => decide (key t.label = k)) g ts).map fun t => key t.label).Nodup := by
    intro g k ts hts hg
    rw [map_alterFirst (hg none nofun) fun t ht => hg (some t) fun u hu => by
      rw [← Option.some.inj hu]
      exact ht]
    split
    · exact hts.siblings
    · rename_i hnew
      exact List.nodup_append.mpr ⟨hts.siblings, List.nodup_singleton k, fun a ha b hb hab =>
        hnew (by rw [← List.mem_singleton.mp hb, ← hab]; exact ha)⟩
  induction path generalizing ts with
  | nil => exact h
  | cons k ks ih =>
      cases ks with
      | nil =>
          refine .intro (hkeys h fun t ht => ?_) fun t ht => ?_
          · refine hf k rfl _ fun a ha => ?_
            obtain ⟨u, hu, rfl⟩ := Option.map_eq_some_iff.mp ha
            exact ht u hu
          · rcases mem_alterFirst ht with hold | rfl | ⟨u, hu, -, rfl⟩
            · exact h.inner t hold
            · exact distinct_nil key
            · exact h.inner u hu
      | cons k' ks =>
          refine .intro (hkeys h fun t ht => ?_) fun t ht => ?_
          · cases t with
            | none => exact hfresh k
            | some u => exact ht u rfl
          · rcases mem_alterFirst ht with hold | rfl | ⟨u, hu, -, rfl⟩
            · exact h.inner t hold
            · exact ih (keeps_tail hf) (distinct_nil key)
            · exact ih (keeps_tail hf) (h.inner u hu)

/-! ## Order of siblings -/

/-- A root with another key is passed over. -/
theorem labelAt_cons_of_ne {k : κ} {ks : List κ} {t : LabelTree α} {ts : Forest α} (h : key t.label ≠ k) :
    labelAt key (k :: ks) (t :: ts) = labelAt key (k :: ks) ts := by
  have hfind : find key k (t :: ts) = find key k ts := List.find?_cons_of_neg (by simp [h])
  cases ks with
  | nil => simp only [labelAt, hfind]
  | cons k' ks => simp only [labelAt, hfind]

/-- Below a root the path goes on in its children. -/
theorem labelAt_cons_self {ks : List κ} (t : LabelTree α) (ts : Forest α) :
    labelAt key (key t.label :: ks) (t :: ts) =
      if ks = [] then some t.label else labelAt key ks t.children := by
  have hfind : find key (key t.label) (t :: ts) = some t := List.find?_cons_of_pos (by simp)
  cases ks with
  | nil => simp [labelAt, hfind]
  | cons k' ks => simp [labelAt, hfind]

/-- A key that no tree has leads nowhere. -/
theorem labelAt_of_not_mem {k : κ} {ks : List κ} {ts : Forest α}
    (h : k ∉ ts.map fun t => key t.label) : labelAt key (k :: ks) ts = none := by
  induction ts with
  | nil =>
      cases ks with
      | nil => rfl
      | cons k' ks => rfl
  | cons t ts ih =>
      rw [List.map_cons, List.mem_cons, not_or] at h
      rw [labelAt_cons_of_ne (Ne.symm h.1), ih h.2]

end Labels

/-- The forests differ in the order of siblings only. -/
inductive SameUpToOrder : Forest α → Forest α → Prop
  | nil : SameUpToOrder [] []
  | cons {a : α} {ts us rest rest' : Forest α} (inner : SameUpToOrder ts us)
      (outer : SameUpToOrder rest rest') : SameUpToOrder (.node a ts :: rest) (.node a us :: rest')
  | swap (t u : LabelTree α) (rest : Forest α) : SameUpToOrder (t :: u :: rest) (u :: t :: rest)
  | trans {ts us vs : Forest α} (first : SameUpToOrder ts us) (second : SameUpToOrder us vs) :
      SameUpToOrder ts vs

namespace SameUpToOrder

theorem refl : ∀ ts : Forest α, SameUpToOrder ts ts
  | [] => .nil
  | .node _ ts :: rest => .cons (refl ts) (refl rest)

theorem symm {ts us : Forest α} (h : SameUpToOrder ts us) : SameUpToOrder us ts := by
  induction h with
  | nil => exact .nil
  | cons _ _ inner outer => exact .cons inner outer
  | swap t u rest => exact .swap u t rest
  | trans _ _ first second => exact .trans second first

theorem of_perm {ts us : Forest α} (h : ts.Perm us) : SameUpToOrder ts us := by
  induction h with
  | nil => exact .nil
  | cons t _ ih =>
      cases t with
      | node a ts => exact .cons (refl ts) ih
  | swap t u rest => exact .swap u t rest
  | trans _ _ first second => exact .trans first second

/-- Labels do not depend on the order of different siblings. -/
theorem stands {key : α → κ} {ts us : Forest α} (h : SameUpToOrder ts us) {path : List κ}
    {node : LabelTree α} (hnode : Stands key path ts node) :
    ∃ node', Stands key path us node' ∧ node'.label = node.label := by
  -- on the rearrangement: one pair of trees, two neighbours swapped, or two steps in a row
  induction h generalizing path node with
  | nil => exact ⟨node, hnode, rfl⟩
  | @cons a ts us rest rest' _ _ inner outer =>
      cases path with
      | nil => exact hnode.elim
      | cons k ks =>
          obtain ⟨t, ht, hk, hrest⟩ := hnode
          rcases List.mem_cons.mp ht with rfl | ht
          · rcases hrest with ⟨hks, rfl⟩ | hrest
            · exact ⟨.node a us, ⟨_, List.mem_cons_self, hk, .inl ⟨hks, rfl⟩⟩, rfl⟩
            · obtain ⟨node', hnode', hlabel⟩ := inner hrest
              exact ⟨node', ⟨_, List.mem_cons_self, hk, .inr hnode'⟩, hlabel⟩
          · have hstands : Stands key (k :: ks) rest node := ⟨t, ht, hk, hrest⟩
            obtain ⟨node', ⟨t', ht', hrest'⟩, hlabel⟩ := outer hstands
            exact ⟨node', ⟨t', List.mem_cons_of_mem _ ht', hrest'⟩, hlabel⟩
  | swap t u rest =>
      cases path with
      | nil => exact hnode.elim
      | cons k ks =>
          obtain ⟨t', ht', hrest⟩ := hnode
          exact ⟨node, ⟨t', (List.Perm.swap u t rest).mem_iff.mp ht', hrest⟩, rfl⟩
  | trans _ _ first second =>
      obtain ⟨node', hnode', hlabel⟩ := first hnode
      obtain ⟨node'', hnode'', hlabel'⟩ := second hnode'
      exact ⟨node'', hnode'', hlabel'.trans hlabel⟩

end SameUpToOrder

/-- Forests of different siblings with the same labels differ in the order of siblings only. -/
theorem Distinct.sameUpToOrder [DecidableEq κ] {key : α → κ} {ts us : Forest α} (hts : Distinct key ts)
    (hus : Distinct key us) (h : ∀ path, labelAt key path ts = labelAt key path us) :
    SameUpToOrder ts us := by
  induction hts generalizing us with
  | @intro ts siblings below inner =>
      induction ts generalizing us with
      | nil =>
          cases us with
          | nil => exact .nil
          | cons u us =>
              have hroot := h [key u.label]
              rw [labelAt_cons_self] at hroot
              cases hroot
      | cons t ts ih =>
          rw [List.map_cons, List.nodup_cons] at siblings
          -- the root has its like among the others
          have hroot := h [key t.label]
          rw [labelAt_cons_self, if_pos rfl] at hroot
          obtain ⟨u, hfind, hlabel⟩ := Option.map_eq_some_iff.mp hroot.symm
          obtain ⟨hu, -⟩ := find_eq_some hfind
          obtain ⟨front, back, rfl⟩ := List.append_of_mem hu
          have hperm : (front ++ u :: back).Perm (u :: (front ++ back)) := List.perm_middle
          have hkeys : (key u.label :: (front ++ back).map fun t => key t.label).Nodup :=
            (hperm.map fun t : LabelTree α => key t.label).nodup_iff.mp hus.siblings
          have hrest : Distinct key (front ++ back) :=
            .intro (List.nodup_cons.mp hkeys).2 fun t ht =>
              hus.inner t (hperm.mem_iff.mpr (List.mem_cons_of_mem _ ht))
          have hmoved : ∀ path, labelAt key path (front ++ u :: back) =
              labelAt key path (u :: (front ++ back)) := by
            have hdistinct : Distinct key (u :: (front ++ back)) :=
              .intro hkeys fun t ht => hus.inner t (hperm.mem_iff.mpr ht)
            intro path
            refine Option.ext fun a => ?_
            rw [hus.labelAt_eq_some, hdistinct.labelAt_eq_some]
            constructor
            · rintro ⟨node, hnode, rfl⟩
              exact (SameUpToOrder.of_perm hperm).stands hnode
            · rintro ⟨node, hnode, rfl⟩
              exact (SameUpToOrder.of_perm hperm.symm).stands hnode
          refine .trans ?_ (SameUpToOrder.of_perm hperm.symm)
          have hinner : SameUpToOrder t.children u.children := by
            refine inner t List.mem_cons_self (hus.inner u hu) fun path => ?_
            cases path with
            | nil => rfl
            | cons k ks =>
                have hbelow := h (key t.label :: k :: ks)
                rw [hmoved, labelAt_cons_self, if_neg (List.cons_ne_nil _ _), ← hlabel,
                  labelAt_cons_self, if_neg (List.cons_ne_nil _ _)] at hbelow
                exact hbelow
          have houter : SameUpToOrder ts (front ++ back) := by
            refine ih siblings.2 (fun t ht => below t (List.mem_cons_of_mem _ ht))
              (fun t ht => inner t (List.mem_cons_of_mem _ ht)) hrest fun path => ?_
            cases path with
            | nil => rfl
            | cons k ks =>
                by_cases hk : k = key t.label
                · subst hk
                  rw [labelAt_of_not_mem siblings.1, ← hlabel,
                    labelAt_of_not_mem (List.nodup_cons.mp hkeys).1]
                · have hpath := h (k :: ks)
                  rw [hmoved, labelAt_cons_of_ne (Ne.symm hk),
                    labelAt_cons_of_ne (by rw [hlabel]; exact Ne.symm hk)] at hpath
                  exact hpath
          cases t with
          | node a cs =>
              cases u with
              | node b ds =>
                  obtain rfl : b = a := hlabel
                  exact .cons hinner houter

end Forest

end TeiidSyndesis.Library
