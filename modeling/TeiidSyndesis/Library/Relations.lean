/-
# TeiidSyndesis.Library.Relations — rows under columns, and what a view makes of them.

A relation has rows of values, one value for each of its columns.  A CREATE VIEW statement names its
columns, selects items and lists the tables it reads; with the contents of the tables it has a result, a
relation under its own columns, or none where an item refers to no column or to more than one.  Names
are compared by a parameter, as SQL leaves their case to the database.

A view that selects all columns of one table, in order and under their names, has the contents of the
table as its result.

Nothing here names a program.

Main results:
* `rows_project_all` — all columns, in order, are the relation;
* `mapM_resolve_all` — items that name all columns are resolved to them;
* `result_all` — so a view of one table has its contents;
* `result_eq_none` — and one with an item out of scope has no result.
-/
import Mathlib.Data.List.FinRange

namespace TeiidSyndesis.Library.Sql

/-! ## Relations -/

/-- Rows with a value for each column. -/
@[ext]
structure Relation (κ α : Type) where
  columns : List κ
  rows : List (List α)
  wide : ∀ row ∈ rows, row.length = columns.length

namespace Relation

variable {κ κ' α : Type}

/-- One row without columns. -/
def unit : Relation κ α where
  columns := []
  rows := [[]]
  wide := by simp

def rename (f : κ → κ') (r : Relation κ α) : Relation κ' α where
  columns := r.columns.map f
  rows := r.rows
  wide row hrow := by rw [List.length_map, r.wide row hrow]

/-- Each row of the one with each row of the other behind it. -/
def cross (r s : Relation κ α) : Relation κ α where
  columns := r.columns ++ s.columns
  rows := r.rows.flatMap fun row => s.rows.map (row ++ ·)
  wide := by
    intro row hrow
    obtain ⟨front, hfront, hrow⟩ := List.mem_flatMap.mp hrow
    obtain ⟨back, hback, rfl⟩ := List.mem_map.mp hrow
    rw [List.length_append, List.length_append, r.wide front hfront, s.wide back hback]

/-- The values at some positions, under new names. -/
def project (r : Relation κ α) (positions : List (Fin r.columns.length)) (names : List κ')
    (h : names.length = positions.length) : Relation κ' α where
  columns := names
  rows := r.rows.attach.map fun row =>
    positions.map fun i => row.val.get (i.cast (r.wide row.val row.property).symm)
  wide := by
    intro row hrow
    obtain ⟨_, _, rfl⟩ := List.mem_map.mp hrow
    rw [List.length_map, h]

/-- A product with the unit is the relation. -/
theorem cross_unit (r : Relation κ α) : r.cross unit = r := by
  apply Relation.ext
  · exact List.append_nil _
  · show (r.rows.flatMap fun row => [[]].map (row ++ ·)) = r.rows
    simp

/-- All positions in order are the rows as they are. -/
theorem rows_project_all (r : Relation κ α) (names : List κ')
    (h : names.length = (List.finRange r.columns.length).length) :
    (r.project (List.finRange r.columns.length) names h).rows = r.rows := by
  have hrow : ∀ row : { row // row ∈ r.rows },
      ((List.finRange r.columns.length).map fun i =>
        row.val.get (i.cast (r.wide row.val row.property).symm)) = row.val := by
    intro row
    apply List.ext_getElem
    · rw [List.length_map, List.length_finRange, r.wide row.val row.property]
    · intro i hi hi'
      simp
  show (r.rows.attach.map fun row => _) = r.rows
  rw [List.map_congr_left fun row _ => hrow row]
  exact List.attach_map_subtype_val r.rows

/-- The values of a row under some names; a name that is no column has none. -/
def valuesUnder [DecidableEq κ] (r : Relation κ α) (names : List κ) (row : List α) : List (Option α) :=
  names.map fun name => (r.columns.zip row).lookup name

/-- No two rows have the same values under the names. -/
def HasKey [DecidableEq κ] (r : Relation κ α) (names : List κ) : Prop :=
  r.rows.Pairwise fun row row' => r.valuesUnder names row ≠ r.valuesUnder names row'

end Relation

/-! ## Views -/

/-- An item of a SELECT list: a column, of the table that is named in front of it. -/
structure ItemRef where
  qualifier : Option String
  name : String
  deriving DecidableEq, Repr

/-- A table of a FROM clause. -/
structure TableRef where
  schema : String
  table : String
  tableAlias : Option String
  deriving DecidableEq, Repr

/-- What stands between the brackets of a header. -/
inductive Element
  | column (name : String)
  | key (primary : Bool) (columns : List String)
  deriving DecidableEq, Repr

/-- A CREATE VIEW statement. -/
structure ViewStatement where
  name : String
  elements : List Element
  description : Option String
  items : List ItemRef
  tables : List TableRef
  deriving DecidableEq, Repr

/-- The name under which a table is in scope. -/
def TableRef.scopeName (t : TableRef) : String := t.tableAlias.getD t.table

/-- The name of the column it is, or the key. -/
def Element.column? : Element → Option String
  | .column name => some name
  | .key _ _ => none

/-- The key of an element. -/
def Element.key? : Element → Option (Bool × List String)
  | .column _ => none
  | .key primary columns => some (primary, columns)

namespace ViewStatement

/-- The columns of the header. -/
def columns (v : ViewStatement) : List String := v.elements.filterMap Element.column?

/-- The keys of the header. -/
def keys (v : ViewStatement) : List (Bool × List String) := v.elements.filterMap Element.key?

end ViewStatement

/-! ## Their meaning -/

section Meaning

variable {α : Type} (same : String → String → Bool)

/-- The item is the column of this name, in the table of this name. -/
def ItemRef.refersTo (item : ItemRef) (column : String × String) : Bool :=
  item.qualifier.all (same column.1) && same column.2 item.name

/-- The one column an item refers to. -/
def resolve (columns : List (String × String)) (item : ItemRef) : Option (Fin columns.length) :=
  match (List.finRange columns.length).filter fun i => item.refersTo same (columns.get i) with
  | [i] => some i
  | _ => none

/-- The rows of all tables of a FROM clause, crossed, with the columns under the names in scope. -/
def scope (find : String → String → Option (Relation String α)) :
    List TableRef → Option (Relation (String × String) α)
  | [] => some .unit
  | t :: ts => do
      let r ← find t.schema t.table
      let rest ← scope find ts
      pure ((r.rename (t.scopeName, ·)).cross rest)

/-- No two columns have the same name. -/
def DistinctNames (columns : List String) : Prop :=
  columns.Pairwise fun column column' => same column column' = false

instance (columns : List String) : Decidable (DistinctNames same columns) :=
  inferInstanceAs (Decidable (List.Pairwise _ _))

/-- What the view shows, where all its items can be resolved, there is one for each column and the
columns have different names. -/
def ViewStatement.result (find : String → String → Option (Relation String α)) (v : ViewStatement) :
    Option (Relation String α) := do
  let rows ← scope find v.tables
  let positions ← v.items.mapM (resolve same rows.columns)
  if h : v.columns.length = positions.length ∧ DistinctNames same v.columns then
    some (rows.project positions v.columns h.1)
  else none

variable {same}

theorem resolve_eq_some {columns : List (String × String)} {item : ItemRef} {i : Fin columns.length}
    (h : ∀ j, item.refersTo same (columns.get j) = true ↔ j = i) :
    resolve same columns item = some i := by
  have hfilter : ((List.finRange columns.length).filter fun j => item.refersTo same (columns.get j)) =
      [i] := by
    have hsame : ((List.finRange columns.length).filter fun j => item.refersTo same (columns.get j)) =
        (List.finRange columns.length).filter (· == i) := by
      refine List.filter_congr fun j _ => ?_
      rw [Bool.eq_iff_iff, h j, beq_iff_eq]
    rw [hsame, List.filter_beq, List.count_eq_one_of_mem (List.nodup_finRange _) (List.mem_finRange i)]
    rfl
  unfold resolve
  rw [hfilter]

/-- An item that refers to no column is not resolved. -/
theorem resolve_eq_none {columns : List (String × String)} {item : ItemRef}
    (h : ∀ column ∈ columns, item.refersTo same column = false) : resolve same columns item = none := by
  have hfilter : ((List.finRange columns.length).filter fun j => item.refersTo same (columns.get j)) =
      [] := by
    rw [List.filter_eq_nil_iff]
    intro j _
    rw [h _ (List.get_mem columns j)]
    exact Bool.false_ne_true
  unfold resolve
  rw [hfilter]

/-- Two columns with one name are the same column. -/
theorem DistinctNames.eq_of_same (hsymm : ∀ name name', same name name' = same name' name)
    {columns : List String} (hdistinct : DistinctNames same columns) {i j : Nat} (hi : i < columns.length)
    (hj : j < columns.length) (h : same columns[j] columns[i] = true) : j = i := by
  by_contra hne
  rcases Nat.lt_or_gt_of_ne hne with hlt | hlt
  · have hother := List.pairwise_iff_getElem.mp hdistinct j i hj hi hlt
    rw [h] at hother
    cases hother
  · have hother := List.pairwise_iff_getElem.mp hdistinct i j hi hj hlt
    rw [hsymm, h] at hother
    cases hother

/-- With distinct names the items of all columns are resolved to all positions. -/
theorem mapM_resolve_all (hrefl : ∀ name, same name name = true)
    (hsymm : ∀ name name', same name name' = same name' name) {name : String} {qualifier : Option String}
    (hqualifier : qualifier.all (same name) = true) {columns : List String}
    (hdistinct : DistinctNames same columns) :
    (columns.map (ItemRef.mk qualifier)).mapM (resolve same (columns.map (name, ·))) =
      some (List.finRange (columns.map (name, ·)).length) := by
  -- the items are indexed by the positions they are to be resolved to
  have hitems : columns.map (ItemRef.mk qualifier) =
      (List.finRange (columns.map fun column => (name, column)).length).map fun i =>
        ItemRef.mk qualifier ((columns.map fun column => (name, column)).get i).2 := by
    apply List.ext_getElem
    · simp
    · intro i hi hi'
      simp
  have hresolve : ∀ i : Fin (columns.map fun column => (name, column)).length,
      resolve same (columns.map fun column => (name, column))
        (ItemRef.mk qualifier ((columns.map fun column => (name, column)).get i).2) = some i := by
    intro i
    apply resolve_eq_some
    intro j
    have hi : i.val < columns.length := by simpa using i.isLt
    have hj : j.val < columns.length := by simpa using j.isLt
    have href : ItemRef.refersTo same
        (ItemRef.mk qualifier ((columns.map fun column => (name, column)).get i).2)
        ((columns.map fun column => (name, column)).get j) = same columns[j.val] columns[i.val] := by
      simp [ItemRef.refersTo, hqualifier]
    rw [href]
    constructor
    · intro hsame
      exact Fin.ext (hdistinct.eq_of_same hsymm hi hj hsame)
    · rintro rfl
      exact hrefl _
  rw [hitems, List.mapM_map]
  have hpure : (resolve same (columns.map fun column => (name, column)) ∘ fun i =>
      ItemRef.mk qualifier ((columns.map fun column => (name, column)).get i).2) = some :=
    funext hresolve
  show List.mapM (_ ∘ _) _ = _
  rw [hpure]
  exact List.mapM_pure.trans (congrArg some (List.map_id _))

/-! ## Views of one table -/

variable {find : String → String → Option (Relation String α)} {v : ViewStatement} {t : TableRef}

/-- The scope of one table is its columns, under its name. -/
theorem scope_singleton {r : Relation String α} (hfind : find t.schema t.table = some r) :
    scope find [t] = some (r.rename (t.scopeName, ·)) := by
  unfold scope scope
  rw [hfind]
  exact congrArg some (Relation.cross_unit _)

/-- A view of all columns of a table shows the table. -/
theorem result_all (hrefl : ∀ name, same name name = true)
    (hsymm : ∀ name name', same name name' = same name' name) (htables : v.tables = [t])
    {qualifier : Option String} (hqualifier : qualifier.all (same t.scopeName) = true)
    {r : Relation String α} (hfind : find t.schema t.table = some r) (hcolumns : v.columns = r.columns)
    (hitems : v.items = r.columns.map (ItemRef.mk qualifier)) (hdistinct : DistinctNames same r.columns) :
    v.result same find = some r := by
  have hresolve := mapM_resolve_all hrefl hsymm hqualifier hdistinct
  have hlength : v.columns.length = (List.finRange (r.columns.map (t.scopeName, ·)).length).length ∧
      DistinctNames same v.columns := by
    rw [hcolumns]
    exact ⟨by simp, hdistinct⟩
  unfold ViewStatement.result
  rw [htables, scope_singleton hfind, hitems]
  show (List.mapM (resolve same (r.columns.map (t.scopeName, ·))) _ >>= _) = _
  rw [hresolve]
  refine (dif_pos hlength).trans (congrArg some ?_)
  apply Relation.ext
  · exact hcolumns
  · exact Relation.rows_project_all (r.rename (t.scopeName, ·)) _ _

theorem mapM_eq_none {β γ : Type} {f : β → Option γ} {l : List β} {b : β} (hb : b ∈ l)
    (h : f b = none) : l.mapM f = none := by
  induction l with
  | nil => cases hb
  | cons c l ih =>
      rw [List.mapM_cons]
      rcases List.mem_cons.mp hb with rfl | hb
      · rw [h]
        rfl
      · cases f c with
        | none => rfl
        | some d =>
            rw [ih hb]
            rfl

/-- Columns are in scope under the names of the tables only. -/
theorem scope_qualified {qualifier : String} {ts : List TableRef}
    (hts : ∀ t ∈ ts, same t.scopeName qualifier = false) {rows : Relation (String × String) α}
    (hrows : scope find ts = some rows) : ∀ column ∈ rows.columns, same column.1 qualifier = false := by
  induction ts generalizing rows with
  | nil =>
      intro column hcolumn
      cases hrows
      cases hcolumn
  | cons t ts ih =>
      intro column hcolumn
      rw [List.forall_mem_cons] at hts
      obtain ⟨r, _, hrows⟩ := Option.bind_eq_some_iff.mp hrows
      obtain ⟨rest, hrest, hrows⟩ := Option.bind_eq_some_iff.mp hrows
      cases hrows
      rcases List.mem_append.mp hcolumn with hown | hother
      · obtain ⟨_, _, rfl⟩ := List.mem_map.mp hown
        exact hts.1
      · exact ih hts.2 hrest column hother

/-- A view with an item that no table in scope is named for shows nothing. -/
theorem result_eq_none {item : ItemRef} (hitem : item ∈ v.items) {qualifier : String}
    (hqualifier : item.qualifier = some qualifier)
    (hscope : ∀ t ∈ v.tables, same t.scopeName qualifier = false) : v.result same find = none := by
  unfold ViewStatement.result
  cases hrows : scope find v.tables with
  | none => rfl
  | some rows =>
      have hnone : resolve same rows.columns item = none := by
        apply resolve_eq_none
        intro column hcolumn
        have hother := scope_qualified hscope hrows column hcolumn
        simp [ItemRef.refersTo, hqualifier, hother]
      show (List.mapM _ _ >>= _) = none
      rw [mapM_eq_none hitem hnone]
      rfl

end Meaning

end TeiidSyndesis.Library.Sql
