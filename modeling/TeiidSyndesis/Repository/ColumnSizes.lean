/-
# TeiidSyndesis.Repository.ColumnSizes — the sizes of the columns.

The migrations declare the columns of texts with sizes, counted in characters, and the database refuses a
row with a longer text.  `commit` checks the keys and references of the tables; where texts come from
outside and the question is whether they are stored at all, the transaction ends with `commitSized`, which
checks the sizes too.

Main definitions: `ViewFits` and `DataVirtualizationFits` for one row, `Store.FitsColumns` for the tables,
`commitSized`.  The column of the source paths, which holds their JSON text, is not looked at.
-/
import TeiidSyndesis.Repository.RepositoryManager

namespace TeiidSyndesis.Repository

open TeiidSyndesis.Library TeiidSyndesis.Model

/-! ## Rows -/

/-- The size of `name`, `upper_name` and `dv_name`. -/
def nameSize : Nat := 255

/-- The size of `description`. -/
def descriptionSize : Nat := 4096

/-- The size of `ddl` in `view_definition`. -/
def ddlSize : Nat := 100000

/-- A name is stored as it is and in upper case. -/
def NameFits (teiid : Teiid) (name : String) : Prop :=
  name.length ≤ nameSize ∧ (teiid.toUpperCase name).length ≤ nameSize

instance (teiid : Teiid) (name : String) : Decidable (NameFits teiid name) :=
  inferInstanceAs (Decidable (_ ∧ _))

/-- The texts of a row of `data_virtualization` are not longer than its columns. -/
structure DataVirtualizationFits (teiid : Teiid) (dv : DataVirtualization) : Prop where
  name : NameFits teiid dv.name
  description : ∀ text ∈ dv.description, text.length ≤ descriptionSize

instance (teiid : Teiid) (dv : DataVirtualization) : Decidable (DataVirtualizationFits teiid dv) :=
  decidable_of_iff (NameFits teiid dv.name ∧ ∀ text ∈ dv.description, text.length ≤ descriptionSize)
    ⟨fun ⟨name, description⟩ => ⟨name, description⟩, fun h => ⟨h.name, h.description⟩⟩

/-- The texts of a row of `view_definition` are not longer than its columns. -/
structure ViewFits (teiid : Teiid) (view : ViewDefinition) : Prop where
  name : NameFits teiid view.name
  dataVirtualizationName : view.dataVirtualizationName.length ≤ nameSize
  description : ∀ text ∈ view.description, text.length ≤ descriptionSize
  ddl : ∀ text ∈ view.ddl, text.length ≤ ddlSize

instance (teiid : Teiid) (view : ViewDefinition) : Decidable (ViewFits teiid view) :=
  decidable_of_iff
    (NameFits teiid view.name ∧ view.dataVirtualizationName.length ≤ nameSize ∧
      (∀ text ∈ view.description, text.length ≤ descriptionSize) ∧
      ∀ text ∈ view.ddl, text.length ≤ ddlSize)
    ⟨fun ⟨name, dataVirtualizationName, description, ddl⟩ =>
        ⟨name, dataVirtualizationName, description, ddl⟩,
      fun h => ⟨h.name, h.dataVirtualizationName, h.description, h.ddl⟩⟩

/-! ## Tables -/

/-- No virtualization and no view has a text that is longer than its column. -/
structure Store.FitsColumns (teiid : Teiid) (store : Store) : Prop where
  virtualizations : ∀ dv ∈ store.virtualizations, DataVirtualizationFits teiid dv
  views : ∀ view ∈ store.views, ViewFits teiid view

instance (teiid : Teiid) (store : Store) : Decidable (store.FitsColumns teiid) :=
  decidable_of_iff
    ((∀ dv ∈ store.virtualizations, DataVirtualizationFits teiid dv) ∧
      ∀ view ∈ store.views, ViewFits teiid view)
    ⟨fun ⟨virtualizations, views⟩ => ⟨virtualizations, views⟩, fun h => ⟨h.virtualizations, h.views⟩⟩

/-- The end of a transaction, with the sizes of the columns among what the database checks. -/
def commitSized (teiid : Teiid) (store : Store) : Except Failure (Database teiid) :=
  if store.FitsColumns teiid then commit teiid store else .error .dataIntegrityViolation

/-- What is committed is within the sizes. -/
theorem commitSized_eq_ok {teiid : Teiid} {store : Store} {db : Database teiid} :
    commitSized teiid store = .ok db ↔ store.FitsColumns teiid ∧ db.store = store := by
  unfold commitSized
  by_cases hfits : store.FitsColumns teiid
  · rw [if_pos hfits, commit_eq_ok]
    exact (and_iff_right hfits).symm
  · rw [if_neg hfits]
    exact iff_of_false nofun fun h => hfits h.1

end TeiidSyndesis.Repository
