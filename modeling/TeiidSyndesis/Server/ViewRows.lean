/-
# TeiidSyndesis.Server.ViewRows — what holds of all view rows, operation by operation.

An upsert writes one row, an import writes and appends rows that are generated, a removal takes rows
away.  For a property of rows that does not depend on their version, this says what each of them keeps.

Main results:
* `allRows_upsert`, `allRows_import`, `allRows_remove` — one lemma for each operation that writes rows.
-/
import TeiidSyndesis.Server.DataVirtualizationService

namespace TeiidSyndesis.Server

open TeiidSyndesis.Library TeiidSyndesis.Model TeiidSyndesis.Repository

/-- All view rows have the property. -/
def AllRows (P : ViewDefinition → Prop) (store : Store) : Prop := ∀ view ∈ store.views, P view

/-- What the loop of an import keeps: rows with the property, and views with it to be saved. -/
def LoopRows (P : ViewDefinition → Prop) (store : Store) (toSave : List ViewDefinition) : Prop :=
  AllRows P store ∧ ∀ view ∈ toSave, P view

section AllRows

variable {P : ViewDefinition → Prop} {teiid : Teiid} {finder : SchemaFinder} {store store' : Store}

/-- A property of all rows holds of fewer. -/
theorem allRows_of_subset (hs : AllRows P store) (hviews : ∀ view ∈ store'.views, view ∈ store.views) :
    AllRows P store' :=
  fun view hview => hs view (hviews view hview)

/-- An upsert keeps the property exactly if the view it writes has it. -/
theorem allRows_upsert {restViewDefn view : ViewDefinition}
    (hflushed : ∀ old view, P (Store.flushed old view) ↔ P view) (hs : AllRows P store)
    (h : upsertViewEditorState teiid finder store restViewDefn = .ok (store', view)) :
    AllRows P store' ↔ P view := by
  obtain ⟨base, viewDefn, created, touched, mid, hloaded, hupdated, hmid, rfl⟩ :=
    upsertViewEditorState_ok h
  obtain ⟨hmem, _, _, hbase⟩ := loaded_row hloaded
  have hviews := views_of_touched hmid
  have hid := id_flushed hupdated.frame.1
  constructor
  · intro hall
    have hwritten : Store.flushed viewDefn view ∈
        (mid.writeViewDefinition (Store.flushed viewDefn view)).views :=
      mem_writeRow_self (hviews ▸ hmem) hid.symm
    exact (hflushed _ _).mp (hall _ hwritten)
  · intro hview row hrow
    rcases mem_writeRow hrow with rfl | ⟨hold, hne⟩
    · exact (hflushed _ _).mpr hview
    · rw [hviews] at hold
      rcases hbase with ⟨_, _, hnew⟩ | ⟨_, rfl⟩
      · rw [hnew] at hold
        rcases List.mem_append.mp hold with hold | hcreated
        · exact hs row hold
        · -- the row that was added for the request has been written over
          rw [List.mem_singleton.mp hcreated] at hne
          exact absurd hid.symm hne
      · exact hs row hold

/-- Rows that are saved have the property, if what is saved has it. -/
theorem allRows_persist {toSave : List ViewDefinition}
    (hpersisted : ∀ (store : Store) view, P view → P (store.persisted view)) (hs : AllRows P store)
    (hsave : ∀ view ∈ toSave, P view) : AllRows P (toSave.foldl Store.persist store) := by
  induction toSave generalizing store with
  | nil => exact hs
  | cons view toSave ih =>
      rw [List.forall_mem_cons] at hsave
      refine @ih (store.persist view) ?_ hsave.2
      intro row hrow
      rcases List.mem_append.mp hrow with hold | hnew
      · exact hs row hold
      · rw [List.mem_singleton.mp hnew]
        exact hpersisted store view hsave.1

/-- An import keeps a property that views generated over one path have. -/
theorem allRows_import {virtualization teiidSourceName : String} {tables : List String}
    (hflushed : ∀ old view, P (Store.flushed old view) ↔ P view)
    (hpersisted : ∀ (store : Store) view, P view → P (store.persisted view))
    (himported : ∀ t viewDefn imported, viewDefn.sourcePaths = [] →
      importedView teiid finder teiidSourceName t viewDefn = .ok imported → P imported)
    (hs : AllRows P store)
    (h : importViews teiid finder store virtualization teiidSourceName tables = .ok store') :
    AllRows P store' := by
  obtain ⟨_, _, imported, toSave, _, _, himport, htouch⟩ := importViews_ok h
  have hstart : LoopRows P store [] := ⟨hs, fun _ hview => nomatch hview⟩
  have hloop : LoopRows P imported toSave := by
    refine importTables_rule ?_ ?_ hstart himport
    · rintro mid collected name t viewDefn view ⟨hmid, hcollected⟩ _ _ hview
      refine ⟨?_, hcollected⟩
      intro row hrow
      rcases mem_writeRow hrow with rfl | ⟨hold, _⟩
      · exact (hflushed _ _).mpr (himported t _ view rfl hview)
      · exact hmid row hold
    · rintro mid collected name t created ⟨hmid, hcollected⟩ _ _ hcreated
      refine ⟨hmid, ?_⟩
      intro view hview
      rcases List.mem_append.mp hview with hold | hnew
      · exact hcollected view hold
      · rw [List.mem_singleton.mp hnew]
        exact himported t _ created rfl hcreated
  refine allRows_of_subset (allRows_persist hpersisted hloop.1 hloop.2) ?_
  intro view hview
  rwa [← Store.views_of_touch htouch]

/-- A removal takes rows away. -/
theorem allRows_remove {id : Nat} (hs : AllRows P store)
    (h : removeViewDefinition store id = .ok store') : AllRows P store' := by
  unfold removeViewDefinition at h
  split at h
  · cases h
  · rename_i vd _
    refine allRows_of_subset hs ?_
    intro view hview
    split at h
    · obtain ⟨mid, hmid, h⟩ := bind_eq_ok.mp h
      cases pure_eq_ok.mp h
      have hkept := (List.mem_filter.mp hview).1
      rwa [Store.views_of_touch hmid] at hkept
    · cases pure_eq_ok.mp h
      exact (List.mem_filter.mp hview).1

end AllRows

end TeiidSyndesis.Server
