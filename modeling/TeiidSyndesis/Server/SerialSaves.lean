/-
# TeiidSyndesis.Server.SerialSaves — transactions side by side do what they do one after another.

A commit writes what the transaction has made of entities it loaded earlier.  Where these are still the
rows, the tables after the commit are those the request leaves when it is run alone on the tables before
it.  The versions are checked for the entities that are written; an entity that is left as it was loaded
is not looked at, so that it is still the row is a condition on the commit.  A run all of whose commits
meet it, or write nothing, is a run of the operations one after another, in the order of the commits.

Main results:
* `getODataViewDdl_rekeyed`, `updateView_rekeyed` — what a save makes of a view does not depend on its id;
* `upsert_of_made`, `upsert_of_loaded` — the commit of a save is the save on the tables before it, for a
  new view and for one that was loaded;
* `remove_of_loaded` — the same of a removal.
-/
import TeiidSyndesis.Library.Simulation
import TeiidSyndesis.Server.ImportTolerance
import TeiidSyndesis.Server.TransactionReads

namespace TeiidSyndesis.Server.Clients

open TeiidSyndesis.Library TeiidSyndesis.Model TeiidSyndesis.Repository

variable {κ : Type} [DecidableEq κ] {teiid : Teiid}

/-! ## What does not depend on the identifier of a view -/

/-- The view with another identifier and version. -/
def rekeyed (id version : Option Nat) (view : ViewDefinition) : ViewDefinition :=
  { view with id := id, version := version }

section

variable {finder : SchemaFinder} {viewDefn restViewDefn updated : ViewDefinition}

/-- The generated text does not name the id. -/
theorem getODataViewDdl_rekeyed (id version : Option Nat) (viewDefn : ViewDefinition) :
    getODataViewDdl teiid finder (rekeyed id version viewDefn) = getODataViewDdl teiid finder viewDefn := by
  unfold getODataViewDdl getSourceTableInfos getTablesViewDdl rekeyed
  rfl

/-- The branch that generates does not look at the id. -/
theorem updateGenerated_rekeyed {pathsSame created touched : Bool} (id version : Option Nat)
    (h : updateGenerated teiid finder viewDefn pathsSame created = .ok (updated, touched)) :
    updateGenerated teiid finder (rekeyed id version viewDefn) pathsSame created =
      .ok (rekeyed id version updated, touched) := by
  unfold updateGenerated at h ⊢
  rw [getODataViewDdl_rekeyed]
  split at h
  · rename_i hneeded
    obtain ⟨ddl, hddl, hresult⟩ := bind_eq_ok.mp h
    cases pure_eq_ok.mp hresult
    rw [if_pos (by exact hneeded)]
    exact bind_eq_ok.mpr ⟨ddl, hddl, rfl⟩
  · rename_i hneeded
    cases pure_eq_ok.mp h
    rw [if_neg (by exact hneeded)]
    rfl

/-- The branch that parses does not look at the id. -/
theorem updateUserDefined_rekeyed (id version : Option Nat) (viewDefn : ViewDefinition) (ddl : String)
    (created : Bool) :
    updateUserDefined teiid (rekeyed id version viewDefn) ddl created =
      (rekeyed id version (updateUserDefined teiid viewDefn ddl created).1,
        (updateUserDefined teiid viewDefn ddl created).2) := by
  unfold updateUserDefined rekeyed
  dsimp only
  split
  · split <;> rfl
  · rfl

/-- The ddl is the same under any id. -/
theorem updateDdl_rekeyed {oldDdl : Option String} {pathsSame created touched : Bool}
    (id version : Option Nat)
    (h : updateDdl teiid finder viewDefn oldDdl pathsSame created = .ok (updated, touched)) :
    updateDdl teiid finder (rekeyed id version viewDefn) oldDdl pathsSame created =
      .ok (rekeyed id version updated, touched) := by
  have huserDefined : (rekeyed id version viewDefn).userDefined = viewDefn.userDefined := rfl
  have hkeeps : (rekeyed id version viewDefn).ddl = viewDefn.ddl := rfl
  -- neither the id nor the version is read on the way
  unfold updateDdl at h ⊢
  rw [huserDefined, hkeeps]
  split at h
  · rename_i huser
    rw [if_pos huser]
    exact updateGenerated_rekeyed id version h
  · rename_i huser
    rw [if_neg huser]
    cases hddl : viewDefn.ddl with
    | none =>
        rw [hddl] at h
        cases pure_eq_ok.mp h
        rfl
    | some ddl =>
        rw [hddl] at h
        dsimp only at h ⊢
        split at h
        · rename_i hnew
          rw [if_pos hnew, updateUserDefined_rekeyed, pure_eq_ok.mp h]
          rfl
        · rename_i hold
          cases pure_eq_ok.mp h
          rw [if_neg hold]
          rfl

/-- What a save makes of a view is the same under any id. -/
theorem updateView_rekeyed {created touched : Bool} (id version : Option Nat)
    (h : updateView teiid finder viewDefn restViewDefn created = .ok (updated, touched)) :
    updateView teiid finder (rekeyed id version viewDefn) restViewDefn created =
      .ok (rekeyed id version updated, touched) := by
  have hcopied : copyRequest (rekeyed id version viewDefn) restViewDefn =
      rekeyed id version (copyRequest viewDefn restViewDefn) := rfl
  unfold updateView at h ⊢
  dsimp only at h ⊢
  rw [hcopied]
  split at h
  · rename_i hcomplete
    rw [if_pos (by exact hcomplete)]
    exact updateDdl_rekeyed id version h
  · rename_i hcomplete
    cases pure_eq_ok.mp h
    rw [if_neg (by exact hcomplete)]
    rfl

end

/-! ## The commit of a save, and of a removal -/

section

variable {db db' : Database teiid} {name : String} {updateDv : Bool} {touched : Option DataVirtualization}

/-- No two virtualizations share a name. -/
theorem virtualizationNames_nodup (db : Database teiid) :
    (db.store.virtualizations.map DataVirtualization.name).Nodup :=
  (List.Nodup.of_map _ db.consistent.names).of_append_left

/-- The virtualization that was read is the one that is touched. -/
theorem touch_of_touching {base : Store} (h : Touching db.store name updateDv touched .none)
    (hbase : base.virtualizations = db.store.virtualizations)
    (hcurrent : touched.all (Work.virtualizationIsCurrent db.store) = true) :
    (if updateDv then base.touch name else .ok base) = .ok (Work.touchVirtualization base touched) := by
  cases h with
  | untouched => rfl
  | @touched dv hdv hname =>
      have hmem : dv ∈ db.store.virtualizations := hdv.mem hcurrent
      have hfind : base.findDataVirtualization name = some dv := by
        unfold Store.findDataVirtualization
        rw [hbase, ← hname]
        exact find?_of_mem (virtualizationNames_nodup db) hmem
      exact Store.touch_eq_ok.mpr ⟨dv, hfind, rfl⟩

/-- Touching a virtualization writes no view. -/
theorem views_touchVirtualization (store : Store) (touched : Option DataVirtualization) :
    (Work.touchVirtualization store touched).views = store.views := by
  cases touched <;> rfl

/-- A view that is a row is still the one the request is about. -/
theorem findPersistent_of_requests {restViewDefn viewDefn : ViewDefinition}
    (hmem : viewDefn ∈ db.store.views) (h : Requests teiid restViewDefn viewDefn) :
    findPersistent teiid db.store restViewDefn = .ok (some viewDefn) := by
  unfold Requests at h
  unfold findPersistent
  cases hid : restViewDefn.id with
  | none =>
      rw [hid] at h
      obtain ⟨hdv, hupper⟩ := h
      have hfind := find_of_row hmem hdv hupper
      rw [hfind]
  | some id =>
      rw [hid] at h
      obtain ⟨hviewId, hversion⟩ := h
      have hfind : db.store.findViewDefinition id = some viewDefn := by
        unfold Store.findViewDefinition
        rw [← hviewId]
        exact find?_of_mem db.consistent.ids hmem
      dsimp only
      rw [hfind]
      dsimp only
      rw [if_neg]
      intro hbehind
      rw [Bool.and_eq_true, bne_iff_ne] at hbehind
      exact hbehind.2 (hversion hbehind.1)

/-- The next id is no row's. -/
theorem notMem_ids_nextId (db : Database teiid) : ∀ view ∈ db.store.views,
    view.id ≠ some db.store.nextId := by
  intro view hview hid
  have hlt := db.consistent.drawn view hview db.store.nextId hid
  omega

/-- The row of a new view comes last. -/
theorem views_insertView (db : Database teiid) (pair : ViewDefinition × ViewDefinition) :
    (Work.insertView db.store pair).views =
      db.store.views ++ [Store.flushed (db.store.persisted pair.1)
        (rekeyed (some db.store.nextId) (some 0) pair.2)] := by
  have hid : (Store.flushed (db.store.persisted pair.1)
      (rekeyed (some db.store.nextId) (some 0) pair.2)).id = some db.store.nextId := id_flushed rfl
  refine writeRow_append ?_ hid.symm
  intro view hview heq
  exact notMem_ids_nextId db view hview (heq.trans hid)

section

variable {finder : SchemaFinder} {restViewDefn viewDefn updated : ViewDefinition} {before : Store}

/-- A view that was not there when the save began is not there when its row is inserted: the constraint
on view names would be violated. -/
theorem findPersistent_of_inserted {pair : ViewDefinition × ViewDefinition}
    (hid : restViewDefn.id = none)
    (hname : pair.2.name = restViewDefn.name)
    (hdv : pair.2.dataVirtualizationName = restViewDefn.dataVirtualizationName)
    (hviews : db'.store.views = (Work.insertView db.store pair).views) :
    findPersistent teiid db.store restViewDefn = .ok none := by
  unfold findPersistent
  rw [hid]
  dsimp only
  congr 1
  refine List.find?_eq_none.mpr ?_
  intro view hview hsame
  obtain ⟨hviewDv, hupper⟩ := of_decide_eq_true hsame
  have hdistinct := db'.consistent.viewNames
  rw [hviews, views_insertView, List.map_append, List.nodup_append] at hdistinct
  have hkeys := congrArg Prod.snd (viewKey_flushed (db.store.persisted pair.1)
    (rekeyed (some db.store.nextId) (some 0) pair.2))
  obtain ⟨hrowName, hrowDv⟩ := Prod.mk.inj hkeys
  have hrow : (teiid.toUpperCase view.name, view.dataVirtualizationName) ∈
      [Store.flushed (db.store.persisted pair.1)
        (rekeyed (some db.store.nextId) (some 0) pair.2)].map fun view =>
          (teiid.toUpperCase view.name, view.dataVirtualizationName) := by
    rw [List.map_singleton, List.mem_singleton, hrowName, hrowDv, hupper, hviewDv, ← hname, ← hdv]
    rfl
  exact hdistinct.2.2 _ (List.mem_map_of_mem hview) _ hrow rfl

/-- A save that has made a view. -/
theorem upsert_of_made (hid : restViewDefn.id = none)
    (hupdate : updateView teiid finder (before.createViewDefiniton restViewDefn.dataVirtualizationName
      restViewDefn.name).2 restViewDefn true = .ok (updated, updateDv))
    (htouching : Touching db.store updated.dataVirtualizationName updateDv touched .none)
    (hcurrent : touched.all (Work.virtualizationIsCurrent db.store) = true)
    (hstore : db'.store = Work.touchVirtualization (Work.insertView db.store
      ((before.createViewDefiniton restViewDefn.dataVirtualizationName restViewDefn.name).2, updated))
        touched) :
    ∃ view, upsertViewEditorState teiid finder db.store restViewDefn = .ok (db'.store, view) := by
  obtain ⟨_, hname, hdv, _⟩ := (updateView_cases hupdate).frame
  have hviews : db'.store.views = (Work.insertView db.store
      ((before.createViewDefiniton restViewDefn.dataVirtualizationName restViewDefn.name).2,
        updated)).views := by
    rw [hstore, views_touchVirtualization]
  have hfound := findPersistent_of_inserted hid hname hdv hviews
  have hbase : (db.store.createViewDefiniton restViewDefn.dataVirtualizationName
    restViewDefn.name).1.virtualizations = db.store.virtualizations := rfl
  -- the row has another identifier than the one the transaction has worked with
  have hupdate' := updateView_rekeyed (some db.store.nextId) (some 0) hupdate
  refine ⟨rekeyed (some db.store.nextId) (some 0) updated, ?_⟩
  refine upsertViewEditorState_eq_ok.mpr ⟨none, _, _, updateDv, _, hfound, rfl,
    hupdate', touch_of_touching htouching hbase hcurrent, ?_⟩
  rw [hstore, writeViewDefinition_touchVirtualization]
  rfl

/-- A save that has loaded a view, which still is the row. -/
theorem upsert_of_loaded (hmem : viewDefn ∈ db.store.views)
    (hrequests : Requests teiid restViewDefn viewDefn) (hname : restViewDefn.name = viewDefn.name)
    (hdv : restViewDefn.dataVirtualizationName = viewDefn.dataVirtualizationName)
    (hupdate : updateView teiid finder viewDefn restViewDefn false = .ok (updated, updateDv))
    (htouching : Touching db.store updated.dataVirtualizationName updateDv touched .none)
    (hcurrent : touched.all (Work.virtualizationIsCurrent db.store) = true) :
    upsertViewEditorState teiid finder db.store restViewDefn =
      .ok (Work.touchVirtualization (Work.flushView db.store (viewDefn, updated)) touched, updated) := by
  have hload : viewToUpdate db.store restViewDefn (some viewDefn) = .ok (db.store, viewDefn) :=
    if_pos ⟨hname, hdv⟩
  refine upsertViewEditorState_eq_ok.mpr ⟨some viewDefn, _, _, updateDv, _,
    findPersistent_of_requests hmem hrequests, hload, hupdate, touch_of_touching htouching rfl hcurrent, ?_⟩
  rw [writeViewDefinition_touchVirtualization, flushView_eq hmem (version_of_updateView hupdate).1]

end

/-- A removal of a view that still is the row. -/
theorem remove_of_loaded {id : Nat} {vd : ViewDefinition} (hmem : vd ∈ db.store.views)
    (hid : vd.id = some id)
    (htouching : Touching db.store vd.dataVirtualizationName (vd.complete && vd.parsable) touched .none)
    (hcurrent : touched.all (Work.virtualizationIsCurrent db.store) = true) :
    removeViewDefinition db.store id =
      .ok (Work.touchVirtualization (Work.deleteView db.store vd) touched) := by
  have hfind : db.store.findViewDefinition id = some vd := by
    unfold Store.findViewDefinition
    rw [← hid]
    exact find?_of_mem db.consistent.ids hmem
  have htouch := touch_of_touching htouching rfl hcurrent
  have hdelete : (Work.touchVirtualization db.store touched).deleteViewDefinition id =
      Work.touchVirtualization (Work.deleteView db.store vd) touched := by
    unfold Store.deleteViewDefinition Work.deleteView
    rw [hid]
    cases touched <;> rfl
  unfold removeViewDefinition
  rw [hfind]
  dsimp only
  rw [← hdelete]
  generalize (vd.complete && vd.parsable) = updateDv at htouch ⊢
  cases updateDv <;> exact bind_eq_ok.mpr ⟨_, htouch, rfl⟩

end

end TeiidSyndesis.Server.Clients
