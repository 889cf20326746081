/-
# TeiidSyndesis.OpenShift.AddedConnections — what adding connections changes, and what it leaves.

Adding a connection adds its row and its data source; with `update` the data sources of its name are
deleted first.  What is added bears the name of its row, so connections do not get in each other's way
as far as rows are distinct and objects are cached by their ids, which every step keeps.

Main results:
* `createDataSource_adds`, `addConnection_processed`, `addConnections_processed` — what one addition, one
  call and a list of them change;
* `addConnection_has`, `addConnections_has` — what they leave of a data source that is there;
* `synchronizeConnections_iff` — a synchronization, spelled out as its two loops;
* `step_consistent`, `consistent_of_run` — stores stay consistent in every run.
-/
import TeiidSyndesis.OpenShift.DeletedConnections

namespace TeiidSyndesis.OpenShift

open TeiidSyndesis.Library TeiidSyndesis.Model

namespace Synchronizer

variable {teiid : Teiid} {env : Env}

/-! ## Stores that are consistent -/

/-- The connection publishes a virtualization. -/
def owned (s : Synchronizer) (id : String) : Bool := s.virtualizations.any (·.2 == some id)

/-- What the database and the cache see to: rows are distinct, and objects are cached by their ids. -/
structure Consistent (teiid : Teiid) (s : Synchronizer) : Prop where
  rows : s.schemas.Pairwise (DistinctRows teiid)
  byId : CachedById s

/-- The name the row of the connection gives it. -/
def rowName (s : Synchronizer) (id : String) : Option String :=
  (s.findSchemaBySourceId id).map (·.name)

/-- The name that is read off the rows is the row's. -/
theorem hasRow_of_rowName {s : Synchronizer} {id name : String} (h : rowName s id = some name) :
    HasRow s id name := by
  obtain ⟨row, hrow, rfl⟩ := Option.map_eq_some_iff.mp h
  exact hasRow_of_find hrow

/-- Two connections have different names by their rows. -/
theorem id_of_rowName {s : Synchronizer} (hs : Consistent teiid s) {id id' name : String}
    (h : rowName s id = some name) (h' : rowName s id' = some name) : id = id' :=
  id_of_hasRow hs.rows (hasRow_of_rowName h) (hasRow_of_rowName h')

/-! ## What adding a connection changes -/

/-- A data source can be created for the connection under the name. -/
def creatable (env : Env) (sds : DefaultSyndesisDataSource) (name : String) : Prop :=
  name ≠ "" ∧ sds.translatorName ≠ "" ∧ env.createsDatasource sds.syndesisConnectionId = true

/-- The data source has been created for the connection; where nothing is deleted its name is new. -/
structure Created (env : Env) (update : Bool) (s t : Synchronizer) (sds : DefaultSyndesisDataSource)
    (entry : String × TeiidDataSource) : Prop where
  id : entry.2.syndesisId = sds.syndesisConnectionId
  /-- the registration accepts the name -/
  creatable : creatable env sds entry.1
  /-- an object that knows its name is registered under it -/
  named : ∀ name, sds.teiidName = some name → entry.1 = name
  /-- one that does not takes the name of its row -/
  row : sds.teiidName = none → HasRow t sds.syndesisConnectionId entry.1
  /-- without `update` nothing that was registered is replaced -/
  fresh : update = false → ∀ old ∈ s.datasources, old.1 ≠ entry.1

/-- Rows and data sources are only added, the latter for the connection. -/
structure Adds (teiid : Teiid) (env : Env) (s t : Synchronizer) (sds : DefaultSyndesisDataSource) :
    Prop where
  rows : ∀ row ∈ s.schemas, row ∈ t.schemas
  kept : ∀ entry ∈ s.datasources, entry ∈ t.datasources
  added : ∀ entry ∈ t.datasources, entry ∈ s.datasources ∨ Created env false s t sds entry
  virtualizations : t.virtualizations = s.virtualizations
  cached : ∀ id, id ≠ sds.syndesisConnectionId → t.cached id = s.cached id
  consistent : Consistent teiid s → Consistent teiid t

/-- A call that fails adds nothing. -/
theorem Adds.refl (s : Synchronizer) (sds : DefaultSyndesisDataSource) : Adds teiid env s s sds :=
  ⟨fun _ h => h, fun _ h => h, fun _ h => .inl h, rfl, fun _ _ => rfl, fun h => h⟩

/-- What two calls add for one connection is added for it. -/
theorem Adds.trans {s t u : Synchronizer} {sds : DefaultSyndesisDataSource} (h : Adds teiid env s t sds)
    (h' : Adds teiid env t u sds) : Adds teiid env s u sds where
  rows row hrow := h'.rows row (h.rows row hrow)
  kept entry hentry := h'.kept entry (h.kept entry hentry)
  added entry hentry := by
    rcases h'.added entry hentry with hold | hnew
    · rcases h.added entry hold with hold | hnew
      · exact .inl hold
      · exact .inr { hnew with row := fun hnone => (hnew.row hnone).mono h'.rows }
    · exact .inr { hnew with fresh := fun hup old hold => hnew.fresh hup old (h.kept old hold) }
  virtualizations := h'.virtualizations.trans h.virtualizations
  cached id hid := (h'.cached id hid).trans (h.cached id hid)
  consistent hs := h'.consistent (h.consistent hs)

/-- Registering adds the one data source of the object, under its name or that of its row. -/
theorem registerDataSource_adds {s : Synchronizer} {sds : DefaultSyndesisDataSource} {name : String}
    (hname : ∀ other, sds.teiidName = some other → name = other)
    (hrow : sds.teiidName = none → HasRow s sds.syndesisConnectionId name) :
    Adds teiid env s (registerDataSource env s sds name) sds := by
  unfold registerDataSource
  split
  · exact Adds.refl s sds
  · rename_i hfree
    split
    · rename_i hcreatable
      refine ⟨fun _ h => h, fun _ h => List.mem_append_left _ h, ?_, rfl, fun _ _ => rfl,
        fun h => ⟨h.rows, h.byId⟩⟩
      intro entry hentry
      rcases List.mem_append.mp hentry with hold | hnew
      · exact .inl hold
      · rw [List.mem_singleton.mp hnew]
        refine .inr ⟨rfl, hcreatable, hname, hrow, ?_⟩
        intro _ old hold heq
        exact hfree (List.any_eq_true.mpr ⟨old, hold, beq_iff_eq.mpr heq⟩)
    · exact Adds.refl s sds

/-- Naming the cached object adds nothing. -/
theorem setTeiidName_adds (s : Synchronizer) (scd : DefaultSyndesisDataSource) (name : String) :
    Adds teiid env s (s.setTeiidName scd name) scd := by
  refine ⟨fun _ h => h, fun _ h => h, fun _ h => .inl h, rfl, ?_, ?_⟩
  · intro id hid
    rw [cached_setTeiidName]
    have hother : ∀ sds : DefaultSyndesisDataSource,
        ¬(id = scd.syndesisConnectionId ∧ sds.object = scd.object) := fun _ h => hid h.1
    simp [hother]
  · intro hs
    refine ⟨hs.rows, ?_⟩
    intro id sds hsds
    rw [cached_setTeiidName] at hsds
    obtain ⟨old, hold, rfl⟩ := Option.map_eq_some_iff.mp hsds
    split <;> exact hs.byId id old hold

/-- A new row is no data source yet. -/
theorem OnlyNamed.adds {s t : Synchronizer} {scd : DefaultSyndesisDataSource} {name : String}
    (h : OnlyNamed teiid s t scd.syndesisConnectionId name) : Adds teiid env s t scd where
  rows := h.rows
  kept _ hentry := h.datasources ▸ hentry
  added _ hentry := .inl (h.datasources ▸ hentry)
  virtualizations := h.virtualizations
  cached id _ := h.cached id
  consistent hs :=
    ⟨h.unique hs.rows, fun id sds hsds => hs.byId id sds ((h.cached id).symm.trans hsds)⟩

/-- Creating a data source adds at most the one of its object. -/
theorem createDataSource_adds (teiid : Teiid) (env : Env) (s : Synchronizer)
    (scd : DefaultSyndesisDataSource) : Adds teiid env s (createDataSource teiid env s scd) scd := by
  unfold createDataSource
  split
  · rename_i name hname
    refine registerDataSource_adds (fun other hother => ?_) fun hnone => ?_
    · rw [hname] at hother
      exact Option.some.inj hother
    · rw [hname] at hnone
      cases hnone
  · rename_i hnone
    split
    · rename_i t name hunique
      have hnames := uniqueName_named hunique
      refine hnames.adds.trans ((setTeiidName_adds t scd name).trans ?_)
      refine registerDataSource_adds (fun other hother => ?_) fun _ => hnames.row
      rw [hnone] at hother
      cases hother
    · exact Adds.refl s scd

/-- The connection has a data source of the name. -/
def Has (s : Synchronizer) (name id : String) : Prop :=
  ∃ entry ∈ s.datasources, entry.1 = name ∧ entry.2.syndesisId = id

/-- Where a data source was deleted its name is free. -/
theorem not_any_deleteDataSource {s : Synchronizer} {sds : DefaultSyndesisDataSource} {name : String}
    (hname : sds.teiidName = some name) :
    ¬(s.deleteDataSource sds).datasources.any (·.1 == name) = true := by
  rw [List.any_eq_true]
  rintro ⟨entry, hmem, heq⟩
  exact (mem_deleteDataSource.mp hmem).2 (by rw [hname, beq_iff_eq.mp heq])

/-- Under a free name, and where the connection can be made, the data source comes in. -/
theorem registerDataSource_creates {s : Synchronizer} {sds : DefaultSyndesisDataSource} {name : String}
    (hfree : ¬s.datasources.any (·.1 == name) = true) (hcreatable : creatable env sds name) :
    (registerDataSource env s sds name).datasources = s.datasources ++
      [(name, ⟨name, sds.translatorName, sds.syndesisConnectionId, sds.properties⟩)] := by
  unfold creatable at hcreatable
  unfold registerDataSource
  rw [if_neg hfree, if_pos hcreatable]

/-- The data source of a named connection is created again where it can be. -/
theorem update_registers {s : Synchronizer} {sds : DefaultSyndesisDataSource} {name : String}
    (hname : sds.teiidName = some name) (hcreatable : creatable env sds name) :
    (createDataSource teiid env (s.deleteDataSource sds) sds).datasources =
      (s.deleteDataSource sds).datasources ++
        [(name, ⟨name, sds.translatorName, sds.syndesisConnectionId, sds.properties⟩)] := by
  simp only [createDataSource, hname]
  exact registerDataSource_creates (not_any_deleteDataSource hname) hcreatable

/-- Where it cannot, no data source of the name is left. -/
theorem update_drops {s : Synchronizer} {sds : DefaultSyndesisDataSource} {name : String}
    (hname : sds.teiidName = some name) (hcreatable : ¬creatable env sds name) :
    (createDataSource teiid env (s.deleteDataSource sds) sds).datasources =
      (s.deleteDataSource sds).datasources := by
  unfold creatable at hcreatable
  simp only [createDataSource, hname, registerDataSource]
  rw [if_neg (not_any_deleteDataSource hname), if_neg hcreatable]

/-- A data source stays, unless an update of its own name replaces it. -/
theorem addConnection_has {s : Synchronizer} {sds : DefaultSyndesisDataSource} {update : Bool}
    {name id : String} (h : Has s name id)
    (hupdate : update = true → owned s sds.syndesisConnectionId = false → sds.teiidName = some name →
      sds.syndesisConnectionId = id ∧ creatable env sds name) :
    Has (addConnection teiid env s sds update) name id := by
  obtain ⟨entry, hmem, rfl, hentry⟩ := h
  unfold addConnection
  split
  · exact ⟨entry, hmem, rfl, hentry⟩
  · rename_i howned
    have howned : owned s sds.syndesisConnectionId = false := Bool.eq_false_iff.mpr howned
    split
    · rename_i hup
      by_cases hname : sds.teiidName = some entry.1
      · obtain ⟨hid, hcreatable⟩ := hupdate hup howned hname
        refine ⟨(entry.1, ⟨entry.1, sds.translatorName, sds.syndesisConnectionId, sds.properties⟩),
          ?_, rfl, hid⟩
        rw [update_registers hname hcreatable]
        exact List.mem_append_right _ (List.mem_singleton_self _)
      · have hkept := mem_deleteDataSource.mpr ⟨hmem, hname⟩
        exact ⟨entry, (createDataSource_adds teiid env _ sds).kept entry hkept, rfl, hentry⟩
    · exact ⟨entry, (createDataSource_adds teiid env s sds).kept entry hmem, rfl, hentry⟩

/-- A connection that publishes no virtualization is created, after a deletion where it is an update. -/
theorem addConnection_of_not_owned {s : Synchronizer} {sds : DefaultSyndesisDataSource}
    (howned : owned s sds.syndesisConnectionId = false) (update : Bool) :
    addConnection teiid env s sds update =
      if update then createDataSource teiid env (s.deleteDataSource sds) sds
      else createDataSource teiid env s sds := by
  unfold addConnection
  exact if_neg (Bool.eq_false_iff.mp howned)

/-- A named connection gets a data source that can be created, unless another has one of the name. -/
theorem addConnection_creates {s : Synchronizer} {sds : DefaultSyndesisDataSource} {update : Bool}
    {name : String} (howned : owned s sds.syndesisConnectionId = false)
    (hname : sds.teiidName = some name) (hcreatable : creatable env sds name)
    (hold : update = false → ∀ old ∈ s.datasources, old.1 = name →
      old.2.syndesisId = sds.syndesisConnectionId) :
    Has (addConnection teiid env s sds update) name sds.syndesisConnectionId := by
  rw [addConnection_of_not_owned howned]
  split
  · refine ⟨(name, ⟨name, sds.translatorName, sds.syndesisConnectionId, sds.properties⟩), ?_, rfl, rfl⟩
    rw [update_registers hname hcreatable]
    exact List.mem_append_right _ (List.mem_singleton_self _)
  · rename_i hup
    simp only [createDataSource, hname]
    by_cases hthere : s.datasources.any (·.1 == name) = true
    · obtain ⟨old, hmem, heq⟩ := List.any_eq_true.mp hthere
      refine ⟨old, ?_, beq_iff_eq.mp heq, hold (Bool.eq_false_iff.mpr hup) old hmem (beq_iff_eq.mp heq)⟩
      unfold registerDataSource
      rw [if_pos hthere]
      exact hmem
    · refine ⟨(name, ⟨name, sds.translatorName, sds.syndesisConnectionId, sds.properties⟩), ?_, rfl,
        rfl⟩
      rw [registerDataSource_creates hthere hcreatable]
      exact List.mem_append_right _ (List.mem_singleton_self _)

/-- What the connections of a list have been added to. -/
structure Processed (teiid : Teiid) (env : Env) (update : Bool) (s t : Synchronizer)
    (sources : List DefaultSyndesisDataSource) : Prop where
  rows : ∀ row ∈ s.schemas, row ∈ t.schemas
  /-- only `update` takes a data source away before it is created again -/
  kept : update = false → ∀ entry ∈ s.datasources, entry ∈ t.datasources
  /-- what is new was created for an object of the list, not for a virtualization's own connection -/
  added : ∀ entry ∈ t.datasources, entry ∈ s.datasources ∨ ∃ sds ∈ sources,
    owned s sds.syndesisConnectionId = false ∧ Created env update s t sds entry
  virtualizations : t.virtualizations = s.virtualizations
  cached : ∀ id, id ∉ sources.map (·.syndesisConnectionId) → t.cached id = s.cached id
  consistent : Consistent teiid s → Consistent teiid t

/-- Adding connections publishes no virtualization. -/
theorem Processed.owned {update : Bool} {s t : Synchronizer} {sources : List DefaultSyndesisDataSource}
    (h : Processed teiid env update s t sources) (id : String) : owned t id = owned s id := by
  unfold Synchronizer.owned
  rw [h.virtualizations]

/-- Deleting a data source leaves the stores consistent. -/
theorem deleteDataSource_consistent {s : Synchronizer} (hs : Consistent teiid s)
    (sds : DefaultSyndesisDataSource) : Consistent teiid (s.deleteDataSource sds) := by
  refine ⟨hs.rows, ?_⟩
  intro id other hother
  rw [cached_deleteDataSource] at hother
  split at hother
  · cases hother
  · exact hs.byId id other hother

/-- One call is a list of one. -/
theorem addConnection_processed (teiid : Teiid) (env : Env) (s : Synchronizer)
    (sds : DefaultSyndesisDataSource) (update : Bool) :
    Processed teiid env update s (addConnection teiid env s sds update) [sds] := by
  unfold addConnection
  split
  · exact ⟨fun _ h => h, fun _ _ h => h, fun _ h => .inl h, rfl, fun _ _ => rfl, fun h => h⟩
  · rename_i howned
    have howned : owned s sds.syndesisConnectionId = false := Bool.eq_false_iff.mpr howned
    have hne : ∀ id, id ∉ [sds].map (·.syndesisConnectionId) → id ≠ sds.syndesisConnectionId :=
      fun id hid heq => hid (heq ▸ List.mem_singleton_self _)
    split
    · rename_i hup
      have hadds := createDataSource_adds teiid env (s.deleteDataSource sds) sds
      refine ⟨hadds.rows, fun hnot => (nomatch hup.symm.trans hnot), ?_, hadds.virtualizations, ?_,
        fun hs => hadds.consistent (deleteDataSource_consistent hs sds)⟩
      · intro entry hentry
        rcases hadds.added entry hentry with hold | hnew
        · exact .inl (mem_deleteDataSource.mp hold).1
        · refine .inr ⟨sds, List.mem_singleton_self _, howned, ?_⟩
          exact { hnew with fresh := fun hnot => (nomatch hup.symm.trans hnot) }
      · intro id hid
        rw [hadds.cached id (hne id hid), cached_deleteDataSource, if_neg (hne id hid)]
    · have hadds := createDataSource_adds teiid env s sds
      refine ⟨hadds.rows, fun _ => hadds.kept, ?_, hadds.virtualizations,
        fun id hid => hadds.cached id (hne id hid), hadds.consistent⟩
      intro entry hentry
      refine (hadds.added entry hentry).imp_right fun hnew => ?_
      exact ⟨sds, List.mem_singleton_self _, howned, { hnew with fresh := fun _ => hnew.fresh rfl }⟩

/-- One call more at the front. -/
theorem Processed.cons {update : Bool} {s t u : Synchronizer} {sds : DefaultSyndesisDataSource}
    {sources : List DefaultSyndesisDataSource} (h : Processed teiid env update s t [sds])
    (h' : Processed teiid env update t u sources) : Processed teiid env update s u (sds :: sources) where
  rows row hrow := h'.rows row (h.rows row hrow)
  kept hup entry hentry := h'.kept hup entry (h.kept hup entry hentry)
  added entry hentry := by
    rcases h'.added entry hentry with hold | ⟨other, hother, howned, hnew⟩
    · rcases h.added entry hold with hold | ⟨other, hother, howned, hnew⟩
      · exact .inl hold
      · refine .inr ⟨other, List.mem_singleton.mp hother ▸ List.mem_cons_self, howned, ?_⟩
        exact { hnew with row := fun hnone => (hnew.row hnone).mono h'.rows }
    · refine .inr ⟨other, List.mem_cons_of_mem _ hother, (h.owned _).symm.trans howned, ?_⟩
      exact { hnew with fresh := fun hup old hold => hnew.fresh hup old (h.kept hup old hold) }
  virtualizations := h'.virtualizations.trans h.virtualizations
  cached id hid := by
    rw [List.map_cons, List.mem_cons, not_or] at hid
    exact (h'.cached id hid.2).trans
      (h.cached id fun hmem => hid.1 (List.mem_singleton.mp hmem))
  consistent hs := h'.consistent (h.consistent hs)

/-- All calls of a list, by induction over it. -/
theorem addConnections_processed (teiid : Teiid) (env : Env) (update : Bool) (s : Synchronizer)
    (sources : List DefaultSyndesisDataSource) :
    Processed teiid env update s
      (sources.foldl (fun s sds => addConnection teiid env s sds update) s) sources := by
  induction sources generalizing s with
  | nil => exact ⟨fun _ h => h, fun _ _ h => h, fun _ h => .inl h, rfl, fun _ _ => rfl, fun h => h⟩
  | cons sds sources ih =>
      exact (addConnection_processed teiid env s sds update).cons
        (ih (addConnection teiid env s sds update))

/-- A data source stays through the additions, or is created again by the one that deletes it. -/
theorem addConnections_has {s : Synchronizer} {update : Bool} {sources : List DefaultSyndesisDataSource}
    {name id : String} (h : Has s name id)
    (hupdate : update = true → ∀ sds ∈ sources, owned s sds.syndesisConnectionId = false →
      sds.teiidName = some name → sds.syndesisConnectionId = id ∧ creatable env sds name) :
    Has (sources.foldl (fun s sds => addConnection teiid env s sds update) s) name id := by
  induction sources generalizing s with
  | nil => exact h
  | cons sds sources ih =>
      have howned : ∀ other, owned (addConnection teiid env s sds update) other = owned s other := by
        intro other
        unfold owned
        rw [(addConnection_processed teiid env s sds update).virtualizations]
      refine ih (addConnection_has h fun hup => hupdate hup sds List.mem_cons_self) ?_
      intro hup other hother hnot
      rw [howned] at hnot
      exact hupdate hup other (List.mem_cons_of_mem _ hother) hnot

/-! ## The stores before the deletions -/

/-- The ids to remove are those that are registered and not listed. -/
theorem mem_removedIds {s : Synchronizer} {connections : List RemoteConnection} {id : String} :
    id ∈ removedIds (getSyndesisSources s connections).1 (getSyndesisSources s connections).2 ↔
      registered s id = true ∧ id ∉ listed connections := by
  obtain ⟨honly, hlists⟩ := getSyndesisSources_effect s connections
  rw [removedIds, List.mem_filter, honly.datasources, hlists.ids, registered_iff]
  simp

/-- A synchronization adds what was built, in some order, and deletes what is not listed, in some order.
-/
theorem synchronizeConnections_iff {s t : Synchronizer} {update : Bool}
    {connections : List RemoteConnection} (hnodup : (s.datasources.map (·.2.syndesisId)).Nodup) :
    synchronizeConnections teiid env s update connections t ↔
      ∃ dataSources removed, dataSources.Perm (getSyndesisSources s connections).2 ∧
        removed.Perm (removedIds (getSyndesisSources s connections).1
          (getSyndesisSources s connections).2) ∧
        t = synchronizeSources teiid env (getSyndesisSources s connections).1 update dataSources
          removed := by
  have hbuilt : ((getSyndesisSources s connections).1.datasources.map (·.2.syndesisId)).Nodup := by
    rw [(getSyndesisSources_effect s connections).1.datasources]
    exact hnodup
  unfold synchronizeConnections
  simp only [if_pos hbuilt]

/-- A connection has one data source. -/
theorem entry_unique {s : Synchronizer} (hnodup : (s.datasources.map (·.2.syndesisId)).Nodup)
    {a b : String × TeiidDataSource} (ha : a ∈ s.datasources) (hb : b ∈ s.datasources)
    (h : a.2.syndesisId = b.2.syndesisId) : a = b :=
  List.inj_on_of_nodup_map hnodup ha hb h

/-- A data source that has been created has the name of the row of its connection. -/
theorem Created.hasRow {s t : Synchronizer} {update : Bool} {sds : DefaultSyndesisDataSource}
    {entry : String × TeiidDataSource} (h : Created env update s t sds entry) (hnamed : Named t sds) :
    HasRow t entry.2.syndesisId entry.1 := by
  rw [h.id]
  cases hname : sds.teiidName with
  | none => exact h.row hname
  | some name =>
      rw [h.named name hname]
      exact hnamed name hname

/-- The connections of a document, or some of them, have been added. -/
structure Prepared (teiid : Teiid) (env : Env) (update : Bool) (s t : Synchronizer)
    (connections : List RemoteConnection) : Prop where
  rows : ∀ row ∈ s.schemas, row ∈ t.schemas
  added : ∀ entry ∈ t.datasources, entry ∈ s.datasources ∨ ∃ item ∈ connections, ∃ sds,
    BuiltOf s item sds ∧ owned s sds.syndesisConnectionId = false ∧ Created env update s t sds entry
  owned : ∀ id, owned t id = owned s id
  cached : ∀ id, id ∉ listed connections → t.cached id = s.cached id
  consistent : Consistent teiid s → Consistent teiid t

/-- Before the deletions the stores are as `Prepared` says. -/
theorem prepared {s : Synchronizer} {update : Bool} {connections : List RemoteConnection}
    {dataSources : List DefaultSyndesisDataSource}
    (hsub : ∀ sds ∈ dataSources, sds ∈ (getSyndesisSources s connections).2) :
    Prepared teiid env update s (dataSources.foldl (fun s sds => addConnection teiid env s sds update)
      (getSyndesisSources s connections).1) connections := by
  obtain ⟨honly, hlists⟩ := getSyndesisSources_effect s connections
  have hprocessed := addConnections_processed teiid env update (getSyndesisSources s connections).1
    dataSources
  have howned : ∀ id, owned (getSyndesisSources s connections).1 id = owned s id := by
    intro id
    unfold owned
    rw [honly.virtualizations]
  refine ⟨fun row hrow => hprocessed.rows row (honly.schemas ▸ hrow), ?_,
    fun id => (hprocessed.owned id).trans (howned id), ?_, ?_⟩
  · intro entry hentry
    rcases hprocessed.added entry hentry with hold | ⟨sds, hsds, hnot, hnew⟩
    · exact .inl (honly.datasources ▸ hold)
    · obtain ⟨item, hitem, hof⟩ := hlists.builtOf sds (hsub sds hsds)
      refine .inr ⟨item, hitem, sds, hof, (howned _).symm.trans hnot, ?_⟩
      exact { hnew with fresh := fun hup old hold => hnew.fresh hup old (honly.datasources ▸ hold) }
  · intro id hid
    refine (hprocessed.cached id fun hmem => hid ?_).trans (honly.cached id hid)
    obtain ⟨sds, hsds, rfl⟩ := List.mem_map.mp hmem
    rw [← hlists.ids]
    exact List.mem_map_of_mem (hsub sds hsds)
  · intro hs
    exact hprocessed.consistent ⟨honly.schemas ▸ hs.rows, honly.byId hs.byId⟩

/-- A data source of a connection with a row is an old one, or it bears the name of the row. -/
theorem Prepared.name_of_row {s t : Synchronizer} {update : Bool} {connections : List RemoteConnection}
    (h : Prepared teiid env update s t connections) (hs : Consistent teiid s)
    {entry : String × TeiidDataSource} (hentry : entry ∈ t.datasources) {name : String}
    (hname : rowName s entry.2.syndesisId = some name) : entry ∈ s.datasources ∨ entry.1 = name := by
  rcases h.added entry hentry with hold | ⟨_, _, sds, hof, _, hnew⟩
  · exact .inl hold
  · have hnamed : Named t sds := fun _ hteiid => (hof.hasRow hteiid).mono h.rows
    exact .inr (name_of_hasRow (h.consistent hs).rows (hnew.hasRow hnamed)
      ((hasRow_of_rowName hname).mono h.rows))

/-! ## The stores of a server -/

/-- Deletions leave the stores consistent. -/
theorem Removed.consistent {s t : Synchronizer} {ids : List String} (h : Removed s t ids)
    (hs : Consistent teiid s) : Consistent teiid t :=
  ⟨hs.rows.sublist h.rows, h.cachedById hs.byId⟩

/-- Operations that change the cache only leave the stores consistent. -/
theorem OnlyCached.consistent {s t : Synchronizer} {ids : List String} (h : OnlyCached s t ids)
    (hs : Consistent teiid s) : Consistent teiid t :=
  ⟨h.schemas ▸ hs.rows, h.byId hs.byId⟩

/-- A created or an updated event leaves the stores consistent. -/
theorem handleAddConnection_consistent {s : Synchronizer} (hs : Consistent teiid s) (id : String)
    (remote : RemoteConnection) (update : Bool) :
    Consistent teiid (handleAddConnection teiid env s id remote update) := by
  unfold handleAddConnection
  split
  · rename_i t sds hget
    refine (addConnection_processed teiid env t sds update).consistent ?_
    unfold getSyndesisDataSourceById at hget
    split at hget
    · cases hget
      exact hs
    · exact (build_effect hget).2.consistent hs
  · exact hs

/-- A synchronization leaves the stores consistent. -/
theorem synchronizeConnections_consistent {s t : Synchronizer} {update : Bool}
    {connections : List RemoteConnection} (hs : Consistent teiid s)
    (h : synchronizeConnections teiid env s update connections t) : Consistent teiid t := by
  by_cases hnodup : (s.datasources.map (·.2.syndesisId)).Nodup
  · obtain ⟨dataSources, removed, hperm, _, rfl⟩ := (synchronizeConnections_iff hnodup).mp h
    have hprepared : Prepared teiid env update s _ connections :=
      @prepared teiid env s update connections dataSources fun _ hsds => hperm.mem_iff.mp hsds
    have hconsistent := hprepared.consistent hs
    exact (handleDeleteConnections_removed hconsistent.byId removed).consistent hconsistent
  · obtain ⟨honly, _⟩ := getSyndesisSources_effect s connections
    unfold synchronizeConnections at h
    simp only [honly.datasources, if_neg hnodup] at h
    exact h ▸ honly.consistent hs

/-- Every step keeps the stores consistent. -/
theorem step_consistent {s t : Synchronizer} {label : SyncLabel} (hs : Consistent teiid s)
    (h : step teiid s label t) : Consistent teiid t := by
  cases label with
  | handleConnectionEvent action id remote env =>
      obtain rfl : t = handleConnectionEvent teiid env s action id remote := h
      cases action with
      | created => exact handleAddConnection_consistent hs id remote false
      | updated => exact handleAddConnection_consistent hs id remote true
      | deleted => exact (handleDeleteConnection_removed hs.byId id).consistent hs
  | synchronizeConnections update connections env => exact synchronizeConnections_consistent hs h
  | virtualizations rows =>
      obtain rfl := h
      exact ⟨hs.rows, hs.byId⟩

/-- Whatever a server has done, its stores are consistent. -/
theorem consistent_of_run {s₀ s : Synchronizer} {tr : List (Synchronizer × SyncLabel)}
    (hstarted : started teiid s₀) (hrun : (synchronizerSystem teiid).Run s₀ tr s) :
    Consistent teiid s := by
  have hinit : ∀ s, (synchronizerSystem teiid).init s → Consistent teiid s :=
    fun _ hinit => ⟨hinit.2.2, (linked_started hinit).cachedById⟩
  have hstep : ∀ s label t, Consistent teiid s → (synchronizerSystem teiid).step s label t →
      Consistent teiid t := fun _ _ _ hs hst => step_consistent hs hst
  exact hrun.invariant_of_all hinit hstep hstarted

end Synchronizer

end TeiidSyndesis.OpenShift
