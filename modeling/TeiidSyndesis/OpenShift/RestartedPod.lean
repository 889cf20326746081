/-
# TeiidSyndesis.OpenShift.RestartedPod — a restart of the pod changes no data source.

A pod that restarts has lost its data sources and its cache; the rows are in the database.  When the event
stream is connected again, a synchronization without `update` adds the connections that Syndesis lists.
None of them has a data source then, so nothing need be deleted first, and the result is the one of a
synchronization with `update`: every connection gets its data source back, under the name of its row.

Main results:
* `SameStores` — stores that differ in the cache alone, and the operations that keep them so;
* `addConnection_sameStores`, `addConnections_sameStores` — without data sources an update is an addition;
* `synchronizesAll_started` — so the first synchronization of a pod is one with update;
* `restarted_restores` — and gives every connection that is listed the data source it had.
-/
import TeiidSyndesis.OpenShift.SynchronizedConnections

namespace TeiidSyndesis.OpenShift

open TeiidSyndesis.Library TeiidSyndesis.Model

namespace Synchronizer

variable {teiid : Teiid} {env : Env}

/-- What a restart leaves. -/
def restarted (s : Synchronizer) : Synchronizer := { s with datasources := [], syndesisSources := [] }

/-- A pod that restarts is started: it has the rows alone. -/
theorem started_restarted {s : Synchronizer} (hs : Linked teiid s) : started teiid s.restarted :=
  ⟨rfl, rfl, hs.unique⟩

/-! ## Stores that differ in their caches -/

/-- The stores are the same but for the cache. -/
def SameStores (s t : Synchronizer) : Prop :=
  ∃ syndesisSources, t = { s with syndesisSources := syndesisSources }

/-- Stores are the same as themselves. -/
theorem SameStores.refl (s : Synchronizer) : SameStores s s := ⟨s.syndesisSources, rfl⟩

/-- Registering does not look at the cache. -/
theorem registerDataSource_sameStores {s t : Synchronizer} (h : SameStores s t)
    (teiidDS : DefaultSyndesisDataSource) (teiidName : String) :
    SameStores (registerDataSource env s teiidDS teiidName)
      (registerDataSource env t teiidDS teiidName) := by
  obtain ⟨cache, rfl⟩ := h
  refine ⟨cache, ?_⟩
  unfold registerDataSource
  dsimp only
  split
  · rfl
  · split
    · rfl
    · rfl

/-- Names are chosen by the rows. -/
theorem getUniqueKomodoName_cache (s : Synchronizer)
    (cache : List (String × DefaultSyndesisDataSource)) (scd : DefaultSyndesisDataSource)
    (val : BitVec 32) :
    (getUniqueKomodoName teiid { s with syndesisSources := cache } scd val).toOption =
      (getUniqueKomodoName teiid s scd val).toOption.map fun named =>
        ({ named.1 with syndesisSources := cache }, named.2) := by
  unfold getUniqueKomodoName
  have hfind : findSchemaBySourceId { s with syndesisSources := cache } scd.syndesisConnectionId =
      s.findSchemaBySourceId scd.syndesisConnectionId := rfl
  rw [hfind]
  cases s.findSchemaBySourceId scd.syndesisConnectionId with
  | some row => rfl
  | none =>
      dsimp only
      have hname : nameToUse teiid { s with syndesisSources := cache } scd.syndesisName val =
          nameToUse teiid s scd.syndesisName val := rfl
      rw [hname]
      unfold createSchema
      have huse : (isNameInUse teiid { s with syndesisSources := cache }
            (nameToUse teiid s scd.syndesisName val) ||
          isSourceIdInUse { s with syndesisSources := cache } scd.syndesisConnectionId) =
          (isNameInUse teiid s (nameToUse teiid s scd.syndesisName val) ||
            isSourceIdInUse s scd.syndesisConnectionId) := rfl
      rw [huse]
      split
      · rfl
      · rfl

/-- Drawing a name does not look at the cache. -/
theorem uniqueName_cache (s : Synchronizer) (cache : List (String × DefaultSyndesisDataSource))
    (scd : DefaultSyndesisDataSource) :
    uniqueName teiid env { s with syndesisSources := cache } scd =
      (uniqueName teiid env s scd).map fun named =>
        ({ named.1 with syndesisSources := cache }, named.2) := by
  unfold uniqueName
  rw [List.map_findSome?]
  congr 1
  funext attempt
  exact getUniqueKomodoName_cache s cache scd _

/-- Creating a data source does not look at the cache, nor does its success depend on it. -/
theorem createDataSource_sameStores {s t : Synchronizer} (h : SameStores s t)
    (scd : DefaultSyndesisDataSource) :
    SameStores (createDataSource teiid env s scd) (createDataSource teiid env t scd) ∧
      creates teiid env s scd = creates teiid env t scd := by
  obtain ⟨cache, rfl⟩ := h
  unfold createDataSource creates
  cases scd.teiidName with
  | some name => exact ⟨registerDataSource_sameStores ⟨cache, rfl⟩ scd name, rfl⟩
  | none =>
      dsimp only
      rw [uniqueName_cache s cache]
      cases uniqueName teiid env s scd with
      | none => exact ⟨⟨cache, rfl⟩, rfl⟩
      | some named =>
          obtain ⟨named, name⟩ := named
          exact ⟨registerDataSource_sameStores ⟨_, rfl⟩ scd name, rfl⟩

/-- No data source is there under the name the object bears. -/
def Nameless (s : Synchronizer) (sds : DefaultSyndesisDataSource) : Prop :=
  ∀ name, sds.teiidName = some name → ∀ entry ∈ s.datasources, entry.1 ≠ name

/-- Where there is no data source, deleting it changes the cache alone. -/
theorem deleteDataSource_sameStores {s : Synchronizer} {sds : DefaultSyndesisDataSource}
    (h : Nameless s sds) : SameStores s (s.deleteDataSource sds) := by
  refine ⟨s.syndesisSources.filter (·.1 ≠ sds.syndesisConnectionId), ?_⟩
  unfold deleteDataSource
  cases hname : sds.teiidName with
  | none => rfl
  | some name =>
      have hkept : s.datasources.filter (·.1 ≠ name) = s.datasources :=
        List.filter_eq_self.mpr fun entry hentry => decide_eq_true (h name hname entry hentry)
      dsimp only
      rw [hkept]

/-- Stores that are the same as the same are the same. -/
theorem SameStores.trans {s t u : Synchronizer} (h : SameStores s t) (h' : SameStores t u) :
    SameStores s u := by
  obtain ⟨cache, rfl⟩ := h
  obtain ⟨cache', rfl⟩ := h'
  exact ⟨cache', rfl⟩

/-- Where there is nothing to delete, a connection is added with an update as without. -/
theorem addConnection_sameStores {s t : Synchronizer} (h : SameStores s t)
    {sds : DefaultSyndesisDataSource} (hnameless : Nameless t sds) :
    SameStores (addConnection teiid env s sds false) (addConnection teiid env t sds true) ∧
      adds teiid env s sds false = adds teiid env t sds true := by
  have howned : owned s sds.syndesisConnectionId = owned t sds.syndesisConnectionId := by
    obtain ⟨cache, rfl⟩ := h
    rfl
  obtain ⟨hcreated, hcreates⟩ := @createDataSource_sameStores teiid env _ _
    (h.trans (deleteDataSource_sameStores hnameless)) sds
  constructor
  · cases hown : owned t sds.syndesisConnectionId with
    | true =>
        rw [addConnection_of_owned hown, addConnection_of_owned (howned.trans hown)]
        exact h
    | false =>
        rw [addConnection_of_not_owned hown, addConnection_of_not_owned (howned.trans hown)]
        exact hcreated
  · unfold adds
    rw [howned]
    simp only [Bool.false_eq_true, if_false, if_true]
    rw [hcreates]

/-! ## All connections of a list -/

/-- A connection without a data source has none under its name. -/
theorem nameless_of_not_registered {s : Synchronizer} (hs : Linked teiid s)
    {sds : DefaultSyndesisDataSource} (hnamed : Named s sds)
    (h : registered s sds.syndesisConnectionId = false) : Nameless s sds := by
  rintro name hname entry hentry rfl
  have hid := id_of_hasRow hs.unique (hnamed _ hname) (hs.registered entry hentry)
  rw [registered_iff.mpr ⟨entry, hentry, hid.symm⟩] at h
  cases h

/-- A list of updates is a list of additions, where none of its connections has a data source. -/
theorem addConnections_sameStores {s t : Synchronizer} {sources : List DefaultSyndesisDataSource}
    (h : SameStores s t) (ht : Linked teiid t)
    (hnodup : (sources.map (·.syndesisConnectionId)).Nodup) (hnamed : ∀ sds ∈ sources, Named t sds)
    (hfresh : ∀ sds ∈ sources, registered t sds.syndesisConnectionId = false) :
    SameStores (sources.foldl (fun s sds => addConnection teiid env s sds false) s)
        (sources.foldl (fun s sds => addConnection teiid env s sds true) t) ∧
      addsAll teiid env false s sources = addsAll teiid env true t sources := by
  -- on the list: no connection of it is registered, so nothing is deleted before it is created
  induction sources generalizing s t with
  | nil => exact ⟨h, rfl⟩
  | cons sds sources ih =>
      obtain ⟨hnew, hrest⟩ := List.nodup_cons.mp hnodup
      have hnamedFirst := hnamed sds List.mem_cons_self
      have hnameless := nameless_of_not_registered ht hnamedFirst (hfresh sds List.mem_cons_self)
      obtain ⟨hsame, hadds⟩ := @addConnection_sameStores teiid env _ _ h _ hnameless
      have hadded : Added teiid t (addConnection teiid env t sds true) sds.syndesisConnectionId :=
        addConnection_added ht hnamedFirst true
      have hnamedRest : ∀ other ∈ sources, Named (addConnection teiid env t sds true) other :=
        fun other hother name hname =>
          (hnamed other (List.mem_cons_of_mem _ hother) name hname).mono hadded.rows
      have hfreshRest : ∀ other ∈ sources,
          registered (addConnection teiid env t sds true) other.syndesisConnectionId = false := by
        intro other hother
        have hne : other.syndesisConnectionId ≠ sds.syndesisConnectionId :=
          fun heq => hnew (List.mem_map.mpr ⟨other, hother, heq⟩)
        rw [Bool.eq_false_iff]
        intro hregistered
        obtain ⟨entry, hentry, hid⟩ := registered_iff.mp hregistered
        have hold := ((hadded.same _ hne).datasources entry hid).mp hentry
        have hnot := hfresh other (List.mem_cons_of_mem _ hother)
        rw [registered_iff.mpr ⟨entry, hold, hid⟩] at hnot
        cases hnot
      obtain ⟨hlast, haddsRest⟩ := ih hsame hadded.linked hrest hnamedRest hfreshRest
      refine ⟨hlast, ?_⟩
      unfold addsAll
      rw [hadds, haddsRest]

/-! ## The first synchronization of a pod -/

/-- On a pod without data sources a synchronization leaves the data sources and the rows that one with
update would leave. -/
theorem synchronizesAll_started {s u : Synchronizer} {connections : List RemoteConnection}
    (hs : started teiid s) (hnodup : (listed connections).Nodup)
    (h : synchronizesAll teiid env s false connections u) :
    ∃ t, synchronizesAll teiid env s true connections t ∧ SameStores u t := by
  obtain ⟨hbuilds, hids, dataSources, removed, hperm, hremoved, hadds, rfl⟩ := h
  have hlinked := linked_started hs
  have hbuilt := getSyndesisSources_built hlinked connections
  have hnone : (getSyndesisSources s connections).1.datasources = [] :=
    (getSyndesisSources_effect s connections).1.datasources.trans hs.1
  have hnothing : removedIds (getSyndesisSources s connections).1
      (getSyndesisSources s connections).2 = [] := by
    unfold removedIds
    rw [hnone]
    rfl
  rw [hnothing] at hremoved
  obtain rfl := List.Perm.eq_nil hremoved
  have hidsNodup : (dataSources.map (·.syndesisConnectionId)).Nodup := by
    rw [(hperm.map _).nodup_iff, hbuilt.sourceIds]
    exact hnodup
  obtain ⟨hsame, haddsSame⟩ := @addConnections_sameStores teiid env _ _ _
    (SameStores.refl _) hbuilt.linked hidsNodup
    (fun sds hmem => hbuilt.named_of_mem (hperm.mem_iff.mp hmem))
    (fun sds _ => by
      rw [Bool.eq_false_iff]
      intro hregistered
      obtain ⟨entry, hentry, _⟩ := registered_iff.mp hregistered
      rw [hnone] at hentry
      cases hentry)
  refine ⟨_, ⟨hbuilds, hids, dataSources, [], hperm, ?_, haddsSame ▸ hadds, rfl⟩, hsame⟩
  rw [hnothing]

/-- After any run in which no call fails and a synchronization with update, a pod that restarts and
synchronizes with the same document has the data sources of the listed connections again, each under its
name, and the same rows. -/
theorem restarted_restores {s₀ s t u : Synchronizer} {tr : List (Synchronizer × SyncLabel)} {env' : Env}
    {connections : List RemoteConnection} (hstarted : started teiid s₀)
    (hrun : (unfailingSystem teiid).Run s₀ tr s) (hnodup : (listed connections).Nodup)
    (hstep : (unfailingSystem teiid).step s (.synchronizeConnections true connections env) t)
    (hrestart : (unfailingSystem teiid).step t.restarted
      (.synchronizeConnections false connections env') u) :
    (∀ entry, entry ∈ u.datasources ↔
        entry ∈ t.datasources ∧ entry.2.syndesisId ∈ listed connections) ∧
      ∀ row, row ∈ u.schemas ↔ row ∈ t.schemas := by
  have hs := steady_of_run hstarted hrun
  have ht := synchronizesAll_steady hs hstep
  -- what the pass before the restart and the first one after it leave, read by one theorem
  have hfirst := synchronizesAll_synchronized hs hnodup hstep
  have hfresh := started_restarted ht.linked
  obtain ⟨v, hupdate, cache, rfl⟩ := synchronizesAll_started hfresh hnodup hrestart
  have hsteady := steady_of_run hfresh (.nil _)
  have hv := (synchronizesAll_steady hsteady hupdate).linked
  have hsecond := synchronizesAll_synchronized hsteady hnodup hupdate
  -- no data source is registered after the restart, so the second pass deletes no row
  have hkept : ∀ row ∈ t.schemas, row ∈ u.schemas := by
    refine fun row hrow => hsecond.kept row hrow fun _ hregistered => ?_
    obtain ⟨entry, hentry, _⟩ := registered_iff.mp hregistered
    cases hentry
  -- a row it would add is that of a listed source, which has one already
  have hadded : ∀ row ∈ u.schemas, row ∈ t.schemas := by
    intro row hrow
    rcases hsecond.added row hrow with hold | ⟨hlisted, howned⟩
    · exact hold
    · obtain ⟨name, old, hold, hsource, _⟩ :=
        hfirst.provided _ hlisted ((hfirst.owners _).symm.trans howned)
      rw [← row_unique hv.unique (hkept old hold) hrow (.inr hsource)]
      exact hold
  refine ⟨fun entry => ?_, fun row => ⟨hadded row, hkept row⟩⟩
  have hentries := hsecond.datasources entry
  constructor
  · intro hentry
    rcases hentries.mp hentry with ⟨item, hitem, hprovides⟩ | ⟨hold, _⟩
    · refine ⟨(hfirst.datasources entry).mpr (.inl ⟨item, hitem, ?_⟩),
        hprovides.mem_listed hrestart.1 hitem⟩
      exact { hprovides with
        unowned := (hfirst.owners _).symm.trans hprovides.unowned
        row := hprovides.row.mono hadded }
    · cases hold
  · rintro ⟨hentry, hlisted⟩
    rcases (hfirst.datasources entry).mp hentry with ⟨item, hitem, hprovides⟩ | ⟨_, hunlisted, _⟩
    · refine hentries.mpr (.inl ⟨item, hitem, ?_⟩)
      exact { hprovides with
        unowned := (hfirst.owners _).trans hprovides.unowned
        row := hprovides.row.mono hkept }
    · exact absurd hlisted hunlisted

/-- The stores after a restart and a first synchronization with the two connections. -/
def afterRestart (s : Synchronizer) : Synchronizer :=
  synchronizeSources (.ascii fun _ => { schema := { name := "parsed" } })
    { createsDatasource := fun _ => true, nextInt := fun _ _ => 1 }
    (getSyndesisSources s.restarted relisting).1 false (getSyndesisSources s.restarted relisting).2
    (removedIds (getSyndesisSources s.restarted relisting).1 (getSyndesisSources s.restarted relisting).2)

theorem restarted_restores_relisting :
    (∀ entry, entry ∈ (afterRestart (afterRelisting (afterHolding [(.created, "a")]))).datasources ↔
        entry ∈ (afterRelisting (afterHolding [(.created, "a")])).datasources ∧
          entry.2.syndesisId ∈ listed relisting) ∧
      ∀ row, row ∈ (afterRestart (afterRelisting (afterHolding [(.created, "a")]))).schemas ↔
        row ∈ (afterRelisting (afterHolding [(.created, "a")])).schemas := by
  have hrun : (unfailingSystem (.ascii fun _ => { schema := { name := "parsed" } })).Run {}
      [({}, eventHolding .created "a")] (afterHolding [(.created, "a")]) :=
    .cons ⟨by decide, rfl⟩ (.nil _)
  exact @restarted_restores _ { createsDatasource := fun _ => true, nextInt := fun _ _ => 0 } _ _ _ _ _
    { createsDatasource := fun _ => true, nextInt := fun _ _ => 1 } relisting
    ⟨rfl, rfl, List.Pairwise.nil⟩ hrun (by decide)
    ⟨by decide, by decide, _, _, .refl _, .refl _, by decide, rfl⟩
    ⟨by decide, by decide, _, _, .refl _, .refl _, by decide, rfl⟩

end Synchronizer

end TeiidSyndesis.OpenShift
