/-
# TeiidSyndesis.OpenShift.UpdatedConnections — which properties an update registers.

An updated event asks the cache for the connection before it asks Syndesis, and creates the data source
from what it was given.  The cache is filled by the event or the synchronization that first sees a
connection and emptied by an update, so the first update after it works with the properties of then.
Runs in which no call fails keep the stores linked, and every cached object named.

Main results:
* `addConnections_pending`, `getSyndesisSources_pending` — cached objects without a name are those that are
  still to be added;
* `unfailingStep_steady`, `steady_of_run` — so where no call fails, the stores stay steady;
* `addConnection_registers` — what an update registers;
* `updated_createdFrom_iff` — it is what Syndesis holds exactly if the cache holds nothing else;
* `updated_registers_cached` — an update that registers the properties of an earlier time.
-/
import TeiidSyndesis.Library.Lists
import TeiidSyndesis.OpenShift.AddedConnections

namespace TeiidSyndesis.OpenShift

open TeiidSyndesis.Library TeiidSyndesis.Model

namespace Synchronizer

variable {teiid : Teiid} {env : Env}

/-! ## Steps in which no call fails -/

/-- `registerDataSource` raises nothing: the name is taken, or the data source can be created. -/
def registers (env : Env) (s : Synchronizer) (teiidDS : DefaultSyndesisDataSource)
    (teiidName : String) : Bool :=
  s.datasources.any (·.1 == teiidName) ||
    decide (teiidName ≠ "" ∧ teiidDS.translatorName ≠ "" ∧
      env.createsDatasource teiidDS.syndesisConnectionId = true)

/-- `createDataSource` raises nothing. -/
def creates (teiid : Teiid) (env : Env) (s : Synchronizer) (scd : DefaultSyndesisDataSource) : Bool :=
  match scd.teiidName with
  | some name => registers env s scd name
  | none =>
      match uniqueName teiid env s scd with
      | some (t, name) => registers env t scd name
      | none => false

/-- `addConnection` has nothing to log. -/
def adds (teiid : Teiid) (env : Env) (s : Synchronizer) (sds : DefaultSyndesisDataSource)
    (update : Bool) : Bool :=
  owned s sds.syndesisConnectionId ||
    creates teiid env (if update then s.deleteDataSource sds else s) sds

/-- Nothing is logged for any connection of the list. -/
def addsAll (teiid : Teiid) (env : Env) (update : Bool) : Synchronizer →
    List DefaultSyndesisDataSource → Bool
  | _, [] => true
  | s, sds :: rest =>
      adds teiid env s sds update && addsAll teiid env update (addConnection teiid env s sds update) rest

/-- `buildSyndesisDataSource` raises nothing; it may find the connection not supported. -/
def builds (item : RemoteConnection) : Bool :=
  item.translatorName.isNone || (item.id.isSome && item.decrypts)

/-- The event is handled without a failing call. -/
def handles (teiid : Teiid) (env : Env) (s : Synchronizer) (action : EventAction) (id : String)
    (remote : RemoteConnection) : Bool :=
  match action with
  | .deleted => true
  | .created | .updated =>
      match getSyndesisDataSourceById s id remote with
      | .ok (t, some sds) => adds teiid env t sds (action == .updated)
      | .ok (_, none) => true
      | .error _ => false

/-- The synchronization in which no call fails. -/
def synchronizesAll (teiid : Teiid) (env : Env) (s : Synchronizer) (update : Bool)
    (connections : List RemoteConnection) (t : Synchronizer) : Prop :=
  let (built, sources) := getSyndesisSources s connections
  connections.all builds ∧ (built.datasources.map (·.2.syndesisId)).Nodup ∧
    ∃ dataSources removed, dataSources.Perm sources ∧ removed.Perm (removedIds built sources) ∧
      addsAll teiid env update built dataSources ∧
      t = synchronizeSources teiid env built update dataSources removed

/-- The events and the synchronizations, handled without a failing call. -/
def unfailingStep (teiid : Teiid) (s : Synchronizer) (label : SyncLabel) (t : Synchronizer) : Prop :=
  match label with
  | .handleConnectionEvent action id remote env =>
      handles teiid env s action id remote ∧ t = handleConnectionEvent teiid env s action id remote
  | .synchronizeConnections update connections env =>
      synchronizesAll teiid env s update connections t
  | .virtualizations _ => False

/-- Runs of the synchronizer in which no call fails. -/
def unfailingSystem (teiid : Teiid) : System Synchronizer SyncLabel where
  init := started teiid
  step := unfailingStep teiid

/-- They are steps of the synchronizer. -/
theorem step_of_unfailing {s t : Synchronizer} {label : SyncLabel}
    (h : unfailingStep teiid s label t) : step teiid s label t := by
  cases label with
  | handleConnectionEvent action id remote env => exact h.2
  | synchronizeConnections update connections env =>
      obtain ⟨_, hnodup, dataSources, removed, hsources, hremoved, _, ht⟩ := h
      show synchronizeConnections teiid env s update connections t
      unfold synchronizeConnections
      simp only [if_pos hnodup]
      exact ⟨dataSources, removed, hsources, hremoved, ht⟩
  | virtualizations rows => exact h.elim

/-- The data source of the connection was created from the properties. -/
def CreatedFrom (s : Synchronizer) (id : String) (properties : List (String × String)) : Prop :=
  registered s id = true ∧
    ∀ entry ∈ s.datasources, entry.2.syndesisId = id → entry.2.properties = properties

/-! ## Cached objects that are still to be named -/

/-- An object in the cache has a name, or publishes a virtualization, or is to be added still. -/
def Pending (s : Synchronizer) (rest : List DefaultSyndesisDataSource) : Prop :=
  ∀ id sds, s.cached id = some sds → owned s id = false → sds.teiidName = none →
    ∃ p ∈ rest, p.syndesisConnectionId = id ∧ p.object = sds.object ∧ p.teiidName = none

/-- More may be pending than is. -/
theorem Pending.mono {s : Synchronizer} {rest rest' : List DefaultSyndesisDataSource}
    (h : Pending s rest) (hsub : ∀ p ∈ rest, p ∈ rest') : Pending s rest' := by
  intro id sds hsds howned hnone
  obtain ⟨p, hp, hrest⟩ := h id sds hsds howned hnone
  exact ⟨p, hsub p hp, hrest⟩

/-- Who publishes what depends on the virtualizations alone. -/
theorem owned_congr {s t : Synchronizer} (h : t.virtualizations = s.virtualizations) (id : String) :
    owned t id = owned s id := by
  unfold owned
  rw [h]

/-- Registering does not touch the cache. -/
theorem cached_registerDataSource (s : Synchronizer) (teiidDS : DefaultSyndesisDataSource)
    (name id : String) : (registerDataSource env s teiidDS name).cached id = s.cached id := by
  unfold registerDataSource
  split
  · rfl
  · split <;> rfl

/-- What the cache holds of a connection whose data source is created is named with it. -/
theorem cached_createDataSource {s : Synchronizer} {scd : DefaultSyndesisDataSource}
    (hcreates : creates teiid env s scd = true) {id : String} {sds : DefaultSyndesisDataSource}
    (hsds : (createDataSource teiid env s scd).cached id = some sds) (hnone : sds.teiidName = none) :
    s.cached id = some sds ∧
      ¬(id = scd.syndesisConnectionId ∧ sds.object = scd.object ∧ scd.teiidName = none) := by
  unfold createDataSource at hsds
  unfold creates at hcreates
  split at hsds
  · rename_i name hname
    rw [cached_registerDataSource] at hsds
    refine ⟨hsds, fun h => ?_⟩
    rw [h.2.2] at hname
    cases hname
  · rename_i hscd
    split at hsds
    · rename_i t name hunique
      rw [cached_registerDataSource, cached_setTeiidName, (uniqueName_named hunique).cached] at hsds
      obtain ⟨old, hold, hnamed⟩ := Option.map_eq_some_iff.mp hsds
      split at hnamed
      · rw [← hnamed] at hnone
        cases hnone
      · rename_i hother
        obtain rfl := hnamed
        exact ⟨hold, fun h => hother ⟨h.1, h.2.1⟩⟩
    · rename_i hunique
      simp [hscd, hunique] at hcreates

/-- A connection that has been added is no longer awaited. -/
theorem addConnection_pending {s : Synchronizer} {sds : DefaultSyndesisDataSource} {update : Bool}
    {rest : List DefaultSyndesisDataSource} (hs : Pending s (sds :: rest))
    (hadds : adds teiid env s sds update = true) :
    Pending (addConnection teiid env s sds update) rest := by
  intro id old hold howned hnone
  rw [owned_congr (addConnection_processed teiid env s sds update).virtualizations] at howned
  -- what is found was there before, and it is not the one that has been added
  have hbefore : s.cached id = some old ∧
      ¬(id = sds.syndesisConnectionId ∧ old.object = sds.object ∧ sds.teiidName = none) := by
    unfold addConnection at hold
    unfold adds at hadds
    split at hold
    · rename_i hown
      refine ⟨hold, fun h => ?_⟩
      rw [h.1] at howned
      exact absurd hown (Bool.eq_false_iff.mp howned)
    · rename_i hown
      have hcreates := (Bool.or_eq_true_iff.mp hadds).resolve_left hown
      split at hold
      · rename_i hup
        rw [if_pos hup] at hcreates
        obtain ⟨hdeleted, hother⟩ := cached_createDataSource hcreates hold hnone
        rw [cached_deleteDataSource] at hdeleted
        split at hdeleted
        · cases hdeleted
        · exact ⟨hdeleted, hother⟩
      · rename_i hup
        rw [if_neg hup] at hcreates
        exact cached_createDataSource hcreates hold hnone
  obtain ⟨p, hp, hid, hobject, hpnone⟩ := hs id old hbefore.1 howned hnone
  rcases List.mem_cons.mp hp with rfl | hp
  · exact absurd ⟨hid.symm, hobject.symm, hpnone⟩ hbefore.2
  · exact ⟨p, hp, hid, hobject, hpnone⟩

/-- When a list has been added nothing of it is pending. -/
theorem addConnections_pending {s : Synchronizer} {update : Bool}
    {sources : List DefaultSyndesisDataSource} (hs : Pending s sources)
    (hadds : addsAll teiid env update s sources = true) :
    Pending (sources.foldl (fun s sds => addConnection teiid env s sds update) s) [] := by
  induction sources generalizing s with
  | nil => exact hs
  | cons sds sources ih =>
      obtain ⟨hfirst, hrest⟩ := Bool.and_eq_true_iff.mp hadds
      exact ih (addConnection_pending hs hfirst) hrest

/-- An object that is built waits to be added. -/
theorem build_pending {s t : Synchronizer} {item : RemoteConnection} {dsd : DefaultSyndesisDataSource}
    {rest : List DefaultSyndesisDataSource} (hs : Pending s rest)
    (h : buildSyndesisDataSource s item = .ok (t, some dsd)) : Pending t (dsd :: rest) := by
  intro id sds hsds howned hnone
  rw [owned_congr (build_effect h).2.virtualizations] at howned
  rcases build_cached h hsds with hold | ⟨rfl, hid⟩
  · obtain ⟨p, hp, hmatch⟩ := hs id sds hold howned hnone
    exact ⟨p, List.mem_cons_of_mem _ hp, hmatch⟩
  · exact ⟨sds, List.mem_cons_self, hid, rfl, hnone⟩

/-- What has been built is still to be added. -/
theorem getSyndesisSources_pending {s : Synchronizer} {rest : List DefaultSyndesisDataSource}
    (hs : Pending s rest) (connections : List RemoteConnection) :
    Pending (getSyndesisSources s connections).1 ((getSyndesisSources s connections).2 ++ rest) := by
  induction connections generalizing s rest with
  | nil => exact hs
  | cons item items ih =>
      unfold getSyndesisSources
      split
      · rename_i t dsd hbuild
        refine (ih (build_pending hs hbuild)).mono ?_
        intro p hp
        simp only [List.mem_append, List.mem_cons] at hp ⊢
        tauto
      · exact ih hs

/-! ## What every such run keeps -/

/-- No connection that publishes a virtualization has a data source. -/
def Unowned (s : Synchronizer) : Prop :=
  ∀ entry ∈ s.datasources, owned s entry.2.syndesisId = false

/-- The stores are linked, and each cached object is named that is not of such a connection. -/
structure Steady (teiid : Teiid) (s : Synchronizer) : Prop where
  linked : Linked teiid s
  named : Pending s []
  unowned : Unowned s

/-- Filling the cache registers nothing. -/
theorem OnlyCached.unowned {s t : Synchronizer} {ids : List String} (h : OnlyCached s t ids)
    (hs : Unowned s) : Unowned t := by
  intro entry hentry
  rw [owned_congr h.virtualizations]
  exact hs entry (h.datasources ▸ hentry)

/-- Adding a connection that publishes no virtualization registers none that does. -/
theorem Adds.unowned {s t : Synchronizer} {sds : DefaultSyndesisDataSource} (h : Adds teiid env s t sds)
    (howned : owned s sds.syndesisConnectionId = false) (hs : Unowned s) : Unowned t := by
  intro entry hentry
  rw [owned_congr h.virtualizations]
  rcases h.added entry hentry with hold | hnew
  · exact hs entry hold
  · rw [hnew.id]
    exact howned

/-- A connection that publishes a virtualization is not added. -/
theorem addConnection_unowned (teiid : Teiid) (env : Env) {s : Synchronizer}
    (sds : DefaultSyndesisDataSource) (update : Bool) (hs : Unowned s) :
    Unowned (addConnection teiid env s sds update) := by
  unfold addConnection
  split
  · exact hs
  · rename_i howned
    have howned : owned s sds.syndesisConnectionId = false := Bool.eq_false_iff.mpr howned
    split
    · exact (createDataSource_adds teiid env (s.deleteDataSource sds) sds).unowned howned
        fun entry hentry => hs entry (mem_deleteDataSource.mp hentry).1
    · exact (createDataSource_adds teiid env s sds).unowned howned hs

/-- A connection that has a data source is found in the cache by its name, or not at all. -/
theorem Steady.deletable {s : Synchronizer} (hs : Steady teiid s) {id : String}
    {sds : DefaultSyndesisDataSource} (hsds : s.cached id = some sds) :
    deletable s id = true := by
  unfold Synchronizer.deletable
  rw [hsds]
  simp only [Bool.or_eq_true, Option.isSome_iff_ne_none, Bool.not_eq_true', Bool.eq_false_iff]
  by_cases hregistered : registered s id = true
  · obtain ⟨entry, hentry, rfl⟩ := registered_iff.mp hregistered
    refine .inl fun hnone => ?_
    obtain ⟨p, hp, _⟩ := hs.named _ sds hsds (hs.unowned entry hentry) hnone
    exact List.not_mem_nil hp
  · exact .inr hregistered

/-- A deletion keeps the stores steady. -/
theorem handleDeleteConnection_steady {s : Synchronizer} (hs : Steady teiid s) (id : String) :
    Steady teiid (handleDeleteConnection s id) := by
  cases hcached : s.cached id with
  | none =>
      unfold handleDeleteConnection
      rw [hcached]
      exact hs
  | some sds =>
      have hremoved : Removed s (handleDeleteConnection s id) [id] :=
        handleDeleteConnection_removed hs.linked.cachedById id
      have hvirtualizations :
          (handleDeleteConnection s id).virtualizations = s.virtualizations := by
        unfold handleDeleteConnection
        rw [hcached]
        rfl
      refine ⟨(handleDeleteConnection_deletes hs.linked id).2 (hs.deletable hcached), ?_, ?_⟩
      · intro other old hold howned hnone
        rw [owned_congr hvirtualizations] at howned
        rw [hremoved.cached] at hold
        split at hold
        · cases hold
        · exact hs.named other old hold howned hnone
      · intro entry hentry
        rw [owned_congr hvirtualizations]
        exact hs.unowned entry ((hremoved.datasources entry).mp hentry).1

/-- What an event works with: the cached object, or one that is built and waits to be added. -/
theorem getSyndesisDataSourceById_steady {s t : Synchronizer} (hs : Steady teiid s) {id : String}
    {remote : RemoteConnection} {sds : DefaultSyndesisDataSource}
    (h : getSyndesisDataSourceById s id remote = .ok (t, some sds)) :
    Pending t [sds] ∧ Unowned t := by
  unfold getSyndesisDataSourceById at h
  split at h
  · cases h
    exact ⟨hs.named.mono fun _ hp => (List.not_mem_nil hp).elim, hs.unowned⟩
  · exact ⟨build_pending hs.named h, (build_effect h).2.unowned hs.unowned⟩

/-- An event whose calls succeed keeps the stores steady. -/
theorem handleAddConnection_steady {s : Synchronizer} (hs : Steady teiid s) {id : String}
    {remote : RemoteConnection} {update : Bool}
    (hadds : ∀ t sds, getSyndesisDataSourceById s id remote = .ok (t, some sds) →
      adds teiid env t sds update = true) :
    Steady teiid (handleAddConnection teiid env s id remote update) := by
  have hlinked : Linked teiid (handleAddConnection teiid env s id remote update) :=
    handleAddConnection_linked hs.linked id remote update
  unfold handleAddConnection at hlinked ⊢
  split
  · rename_i t sds hget
    rw [hget] at hlinked
    obtain ⟨hpending, hunowned⟩ := getSyndesisDataSourceById_steady hs hget
    exact ⟨hlinked, addConnection_pending hpending (hadds t sds hget),
      addConnection_unowned teiid env sds update hunowned⟩
  · exact hs

/-- A synchronization whose calls succeed keeps the stores steady. -/
theorem synchronizesAll_steady {s t : Synchronizer} {update : Bool}
    {connections : List RemoteConnection} (hs : Steady teiid s)
    (h : synchronizesAll teiid env s update connections t) : Steady teiid t := by
  obtain ⟨_, _, dataSources, removed, hperm, _, hadds, rfl⟩ := h
  have hbuilt := getSyndesisSources_built hs.linked connections
  have honly := (getSyndesisSources_effect s connections).1
  have hnamed : ∀ sds ∈ dataSources, Named (getSyndesisSources s connections).1 sds :=
    fun sds hmem => hbuilt.named_of_mem (hperm.mem_iff.mp hmem)
  have hpending : Pending (getSyndesisSources s connections).1 dataSources := by
    refine (getSyndesisSources_pending hs.named connections).mono ?_
    intro p hp
    rw [List.append_nil] at hp
    exact hperm.mem_iff.mpr hp
  have hunowned := honly.unowned hs.unowned
  have hadded : Steady teiid (dataSources.foldl
      (fun s sds => addConnection teiid env s sds update) (getSyndesisSources s connections).1) :=
    ⟨(addConnections_added update hbuilt.linked hnamed).1, addConnections_pending hpending hadds,
      foldl_of_inv (fun _ sds hrest => addConnection_unowned teiid env sds update hrest) hunowned⟩
  exact @foldl_of_inv _ _ _ (Steady teiid) removed
    (fun _ id hrest => handleDeleteConnection_steady hrest id) _ hadded

/-- Any step in which no call fails keeps the stores steady. -/
theorem unfailingStep_steady {s t : Synchronizer} {label : SyncLabel} (hs : Steady teiid s)
    (h : unfailingStep teiid s label t) : Steady teiid t := by
  cases label with
  | handleConnectionEvent action id remote env =>
      obtain ⟨hhandles, rfl⟩ := h
      cases action with
      | deleted => exact handleDeleteConnection_steady hs id
      | created =>
          refine handleAddConnection_steady hs fun t sds hget => ?_
          simp only [handles, hget] at hhandles
          exact hhandles
      | updated =>
          refine handleAddConnection_steady hs fun t sds hget => ?_
          simp only [handles, hget] at hhandles
          exact hhandles
  | synchronizeConnections update connections env => exact synchronizesAll_steady hs h
  | virtualizations rows => exact h.elim

/-- The stores are steady in every such run. -/
theorem steady_of_run {s₀ s : Synchronizer} {tr : List (Synchronizer × SyncLabel)}
    (hstarted : started teiid s₀) (hrun : (unfailingSystem teiid).Run s₀ tr s) : Steady teiid s := by
  have hinit : ∀ s, (unfailingSystem teiid).init s → Steady teiid s := by
    intro s h
    refine ⟨linked_started h, ?_, ?_⟩
    · intro id sds hsds
      unfold cached at hsds
      rw [h.2.1] at hsds
      cases hsds
    · intro entry hentry
      rw [h.1] at hentry
      exact (List.not_mem_nil hentry).elim
  have hstep : ∀ s label t, Steady teiid s → (unfailingSystem teiid).step s label t →
      Steady teiid t := fun _ _ _ hs hst => unfailingStep_steady hs hst
  exact hrun.invariant_of_all hinit hstep hstarted

/-! ## What an update registers -/

/-- A call that registers under a free name could make the connection. -/
theorem creatable_of_registers {s : Synchronizer} {sds : DefaultSyndesisDataSource} {name : String}
    (hfree : ¬s.datasources.any (·.1 == name) = true) (h : registers env s sds name = true) :
    creatable env sds name := by
  rw [registers, Bool.or_eq_true, decide_eq_true_eq] at h
  exact h.resolve_left hfree

/-- A name drawn for a connection without a row is that of no data source. -/
theorem uniqueName_free {s t : Synchronizer} {sds : DefaultSyndesisDataSource} {name : String}
    (hs : Linked teiid s) (hrows : ∀ row ∈ s.schemas, row.sourceId ≠ sds.syndesisConnectionId)
    (h : uniqueName teiid env s sds = some (t, name)) :
    ¬t.datasources.any (·.1 == name) = true := by
  have hnames := uniqueName_named h
  rw [hnames.datasources, List.any_eq_true]
  rintro ⟨entry, hentry, heq⟩
  obtain ⟨row, hmem, hsource, hname⟩ := hs.registered entry hentry
  have hother : HasRow t entry.2.syndesisId name :=
    ⟨row, hnames.rows row hmem, hsource, hname.trans (beq_iff_eq.mp heq)⟩
  exact hrows row hmem (hsource.trans (id_of_hasRow (hnames.unique hs.unique) hother hnames.row))

/-- The data source of the connection under the name. -/
def dataSourceOf (sds : DefaultSyndesisDataSource) (name : String) : String × TeiidDataSource :=
  (name, ⟨name, sds.translatorName, sds.syndesisConnectionId, sds.properties⟩)

/-- An object without a name is that of a connection without a row. -/
def Drawn (s : Synchronizer) (sds : DefaultSyndesisDataSource) : Prop :=
  sds.teiidName = none → ∀ row ∈ s.schemas, row.sourceId ≠ sds.syndesisConnectionId

/-- An update that raises nothing registers the object: under its name, or under the one it draws. -/
theorem addConnection_registers {s : Synchronizer} {sds : DefaultSyndesisDataSource}
    (hs : Linked teiid s) (hdrawn : Drawn s sds) (howned : owned s sds.syndesisConnectionId = false)
    (hadds : adds teiid env s sds true = true) :
    ∃ name, dataSourceOf sds name ∈ (addConnection teiid env s sds true).datasources := by
  have hcreates : creates teiid env (s.deleteDataSource sds) sds = true :=
    (Bool.or_eq_true_iff.mp hadds).resolve_left (Bool.eq_false_iff.mp howned)
  rw [addConnection_of_not_owned howned, if_pos rfl]
  unfold creates at hcreates
  split at hcreates
  · rename_i name hname
    have hcreatable := creatable_of_registers (not_any_deleteDataSource hname) hcreates
    refine ⟨name, ?_⟩
    rw [update_registers hname hcreatable]
    exact List.mem_append_right _ (List.mem_singleton_self _)
  · rename_i hnone
    -- without a name there is no row to keep it
    have hnamed : Named s sds := fun name hname => nomatch hnone.symm.trans hname
    have hdeleted := (deleteDataSource_added hs hnamed).linked
    split at hcreates
    · rename_i t name hunique
      have hfree := uniqueName_free hdeleted (hdrawn hnone) hunique
      have hcreatable := creatable_of_registers hfree hcreates
      refine ⟨name, ?_⟩
      simp only [createDataSource, hnone, hunique]
      rw [@registerDataSource_creates env (t.setTeiidName sds name) sds name hfree hcreatable]
      exact List.mem_append_right _ (List.mem_singleton_self _)
    · cases hcreates

/-- An update that raises nothing leaves a data source with the properties of its object. -/
theorem addConnection_created {s : Synchronizer} {sds : DefaultSyndesisDataSource}
    (hs : Linked teiid s) (hdrawn : Drawn s sds) (howned : owned s sds.syndesisConnectionId = false)
    (hadds : adds teiid env s sds true = true) :
    ∃ entry ∈ (addConnection teiid env s sds true).datasources,
      entry.2.syndesisId = sds.syndesisConnectionId ∧ entry.2.properties = sds.properties := by
  obtain ⟨name, hnew⟩ := addConnection_registers hs hdrawn howned hadds
  exact ⟨dataSourceOf sds name, hnew, rfl, rfl⟩

/-- A connection has one data source, so its properties are those of that one. -/
theorem createdFrom_iff {s : Synchronizer} (hs : Linked teiid s) {entry : String × TeiidDataSource}
    (hentry : entry ∈ s.datasources) (properties : List (String × String)) :
    CreatedFrom s entry.2.syndesisId properties ↔ entry.2.properties = properties := by
  constructor
  · rintro ⟨_, hall⟩
    exact hall entry hentry rfl
  · intro heq
    refine ⟨registered_iff.mpr ⟨entry, hentry, rfl⟩, ?_⟩
    intro other hother hid
    rw [entry_unique (syndesisIds_nodup hs) hother hentry hid]
    exact heq

/-- An update registers what it was given: the cached object, or what Syndesis holds. -/
theorem handleUpdate_createdFrom_iff {s : Synchronizer} {id : String} {remote : RemoteConnection}
    (hs : Steady teiid s) (hremote : remote.id = some id) (hsupported : remote.translatorName.isSome)
    (howned : owned s id = false) (hhandles : handles teiid env s .updated id remote = true) :
    CreatedFrom (handleAddConnection teiid env s id remote true) id remote.properties ↔
      ∀ sds, s.cached id = some sds → sds.properties = remote.properties := by
  have hlinked : Linked teiid (handleAddConnection teiid env s id remote true) :=
    handleAddConnection_linked hs.linked id remote true
  cases hcached : s.cached id with
  | some sds =>
      obtain ⟨hid, _⟩ := hs.linked.cached id sds hcached
      have hget : getSyndesisDataSourceById s id remote = .ok (s, some sds) := by
        unfold getSyndesisDataSourceById
        rw [hcached]
      simp only [handles, hget] at hhandles
      simp only [handleAddConnection, hget] at hlinked ⊢
      subst hid
      have hdrawn : Drawn s sds := by
        intro hnone
        obtain ⟨p, hp, _⟩ := hs.named _ sds hcached howned hnone
        exact (List.not_mem_nil hp).elim
      obtain ⟨entry, hentry, hentryId, hproperties⟩ :=
        addConnection_created hs.linked hdrawn howned hhandles
      rw [← hentryId, createdFrom_iff hlinked hentry, hproperties]
      simp
  | none =>
      have hget : getSyndesisDataSourceById s id remote = buildSyndesisDataSource s remote := by
        unfold getSyndesisDataSourceById
        rw [hcached]
      simp only [handles, hget] at hhandles
      simp only [handleAddConnection, hget] at hlinked ⊢
      split at hhandles
      · rename_i u sds hbuild
        obtain ⟨hof, honly⟩ := build_effect hbuild
        obtain rfl : sds.syndesisConnectionId = id :=
          Option.some.inj ((sourceId_eq_some hof.sourceId).2.symm.trans hremote)
        rw [← owned_congr honly.virtualizations] at howned
        have hdrawn : Drawn u sds := by
          intro hnone row hrow
          rw [hof.teiidName, Option.map_eq_none_iff] at hnone
          simpa using List.find?_eq_none.mp hnone row (honly.schemas ▸ hrow)
        obtain ⟨entry, hentry, hentryId, hproperties⟩ :=
          addConnection_created (build_linked hs.linked hbuild) hdrawn howned hhandles
        rw [hbuild] at hlinked
        simp only [hbuild]
        rw [← hentryId, createdFrom_iff hlinked hentry, hproperties, hof.properties]
        simp
      · rename_i u hbuild
        -- only a connection that is not supported has no data source
        obtain ⟨translatorName, htranslator⟩ := Option.isSome_iff_exists.mp hsupported
        unfold buildSyndesisDataSource at hbuild
        simp only [htranslator, hremote] at hbuild
        split at hbuild <;> cases hbuild
      · cases hhandles

/-- After any run in which no call fails, an updated event for a connection that publishes no
virtualization registers what Syndesis holds exactly if the cache does not hold anything else. -/
theorem updated_createdFrom_iff {s₀ s t : Synchronizer} {tr : List (Synchronizer × SyncLabel)}
    {id : String} {remote : RemoteConnection} (hstarted : started teiid s₀)
    (hrun : (unfailingSystem teiid).Run s₀ tr s) (hremote : remote.id = some id)
    (hsupported : remote.translatorName.isSome) (howned : owned s id = false)
    (hstep : (unfailingSystem teiid).step s (.handleConnectionEvent .updated id remote env) t) :
    CreatedFrom t id remote.properties ↔
      ∀ sds, s.cached id = some sds → sds.properties = remote.properties := by
  obtain ⟨hhandles, rfl⟩ := hstep
  exact handleUpdate_createdFrom_iff (steady_of_run hstarted hrun) hremote hsupported howned hhandles

/-- The connection `c1` with the url that Syndesis holds. -/
def holding (url : String) : RemoteConnection :=
  { id := some "c1", name := "my db", translatorName := some "postgresql"
    properties := [("url", url)] }

/-- An event of `c1` while Syndesis holds the url. -/
def eventHolding (action : EventAction) (url : String) : SyncLabel :=
  .handleConnectionEvent action "c1" (holding url)
    { createsDatasource := fun _ => true, nextInt := fun _ _ => 0 }

/-- The stores after events of `c1`, from empty ones. -/
def afterHolding (events : List (EventAction × String)) : Synchronizer :=
  events.foldl
    (fun s event =>
      handleConnectionEvent (.ascii fun _ => { schema := { name := "parsed" } })
        { createsDatasource := fun _ => true, nextInt := fun _ _ => 0 } s event.1 "c1"
        (holding event.2))
    {}

/-- The first update has emptied the cache, so the second registers what Syndesis holds. -/
theorem updated_createdFrom_iff_twice :
    CreatedFrom (afterHolding [(.created, "a"), (.updated, "b"), (.updated, "c")]) "c1"
      [("url", "c")] := by
  have hrun : (unfailingSystem (.ascii fun _ => { schema := { name := "parsed" } })).Run {}
      [({}, eventHolding .created "a"), (afterHolding [(.created, "a")], eventHolding .updated "b")]
      (afterHolding [(.created, "a"), (.updated, "b")]) :=
    .cons ⟨by decide, rfl⟩ (.cons ⟨by decide, rfl⟩ (.nil _))
  have hcached : (afterHolding [(.created, "a"), (.updated, "b")]).cached "c1" = none := by decide
  refine (@updated_createdFrom_iff _ { createsDatasource := fun _ => true, nextInt := fun _ _ => 0 }
    _ _ _ _ "c1" (holding "c") ⟨rfl, rfl, List.Pairwise.nil⟩ hrun rfl rfl (by decide)
    ⟨by decide, rfl⟩).mpr ?_
  intro sds hsds
  rw [hcached] at hsds
  cases hsds

/-- The first update after a start registers what was cached then. -/
theorem updated_registers_cached : ¬∀ (teiid : Teiid) (env : Env) (s₀ s t : Synchronizer)
    (tr : List (Synchronizer × SyncLabel)) (id : String) (remote : RemoteConnection),
    started teiid s₀ → (unfailingSystem teiid).Run s₀ tr s → remote.id = some id →
      remote.translatorName.isSome → owned s id = false →
      (unfailingSystem teiid).step s (.handleConnectionEvent .updated id remote env) t →
      CreatedFrom t id remote.properties := by
  intro h
  have hrun : (unfailingSystem (.ascii fun _ => { schema := { name := "parsed" } })).Run {}
      [({}, eventHolding .created "a")] (afterHolding [(.created, "a")]) :=
    .cons ⟨by decide, rfl⟩ (.nil _)
  obtain ⟨_, hall⟩ := h _ { createsDatasource := fun _ => true, nextInt := fun _ _ => 0 } _ _
    (afterHolding [(.created, "a"), (.updated, "b")]) _ "c1" (holding "b")
    ⟨rfl, rfl, List.Pairwise.nil⟩ hrun rfl rfl (by decide) ⟨by decide, rfl⟩
  have hstale : ("mydb", ⟨"mydb", "postgresql", "c1", [("url", "a")]⟩) ∈
      (afterHolding [(.created, "a"), (.updated, "b")]).datasources := by decide
  exact absurd (hall _ hstale rfl) (by decide)

end Synchronizer

end TeiidSyndesis.OpenShift
