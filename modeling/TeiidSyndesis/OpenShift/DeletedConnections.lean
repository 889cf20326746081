/-
# TeiidSyndesis.OpenShift.DeletedConnections — when a deleted connection disappears.

A deletion goes by the cache: a connection that is not cached is left alone, and one whose cached
object has no Teiid name keeps its data source.  An update drops the connection from the cache and
does not put it back, and a synchronization looks only for connections with a registered data source.
As the stores are linked, they tell before a deletion whether it will succeed.

Main results:
* `Removed` — what deletions take away, with `Removed.absent_iff` and `Removed.linked`;
* `handleDeleteConnection_deletes`, `synchronizeConnections_deletes` — when a deletion succeeds;
* `step_deletes` — the same of a step, read off the state before it;
* `deletes_iff` — and of the next step of any run;
* `updated_deleted_stays` — an update, and a deletion after it that deletes nothing.
-/
import TeiidSyndesis.OpenShift.ConnectionLink

namespace TeiidSyndesis.OpenShift

open TeiidSyndesis.Library TeiidSyndesis.Model

namespace Synchronizer

variable {teiid : Teiid} {env : Env}

/-! ## Connections that are gone, and deletions that succeed -/

/-- No data source and no schema has the id. -/
def Absent (s : Synchronizer) (id : String) : Prop :=
  (∀ entry ∈ s.datasources, entry.2.syndesisId ≠ id) ∧ ∀ row ∈ s.schemas, row.sourceId ≠ id

/-- There is a data source of the connection. -/
def registered (s : Synchronizer) (id : String) : Bool :=
  s.datasources.any (·.2.syndesisId == id)

/-- The cache leads to all there is of the connection. -/
def deletable (s : Synchronizer) (id : String) : Bool :=
  match s.cached id with
  | some sds => sds.teiidName.isSome || !registered s id
  | none => s.schemas.all (·.sourceId != id)

/-- The step is to delete the connection. -/
def Deletes (label : SyncLabel) (id : String) : Prop :=
  match label with
  | .handleConnectionEvent .deleted deleted _ _ => id = deleted
  | .synchronizeConnections _ connections _ => id ∉ listed connections
  | _ => False

/-- What the step is to delete is found: through the cache for an event, and for a synchronization
through a registered data source as well. -/
def findsDeleted (s : Synchronizer) (label : SyncLabel) : Bool :=
  match label with
  | .handleConnectionEvent .deleted id _ _ => deletable s id
  | .synchronizeConnections _ connections _ =>
      s.schemas.all fun row =>
        decide (row.sourceId ∈ listed connections) ||
          (registered s row.sourceId && deletable s row.sourceId)
  | _ => true

theorem registered_iff {s : Synchronizer} {id : String} :
    registered s id = true ↔ ∃ entry ∈ s.datasources, entry.2.syndesisId = id := by
  simp [registered]

/-- Whether a connection is gone depends on what concerns it. -/
theorem Same.absent {s t : Synchronizer} {id : String} (h : Same s t id) :
    Absent t id ↔ Absent s id := by
  constructor
  · rintro ⟨hdatasources, hschemas⟩
    refine ⟨?_, ?_⟩
    · intro entry hmem hid
      exact hdatasources entry ((h.datasources entry hid).mpr hmem) hid
    · intro row hmem hid
      exact hschemas row ((h.schemas row hid).mpr hmem) hid
  · rintro ⟨hdatasources, hschemas⟩
    refine ⟨?_, ?_⟩
    · intro entry hmem hid
      exact hdatasources entry ((h.datasources entry hid).mp hmem) hid
    · intro row hmem hid
      exact hschemas row ((h.schemas row hid).mp hmem) hid

/-- Whether a connection can be deleted depends on what concerns it. -/
theorem Same.deletable {s t : Synchronizer} {id : String} (h : Same s t id) :
    deletable t id = deletable s id := by
  have hregistered : registered t id = registered s id := by
    rw [Bool.eq_iff_iff, registered_iff, registered_iff]
    constructor
    · rintro ⟨entry, hmem, hid⟩
      exact ⟨entry, (h.datasources entry hid).mp hmem, hid⟩
    · rintro ⟨entry, hmem, hid⟩
      exact ⟨entry, (h.datasources entry hid).mpr hmem, hid⟩
  have hschemas : t.schemas.all (·.sourceId != id) = s.schemas.all (·.sourceId != id) := by
    rw [Bool.eq_iff_iff, List.all_eq_true, List.all_eq_true]
    constructor
    · intro hall row hmem
      by_cases hid : row.sourceId = id
      · exact hall row ((h.schemas row hid).mpr hmem)
      · simpa using hid
    · intro hall row hmem
      by_cases hid : row.sourceId = id
      · exact hall row ((h.schemas row hid).mp hmem)
      · simpa using hid
  unfold Synchronizer.deletable
  rw [h.cached, hregistered, hschemas]

/-! ## What deletions take away -/

/-- The deletions of a list of ids, by what was cached before them. -/
structure Removed (s t : Synchronizer) (ids : List String) : Prop where
  /-- the rows of the ids are gone, where an object was cached -/
  schemas : ∀ row, row ∈ t.schemas ↔
    row ∈ s.schemas ∧ (row.sourceId ∈ ids → s.cached row.sourceId = none)
  /-- and the data sources of the names of these objects -/
  datasources : ∀ entry, entry ∈ t.datasources ↔ entry ∈ s.datasources ∧
    ∀ id ∈ ids, ∀ sds, s.cached id = some sds → sds.teiidName ≠ some entry.1
  cached : ∀ id, t.cached id = if id ∈ ids then none else s.cached id
  rows : t.schemas.Sublist s.schemas
  keys : t.datasources.Sublist s.datasources

/-- A deletion takes away its own connection, or nothing. -/
theorem handleDeleteConnection_removed {s : Synchronizer} (hs : CachedById s) (id : String) :
    Removed s (handleDeleteConnection s id) [id] := by
  unfold handleDeleteConnection
  -- without an object in the cache nothing is deleted
  cases hcached : s.cached id with
  | none =>
      refine ⟨?_, ?_, ?_, List.Sublist.refl _, List.Sublist.refl _⟩
      · intro row
        simp only [List.mem_singleton, iff_self_and]
        rintro _ rfl
        exact hcached
      · intro entry
        simp [hcached]
      · intro other
        by_cases hother : other = id
        · simp [hother, hcached]
        · simp [hother]
  | some sds =>
      obtain rfl := hs id sds hcached
      refine ⟨?_, ?_, ?_, List.filter_sublist, deleteDataSource_sublist (s.deleteSchema sds) sds⟩
      · intro row
        show row ∈ s.schemas.filter (·.sourceId ≠ sds.syndesisConnectionId) ↔ _
        rw [List.mem_filter, List.mem_singleton]
        by_cases hrow : row.sourceId = sds.syndesisConnectionId
        · simp [hrow, hcached]
        · simp [hrow]
      · intro entry
        show entry ∈ ((s.deleteSchema sds).deleteDataSource sds).datasources ↔ _
        rw [mem_deleteDataSource]
        simp [hcached, deleteSchema]
      · intro other
        show ((s.deleteSchema sds).deleteDataSource sds).cached other = _
        rw [cached_deleteDataSource]
        simp only [List.mem_singleton]
        rfl

/-- It leaves the cache keyed by id. -/
theorem Removed.cachedById {s t : Synchronizer} {ids : List String} (h : Removed s t ids)
    (hs : CachedById s) : CachedById t := by
  intro id sds hsds
  rw [h.cached] at hsds
  split at hsds
  · cases hsds
  · exact hs id sds hsds

/-- Deletions one after another; the second finds what the first has left in the cache. -/
theorem Removed.cons {s t u : Synchronizer} {id : String} {ids : List String}
    (h : Removed s t [id]) (h' : Removed t u ids) : Removed s u (id :: ids) := by
  -- the later deletions read the cache the first one has left
  have hcached : ∀ other, t.cached other = if other = id then none else s.cached other := by
    intro other
    rw [h.cached]
    simp only [List.mem_singleton]
  refine ⟨?_, ?_, ?_, h'.rows.trans h.rows, h'.keys.trans h.keys⟩
  · intro row
    rw [h'.schemas, h.schemas, hcached]
    by_cases hrow : row.sourceId = id
    · simp [hrow]
    · simp [hrow]
  · intro entry
    rw [h'.datasources, h.datasources]
    constructor
    · rintro ⟨⟨hentry, hfirst⟩, hrest⟩
      refine ⟨hentry, ?_⟩
      intro other hother sds hsds
      by_cases hsame : other = id
      · subst hsame
        exact hfirst other (List.mem_singleton_self _) sds hsds
      · refine hrest other (List.mem_of_ne_of_mem hsame hother) sds ?_
        rw [hcached, if_neg hsame]
        exact hsds
    · rintro ⟨hentry, hall⟩
      refine ⟨⟨hentry, ?_⟩, ?_⟩
      · intro other hother sds hsds
        rw [List.mem_singleton.mp hother] at hsds
        exact hall id List.mem_cons_self sds hsds
      · intro other hother sds hsds
        rw [hcached] at hsds
        split at hsds
        · cases hsds
        · exact hall other (List.mem_cons_of_mem _ hother) sds hsds
  · intro other
    rw [h'.cached, hcached]
    by_cases hsame : other = id
    · simp [hsame]
    · simp [hsame]

/-- Deletions one after another, by induction over the list. -/
theorem handleDeleteConnections_removed {s : Synchronizer} (hs : CachedById s)
    (ids : List String) : Removed s (ids.foldl handleDeleteConnection s) ids := by
  induction ids generalizing s with
  | nil =>
      refine ⟨?_, ?_, ?_, List.Sublist.refl _, List.Sublist.refl _⟩ <;> simp
  | cons id ids ih =>
      have hfirst := handleDeleteConnection_removed hs id
      exact hfirst.cons (ih (hfirst.cachedById hs))

/-- A connection is gone after its deletion exactly if it was deletable. -/
theorem Removed.absent_iff {s t : Synchronizer} {ids : List String} (h : Removed s t ids)
    (hs : Linked teiid s) {id : String} (hid : id ∈ ids) :
    Absent t id ↔ deletable s id = true := by
  unfold deletable
  cases hcached : s.cached id with
  | none =>
      -- nothing is found in the cache, so the connection is absent only if it has no row
      simp only [List.all_eq_true, bne_iff_ne]
      constructor
      · rintro ⟨_, hrows⟩ row hrow heq
        exact hrows row ((h.schemas row).mpr ⟨hrow, fun _ => heq ▸ hcached⟩) heq
      · intro hrows
        refine ⟨?_, ?_⟩
        · intro entry hentry heq
          obtain ⟨row, hrow, hsource, _⟩ := hs.registered entry ((h.datasources entry).mp hentry).1
          exact hrows row hrow (hsource.trans heq)
        · intro row hrow
          exact hrows row ((h.schemas row).mp hrow).1
  | some sds =>
      obtain ⟨_, hname⟩ := hs.cached id sds hcached
      have hgone : ∀ row ∈ t.schemas, row.sourceId ≠ id := by
        intro row hrow heq
        have hnone := ((h.schemas row).mp hrow).2 (heq ▸ hid)
        rw [heq, hcached] at hnone
        cases hnone
      simp only [Bool.or_eq_true, Bool.not_eq_true', ← Bool.not_eq_true, registered_iff]
      cases hteiid : sds.teiidName with
      | none =>
          simp only [Option.isSome_none, Bool.false_eq_true, false_or]
          constructor
          · rintro ⟨hentries, _⟩ ⟨entry, hentry, heq⟩
            refine hentries entry ((h.datasources entry).mpr ⟨hentry, ?_⟩) heq
            intro other hother sds' hsds' hname'
            -- the name of another connection is not the name of this one
            have hrow := (hs.cached other sds' hsds').2 entry.1 hname'
            have hentryRow := hs.registered entry hentry
            rw [heq] at hentryRow
            rw [id_of_hasRow hs.unique hrow hentryRow, hcached] at hsds'
            cases hsds'
            rw [hteiid] at hname'
            cases hname'
          · intro hnot
            refine ⟨?_, hgone⟩
            intro entry hentry heq
            exact hnot ⟨entry, ((h.datasources entry).mp hentry).1, heq⟩
      | some name =>
          -- the cached name is that of the row, and so that of its data source
          simp only [Option.isSome_some, true_or, iff_true]
          refine ⟨?_, hgone⟩
          intro entry hentry heq
          obtain ⟨hold, hothers⟩ := (h.datasources entry).mp hentry
          have hrow := hs.registered entry hold
          rw [heq] at hrow
          refine hothers id hid sds hcached ?_
          rw [hteiid, name_of_hasRow hs.unique (hname name hteiid) hrow]

/-- The other connections stay. -/
theorem Removed.same {s t : Synchronizer} {ids : List String} (h : Removed s t ids)
    (hs : Linked teiid s) {id : String} (hid : id ∉ ids) : Same s t id where
  schemas := by
    intro row hrow
    rw [h.schemas]
    simp [hrow, hid]
  datasources := by
    intro entry heq
    rw [h.datasources]
    constructor
    · exact fun hentry => hentry.1
    · intro hentry
      refine ⟨hentry, ?_⟩
      intro other hother sds hsds hname
      have hrow := hs.registered entry hentry
      rw [heq] at hrow
      rw [id_of_hasRow hs.unique hrow ((hs.cached other sds hsds).2 entry.1 hname)] at hid
      exact hid hother
  cached := by
    rw [h.cached, if_neg hid]

/-- Deletions that succeed keep the link. -/
theorem Removed.linked {s t : Synchronizer} {ids : List String} (h : Removed s t ids)
    (hs : Linked teiid s) (hids : ∀ id ∈ ids, deletable s id = true) : Linked teiid t where
  unique := hs.unique.sublist h.rows
  keys := hs.keys.sublist (h.keys.map _)
  registered := by
    intro entry hentry
    obtain ⟨row, hrow, hsource, hname⟩ := hs.registered entry ((h.datasources entry).mp hentry).1
    refine ⟨row, (h.schemas row).mpr ⟨hrow, ?_⟩, hsource, hname⟩
    intro hmem
    rw [hsource] at hmem
    exact absurd rfl (((h.absent_iff hs hmem).mpr (hids _ hmem)).1 entry hentry)
  cached := by
    intro id sds hsds
    rw [h.cached] at hsds
    split at hsds
    · cases hsds
    · rename_i hid
      obtain ⟨hsource, hnames⟩ := hs.cached id sds hsds
      refine ⟨hsource, ?_⟩
      intro name hname
      obtain ⟨row, hrow, hrowId, hrowName⟩ := hnames name hname
      refine ⟨row, (h.schemas row).mpr ⟨hrow, ?_⟩, hrowId, hrowName⟩
      intro hmem
      exact absurd (hrowId ▸ hmem) hid

/-! ## Steps -/

/-- A created or an updated event keeps the link. -/
theorem handleAddConnection_linked {s : Synchronizer} (hs : Linked teiid s) (id : String)
    (remote : RemoteConnection) (update : Bool) :
    Linked teiid (handleAddConnection teiid env s id remote update) := by
  unfold handleAddConnection
  split
  · rename_i t sds hget
    unfold getSyndesisDataSourceById at hget
    split at hget
    · rename_i source hcached
      cases hget
      obtain ⟨hid, hname⟩ := hs.cached id sds hcached
      exact (addConnection_added hs (fun name h => hid ▸ hname name h) update).linked
    · obtain ⟨hof, honly⟩ := build_effect hget
      have hnamed : Named t sds := fun name h => (hasRow_congr honly.schemas).mpr (hof.hasRow h)
      exact (addConnection_added (build_linked hs hget) hnamed update).linked
  · exact hs

/-- What a synchronization removes: registered data sources that are not listed, from a state that
has the same of all connections that are not listed. -/
theorem synchronizeConnections_removed {s t : Synchronizer} {update : Bool}
    {connections : List RemoteConnection} (hs : Linked teiid s)
    (h : synchronizeConnections teiid env s update connections t) :
    ∃ added ids, Linked teiid added ∧ Removed added t ids ∧
      (∀ id, id ∉ listed connections → Same s added id) ∧
      ∀ id, id ∈ ids ↔ registered s id = true ∧ id ∉ listed connections := by
  have hbuilt := getSyndesisSources_built hs connections
  unfold synchronizeConnections at h
  simp only [if_pos (syndesisIds_nodup hbuilt.linked)] at h
  obtain ⟨dataSources, removed, hsources, hremoved, rfl⟩ := h
  have hnamed : ∀ sds ∈ dataSources, Named (getSyndesisSources s connections).1 sds :=
    fun sds hmem => hbuilt.named_of_mem (hsources.mem_iff.mp hmem)
  obtain ⟨hlinked, hsame⟩ := addConnections_added update hbuilt.linked hnamed
  refine ⟨_, removed, hlinked, ?_, ?_, ?_⟩
  · exact handleDeleteConnections_removed hlinked.cachedById removed
  · intro id hid
    have hids : id ∉ dataSources.map (·.syndesisConnectionId) := by
      rw [(hsources.map _).mem_iff, hbuilt.sourceIds]
      exact hid
    refine Same.trans ⟨?_, ?_, hbuilt.cached id hid⟩ (hsame id hids)
    · intro row _
      rw [hbuilt.schemas]
    · intro entry _
      rw [hbuilt.datasources]
  · intro id
    rw [hremoved.mem_iff, removedIds, List.mem_filter, hbuilt.datasources, hbuilt.sourceIds,
      registered_iff]
    simp

/-- A deleted event removes its connection exactly if it was deletable. -/
theorem handleDeleteConnection_deletes {s : Synchronizer} (hs : Linked teiid s) (id : String) :
    (Absent (handleDeleteConnection s id) id ↔ deletable s id = true) ∧
      (deletable s id = true → Linked teiid (handleDeleteConnection s id)) := by
  have hremoved : Removed s (handleDeleteConnection s id) [id] :=
    handleDeleteConnection_removed hs.cachedById id
  refine ⟨hremoved.absent_iff hs (List.mem_singleton_self id), ?_⟩
  intro hdeletable
  refine hremoved.linked hs ?_
  intro other hother
  rw [List.mem_singleton.mp hother]
  exact hdeletable

/-- A synchronization deletes what has a data source, so each row that is not listed needs one. -/
theorem findsDeleted_synchronizeConnections {s : Synchronizer} {update : Bool}
    {connections : List RemoteConnection} {env : Env} :
    findsDeleted s (.synchronizeConnections update connections env) = true ↔
      ∀ row ∈ s.schemas, row.sourceId ∉ listed connections →
        registered s row.sourceId = true ∧ deletable s row.sourceId = true := by
  simp only [findsDeleted, List.all_eq_true, Bool.or_eq_true, Bool.and_eq_true, decide_eq_true_eq]
  exact forall₂_congr fun row _ => Decidable.or_iff_not_imp_left

/-- A registered data source has a row, so what is said of the rows is said of it. -/
theorem deletable_of_registered {s : Synchronizer} {connections : List RemoteConnection}
    (hs : Linked teiid s)
    (hrows : ∀ row ∈ s.schemas, row.sourceId ∉ listed connections →
      registered s row.sourceId = true ∧ deletable s row.sourceId = true)
    {id : String} (hregistered : registered s id = true) (hid : id ∉ listed connections) :
    deletable s id = true := by
  obtain ⟨entry, hentry, heq⟩ := registered_iff.mp hregistered
  obtain ⟨row, hrow, hsource, _⟩ := hs.registered entry hentry
  have hrowId : row.sourceId = id := hsource.trans heq
  rw [← hrowId]
  exact (hrows row hrow (hrowId ▸ hid)).2

/-- A synchronization removes every connection that is not listed exactly if each row without a listed
connection has a data source to remove, and one that can be removed. -/
theorem synchronizeConnections_deletes {s t : Synchronizer} {update : Bool}
    {connections : List RemoteConnection} (hs : Linked teiid s)
    (h : synchronizeConnections teiid env s update connections t) :
    ((∀ id, id ∉ listed connections → Absent t id) ↔
        findsDeleted s (.synchronizeConnections update connections env) = true) ∧
      (findsDeleted s (.synchronizeConnections update connections env) = true → Linked teiid t) := by
  obtain ⟨added, ids, hadded, hremoved, hsame, hids⟩ := synchronizeConnections_removed hs h
  rw [findsDeleted_synchronizeConnections]
  -- a connection that is removed is absent afterwards exactly if it was deletable before
  have hgone : ∀ id, registered s id = true → id ∉ listed connections →
      (Absent t id ↔ deletable s id = true) := by
    intro id hregistered hid
    rw [hremoved.absent_iff hadded ((hids id).mpr ⟨hregistered, hid⟩), (hsame id hid).deletable]
  -- one without a data source is not looked for, and stays as it was
  have hkept : ∀ id, ¬ registered s id = true → id ∉ listed connections →
      (Absent t id ↔ Absent s id) := by
    intro id hregistered hid
    have hother : id ∉ ids := fun hmem => hregistered ((hids id).mp hmem).1
    exact (hremoved.same hadded hother).absent.trans (hsame id hid).absent
  refine ⟨⟨?_, ?_⟩, ?_⟩
  · intro hall row hrow hid
    have habsent : Absent t row.sourceId := hall row.sourceId hid
    by_cases hregistered : registered s row.sourceId = true
    · exact ⟨hregistered, (hgone row.sourceId hregistered hid).mp habsent⟩
    · have hrows := ((hkept row.sourceId hregistered hid).mp habsent).2
      exact absurd rfl (hrows row hrow)
  · intro hrows id hid
    by_cases hregistered : registered s id = true
    · exact (hgone id hregistered hid).mpr (deletable_of_registered hs hrows hregistered hid)
    · refine (hkept id hregistered hid).mpr ⟨?_, ?_⟩
      · intro entry hentry heq
        exact hregistered (registered_iff.mpr ⟨entry, hentry, heq⟩)
      · intro row hrow heq
        exact hregistered (heq ▸ (hrows row hrow (heq ▸ hid)).1)
  · intro hrows
    refine hremoved.linked hadded ?_
    intro id hmem
    obtain ⟨hregistered, hid⟩ := (hids id).mp hmem
    rw [(hsame id hid).deletable]
    exact deletable_of_registered hs hrows hregistered hid

/-- A step deletes what it is to delete exactly if it finds it, and then keeps the link. -/
theorem step_deletes {s t : Synchronizer} {label : SyncLabel} (hs : Linked teiid s)
    (h : step teiid s label t) :
    ((∀ id, Deletes label id → Absent t id) ↔ findsDeleted s label = true) ∧
      (findsDeleted s label = true → Linked teiid t) := by
  cases label with
  | handleConnectionEvent action id remote env =>
      obtain rfl : t = handleConnectionEvent teiid env s action id remote := h
      cases action with
      | deleted =>
          obtain ⟨habsent, hlinked⟩ := handleDeleteConnection_deletes hs id
          refine ⟨?_, hlinked⟩
          show (∀ other, other = id → Absent (handleDeleteConnection s id) other) ↔
            deletable s id = true
          rw [forall_eq]
          exact habsent
      | created =>
          exact ⟨iff_of_true (fun _ hdeletes => hdeletes.elim) rfl,
            fun _ => handleAddConnection_linked hs id remote false⟩
      | updated =>
          exact ⟨iff_of_true (fun _ hdeletes => hdeletes.elim) rfl,
            fun _ => handleAddConnection_linked hs id remote true⟩
  | synchronizeConnections update connections env => exact synchronizeConnections_deletes hs h
  | virtualizations rows =>
      cases h
      exact ⟨iff_of_true (fun _ hdeletes => hdeletes.elim) rfl,
        fun _ => ⟨hs.unique, hs.keys, hs.registered, hs.cached⟩⟩

/-- A server starts with rows only. -/
theorem linked_started {s : Synchronizer} (h : started teiid s) : Linked teiid s := by
  obtain ⟨hdatasources, hcache, hunique⟩ := h
  refine ⟨hunique, ?_, ?_, ?_⟩
  · rw [hdatasources]
    exact List.nodup_nil
  · rw [hdatasources]
    intro entry hentry
    cases hentry
  · unfold cached
    rw [hcache]
    intro id sds hsds
    cases hsds

/-- In a run that has found everything it was to delete so far, the next step deletes what it is to
delete exactly if it finds it. -/
theorem deletes_iff {s₀ s t : Synchronizer} {tr : List (Synchronizer × SyncLabel)}
    {label : SyncLabel} (hstarted : started teiid s₀)
    (hrun : (synchronizerSystem teiid).Run s₀ tr s)
    (hfinds : System.Guarded (fun s label => findsDeleted s label = true) tr)
    (hstep : step teiid s label t) :
    (∀ id, Deletes label id → Absent t id) ↔ findsDeleted s label = true := by
  have hkeeps : ∀ s label t, Linked teiid s → findsDeleted s label = true →
      (synchronizerSystem teiid).step s label t → Linked teiid t :=
    fun _ _ _ hs hg hst => (step_deletes hs hst).2 hg
  have hs := hrun.preserves hkeeps hfinds (linked_started hstarted)
  exact (step_deletes hs hstep).1

/-- An event for the connection `c1`, a database that can be reached. -/
def eventFor (action : EventAction) : SyncLabel :=
  .handleConnectionEvent action "c1"
    { id := some "c1", name := "my db", translatorName := some "postgresql" }
    { createsDatasource := fun _ => true, nextInt := fun _ _ => 0 }

/-- The stores after the events of `c1`, from empty ones. -/
def afterEvents (actions : List EventAction) : Synchronizer :=
  actions.foldl
    (fun s action =>
      handleConnectionEvent (.ascii fun _ => { schema := { name := "parsed" } })
        { createsDatasource := fun _ => true, nextInt := fun _ _ => 0 } s action "c1"
        { id := some "c1", name := "my db", translatorName := some "postgresql" })
    {}

/-- A connection that was created, and deleted. -/
theorem deletes_iff_created : Absent (afterEvents [.created, .deleted]) "c1" :=
  (@deletes_iff (.ascii fun _ => { schema := { name := "parsed" } }) {} (afterEvents [.created])
    (afterEvents [.created, .deleted]) [({}, eventFor .created)] (eventFor .deleted)
    ⟨rfl, rfl, List.Pairwise.nil⟩ (.cons rfl (.nil _)) (by simp [findsDeleted, eventFor]) rfl).mpr
    (by decide) "c1" rfl

theorem updated_deleted_stays :
    ¬ ∀ (teiid : Teiid) (s₀ s t : Synchronizer) (tr : List (Synchronizer × SyncLabel))
      (label : SyncLabel), started teiid s₀ → (synchronizerSystem teiid).Run s₀ tr s →
        step teiid s label t → ∀ id, Deletes label id → Absent t id := by
  intro h
  have habsent := h (.ascii fun _ => { schema := { name := "parsed" } }) {}
    (afterEvents [.created, .updated]) (afterEvents [.created, .updated, .deleted])
    [({}, eventFor .created), (afterEvents [.created], eventFor .updated)] (eventFor .deleted)
    ⟨rfl, rfl, List.Pairwise.nil⟩ (.cons rfl (.cons rfl (.nil _))) rfl "c1" rfl
  have hrow : (⟨0, "mydb", "c1", none⟩ : SourceSchema) ∈
      (afterEvents [.created, .updated, .deleted]).schemas := by decide
  exact habsent.2 _ hrow rfl

end Synchronizer

end TeiidSyndesis.OpenShift
