/-
# TeiidSyndesis.Server.ReplayedViews — an archive is replayed, view by view.

An import does not copy the views of an archive, it replays each as the upsert of a new view, without
the source paths and the parsable flag that the archive does not carry.  A generated view is generated
again, now without sources; a user defined text is parsed again, and its annotation replaces the
description.  So the row an archived view becomes is a function of the archived view: `replay` and
`replayParsable`.

Main results: `replayOf_updated` — one upsert makes a row that says what the replay does;
`upsertAll_replayOf` — the loop over the views appends one such row for each; `import_replays` — under a
fresh name an import never fails, and the tables it leaves violate no constraint.
-/
import Mathlib.Data.List.Forall2
import TeiidSyndesis.Server.DvServer

namespace TeiidSyndesis.Server

open TeiidSyndesis.Library TeiidSyndesis.Model TeiidSyndesis.Repository

variable {teiid : Teiid} {finder : SchemaFinder}

/-! ## The replay of an archived view -/

/-- The DDL of a generated view without sources. -/
def sourcelessDdl (teiid : Teiid) (viewName : String) (description : Option String) : String :=
  startView teiid viewName ++ getTableAnnotation description ++ "AS \nSELECT 1 as col;"

/-- What an archived view says when it has been imported and is exported again. -/
def replay (teiid : Teiid) (adapter : ViewDefinitionV1) : ViewDefinitionV1 :=
  if !adapter.complete then adapter
  else if !adapter.userDefined then
    { adapter with ddl := some (sourcelessDdl teiid adapter.name adapter.description) }
  else
    match adapter.ddl.bind (usableTable teiid adapter.name) with
    | some t => { adapter with description := t.annotation.or adapter.description }
    | none => adapter

/-- Whether the view is parsable then. -/
def replayParsable (teiid : Teiid) (adapter : ViewDefinitionV1) : Bool :=
  if !adapter.complete then false
  else if !adapter.userDefined then true
  else
    match adapter.ddl with
    | some ddl =>
        (usableTable teiid adapter.name ddl).isSome && (teiid.parse ddl).metadataException.isNone
    | none => false

/-- A replay keeps the name of the view. -/
theorem name_replay (adapter : ViewDefinitionV1) : (replay teiid adapter).name = adapter.name := by
  unfold replay
  split
  · rfl
  · split
    · rfl
    · split <;> rfl

/-! ## The row an archived view becomes -/

/-- Without paths the generated text reads from no table. -/
theorem getODataViewDdl_sourceless {view : ViewDefinition} (hcomplete : view.complete = true)
    (hpaths : view.sourcePaths = []) :
    getODataViewDdl teiid finder view =
      .ok (some (sourcelessDdl teiid view.name view.description)) := by
  unfold getODataViewDdl getSourceTableInfos
  rw [if_pos hcomplete, if_pos hcomplete, hpaths]
  rfl

/-- A new row of an import, before its upsert. -/
structure NewRow (dvName : String) (adapter : ViewDefinitionV1) (row : ViewDefinition) : Prop where
  name : row.name = adapter.name
  dataVirtualizationName : row.dataVirtualizationName = dvName
  ddl : row.ddl = none
  parsable : row.parsable = false

/-- No replay fails: there are no sources to look up. -/
theorem updateView_isOk {dvName : String} {adapter : ViewDefinitionV1} {row : ViewDefinition} :
    ∃ updated touched, updateView teiid finder row (importedEntity dvName adapter) true =
      .ok (updated, touched) := by
  unfold updateView updateDdl
  dsimp only
  cases hcomplete : (copyRequest row (importedEntity dvName adapter)).complete with
  | false => exact ⟨_, _, rfl⟩
  | true =>
      rw [if_pos rfl]
      cases huser : (copyRequest row (importedEntity dvName adapter)).userDefined with
      | false =>
          have hddl := @getODataViewDdl_sourceless teiid finder
            (copyRequest row (importedEntity dvName adapter)) hcomplete rfl
          unfold updateGenerated
          rw [hddl]
          simp only [Bool.not_true, Bool.false_and, Bool.not_false, Bool.or_true, Bool.true_or,
            if_true]
          exact ⟨_, _, rfl⟩
      | true =>
          rw [if_neg (by simp)]
          split
          · split
            · exact ⟨_, _, rfl⟩
            · exact ⟨_, _, rfl⟩
          · exact ⟨_, _, rfl⟩

/-- The row of a copy says what the replay of the archived view does. -/
structure ReplayOf (teiid : Teiid) (dvName : String) (adapter : ViewDefinitionV1)
    (row : ViewDefinition) : Prop where
  dataVirtualizationName : row.dataVirtualizationName = dvName
  /-- it is exported as the replay of the archived view -/
  content : { exportView row with id := adapter.id } = replay teiid adapter
  parsable : row.parsable = replayParsable teiid adapter
  sourcePaths : row.sourcePaths = []

/-- The row has the name that was archived. -/
theorem ReplayOf.name {dvName : String} {adapter : ViewDefinitionV1} {row : ViewDefinition}
    (h : ReplayOf teiid dvName adapter row) : row.name = adapter.name :=
  (congrArg ViewDefinitionV1.name h.content).trans (name_replay adapter)

/-- One upsert of an archived view makes a row that says what its replay does. -/
theorem replayOf_updated {dvName : String} {adapter : ViewDefinitionV1} {row updated : ViewDefinition}
    {touched : Bool} (hrow : NewRow dvName adapter row)
    (h : UpdatedView teiid finder row (importedEntity dvName adapter) true updated touched) :
    ReplayOf teiid dvName adapter updated := by
  obtain ⟨hname, hdv, hddl, hparsable⟩ := hrow
  obtain ⟨id, name, archivedDdl, description, complete, userDefined⟩ := adapter
  -- one case for each way an upsert ends; the row is new, so no text is trusted
  cases h with
  | incomplete hcomplete =>
      have hview : complete = false := hcomplete
      constructor <;> simp [replay, replayParsable, copyRequest, importedEntity, exportView, *]
  | generated hcomplete huser _ hgenerated =>
      have hview : complete = true := hcomplete
      have hviewUser : userDefined = false := huser
      have hsourceless := @getODataViewDdl_sourceless teiid finder
        (copyRequest row (importedEntity dvName
          { id := id, name := name, ddl := archivedDdl, description := description
            complete := complete, userDefined := userDefined })) hcomplete rfl
      rw [hsourceless] at hgenerated
      obtain rfl := Option.some.inj (Except.ok.inj hgenerated)
      constructor <;> simp [replay, replayParsable, copyRequest, importedEntity, exportView, *]
  | trusted _ _ _ hcreated => cases hcreated
  | @accepted ddl t hcomplete huser htext _ ht hexception =>
      have hview : complete = true := hcomplete
      have hviewUser : userDefined = true := huser
      have hviewDdl : archivedDdl = some ddl := htext
      rw [hname] at ht
      constructor <;> simp [replay, replayParsable, copyRequest, importedEntity, exportView, *]
  | @partlyParsed ddl exception t hcomplete huser htext _ ht hexception =>
      have hview : complete = true := hcomplete
      have hviewUser : userDefined = true := huser
      have hviewDdl : archivedDdl = some ddl := htext
      rw [hname] at ht
      constructor <;> simp [replay, replayParsable, copyRequest, importedEntity, exportView, *]
  | @unusable ddl hcomplete huser htext _ ht =>
      have hview : complete = true := hcomplete
      have hviewUser : userDefined = true := huser
      have hviewDdl : archivedDdl = some ddl := htext
      rw [hname] at ht
      constructor <;> simp [replay, replayParsable, copyRequest, importedEntity, exportView, *]
  | unread hcomplete huser htext =>
      have hview : complete = true := hcomplete
      have hviewUser : userDefined = true := huser
      have hviewDdl : archivedDdl = none := by
        rcases htext with hnone | hsame
        · exact hnone
        · exact hsame.trans hddl
      constructor <;> simp [replay, replayParsable, copyRequest, importedEntity, exportView, *]

/-- A flush changes its version only. -/
theorem ReplayOf.flushed {dvName : String} {adapter : ViewDefinitionV1} {old row : ViewDefinition}
    (h : ReplayOf teiid dvName adapter row) :
    ReplayOf teiid dvName adapter (Store.flushed old row) := by
  rcases Store.flushed_eq_or old row with heq | heq
  · rw [heq]
    exact h
  · rw [heq]
    exact ⟨h.dataVirtualizationName, h.content, h.parsable, h.sourcePaths⟩

/-! ## The rows of an archive -/

/-- Rows have been appended, and one virtualization at most touched. -/
structure Appended (dvName : String) (store store' : Store) (rows : List ViewDefinition) : Prop where
  views : store'.views = store.views ++ rows
  /-- drawn one after another -/
  ids : rows.map (·.id) = (List.range' store.nextId rows.length).map some
  nextId : store'.nextId = store.nextId + rows.length
  names : store'.virtualizations.map (·.name) = store.virtualizations.map (·.name)
  schemas : store'.schemas = store.schemas
  description : (store'.findDataVirtualization dvName).map (·.description) =
    (store.findDataVirtualization dvName).map (·.description)
  /-- virtualizations change their versions only -/
  kept : ∀ dv' ∈ store'.virtualizations, ∃ dv ∈ store.virtualizations,
    dv.name = dv'.name ∧ dv.description = dv'.description

/-- Rows that are appended in two goes. -/
theorem Appended.append {dvName : String} {store mid store' : Store}
    {rows rows' : List ViewDefinition} (h : Appended dvName store mid rows)
    (h' : Appended dvName mid store' rows') : Appended dvName store store' (rows ++ rows') where
  views := by rw [h'.views, h.views, List.append_assoc]
  ids := by
    rw [List.map_append, h.ids, h'.ids, h.nextId, List.length_append, ← List.range'_append_1,
      List.map_append]
  nextId := by
    rw [h'.nextId, h.nextId, List.length_append]
    omega
  names := h'.names.trans h.names
  schemas := h'.schemas.trans h.schemas
  description := h'.description.trans h.description
  kept := by
    intro dv' hdv'
    obtain ⟨dv, hdv, hname, hdescription⟩ := h'.kept dv' hdv'
    obtain ⟨old, hold, hname', hdescription'⟩ := h.kept dv hdv
    exact ⟨old, hold, hname'.trans hname, hdescription'.trans hdescription⟩

theorem Appended.refl (dvName : String) (store : Store) : Appended dvName store store [] :=
  ⟨(List.append_nil _).symm, rfl, rfl, rfl, rfl, rfl, fun dv hdv => ⟨dv, hdv, rfl, rfl⟩⟩

/-- A touch leaves the names and the descriptions. -/
theorem touched_frame {base mid : Store} {touched : Bool} {virtualization dvName : String}
    (h : (if touched then base.touch virtualization else .ok base) = .ok mid) :
    mid.virtualizations.map (·.name) = base.virtualizations.map (·.name) ∧
      mid.schemas = base.schemas ∧ mid.nextId = base.nextId ∧
      (mid.findDataVirtualization dvName).map (·.description) =
        (base.findDataVirtualization dvName).map (·.description) ∧
      ∀ dv' ∈ mid.virtualizations, ∃ dv ∈ base.virtualizations,
        dv.name = dv'.name ∧ dv.description = dv'.description := by
  cases touched with
  | false =>
      cases h
      exact ⟨rfl, rfl, rfl, rfl, fun dv hdv => ⟨dv, hdv, rfl, rfl⟩⟩
  | true =>
      obtain ⟨dv, hfind, rfl⟩ := Store.touch_eq_ok.mp h
      refine ⟨map_key_writeRow _ _, rfl, rfl, ?_, ?_⟩
      · rw [Store.findDataVirtualization_write]
        split
        · rename_i hname
          have hown : base.findDataVirtualization dvName = some dv := by
            rw [hname]
            show base.findDataVirtualization dv.name = some dv
            rw [Store.name_of_findDataVirtualization hfind, hfind]
          rw [hown]
          rfl
        · rfl
      · intro dv' hdv'
        rcases mem_writeRow hdv' with rfl | ⟨hold, _⟩
        · exact ⟨dv, List.mem_of_find?_eq_some hfind, rfl, rfl⟩
        · exact ⟨dv', hold, rfl, rfl⟩

/-- One archived view, upserted into a virtualization that has none of its name. -/
theorem upsert_replayOf {dvName : String} {store : Store} {adapter : ViewDefinitionV1}
    (hdrawn : ∀ other ∈ store.views, ∀ id ∈ other.id, id < store.nextId)
    (hdv : (store.findDataVirtualization dvName).isSome)
    (hnew : ∀ other ∈ store.views, other.dataVirtualizationName = dvName →
      teiid.toUpperCase other.name ≠ teiid.toUpperCase adapter.name) :
    ∃ store' row,
      (upsertViewEditorState teiid finder store (importedEntity dvName adapter)).map (·.1) =
        .ok store' ∧
        Appended dvName store store' [row] ∧ ReplayOf teiid dvName adapter row := by
  have hfound : findPersistent teiid store (importedEntity dvName adapter) = .ok none := by
    show Except.ok (store.findViewDefinitionByNameIgnoreCase teiid dvName adapter.name) = _
    unfold Store.findViewDefinitionByNameIgnoreCase
    rw [List.find?_eq_none.mpr]
    intro other hother
    simpa using hnew other hother
  -- the row the upsert works on, and the tables with it
  let created := store.persisted { name := adapter.name, dataVirtualizationName := dvName }
  let base := store.persist { name := adapter.name, dataVirtualizationName := dvName }
  have hcreated : NewRow dvName adapter created := ⟨rfl, rfl, rfl, rfl⟩
  obtain ⟨updated, touched, hupdate⟩ := @updateView_isOk teiid finder dvName adapter created
  have hcases := updateView_cases hupdate
  obtain ⟨hid, _, hown, _⟩ := hcases.frame
  have hmid : ∃ mid, (if touched then base.touch updated.dataVirtualizationName else .ok base) =
      .ok mid := by
    cases touched with
    | false => exact ⟨base, rfl⟩
    | true =>
        obtain ⟨dv, hfind⟩ := Option.isSome_iff_exists.mp hdv
        exact ⟨_, Store.touch_eq_ok.mpr ⟨dv, by rw [hown]; exact hfind, rfl⟩⟩
  obtain ⟨mid, hmid⟩ := hmid
  obtain ⟨hnames, hschemas, hnextId, hdescription, hkept⟩ := @touched_frame _ _ _ _ dvName hmid
  have hrowId : (Store.flushed created updated).id = some store.nextId := id_flushed hid
  have hviews : (mid.writeViewDefinition (Store.flushed created updated)).views =
      store.views ++ [Store.flushed created updated] := by
    show writeRow ViewDefinition.id _ mid.views = _
    rw [views_of_touched hmid]
    -- the identifier of the new row is larger than any that was drawn
    refine writeRow_append ?_ hrowId.symm
    intro other hother heq
    have hlt := hdrawn other hother store.nextId (heq.trans hrowId)
    omega
  refine ⟨mid.writeViewDefinition (Store.flushed created updated), Store.flushed created updated,
    ?_, ?_, (replayOf_updated hcreated hcases).flushed⟩
  · refine map_eq_ok.mpr ⟨(_, updated), upsertViewEditorState_eq_ok.mpr ?_, rfl⟩
    exact ⟨none, base, created, touched, mid, hfound, rfl, hupdate, hmid, rfl⟩
  · exact ⟨hviews, by rw [List.map_singleton, hrowId]; rfl, hnextId, hnames, hschemas, hdescription,
      hkept⟩

/-- The tables a replay leaves are ready for the views of other names. -/
theorem Appended.ready {dvName : String} {store mid : Store} {row : ViewDefinition}
    (h : Appended dvName store mid [row])
    (hdrawn : ∀ other ∈ store.views, ∀ id ∈ other.id, id < store.nextId)
    (hdv : (store.findDataVirtualization dvName).isSome) :
    (∀ other ∈ mid.views, ∀ id ∈ other.id, id < mid.nextId) ∧
      (mid.findDataVirtualization dvName).isSome := by
  have hrowId : row.id = some store.nextId := by simpa using h.ids
  have hnextId : mid.nextId = store.nextId + 1 := h.nextId
  constructor
  · intro other hother id hid
    rw [h.views] at hother
    rcases List.mem_append.mp hother with hold | hrow
    · have hlt := hdrawn other hold id hid
      omega
    · rw [List.mem_singleton.mp hrow, hrowId] at hid
      have heq : store.nextId = id := Option.some.inj hid
      omega
  · have hdescription := congrArg Option.isSome h.description
    rw [Option.isSome_map, Option.isSome_map, hdv] at hdescription
    exact hdescription

/-- All views of an archive, one after another. -/
theorem upsertAll_replayOf {dvName : String} {adapters : List ViewDefinitionV1} {store : Store}
    (hdrawn : ∀ other ∈ store.views, ∀ id ∈ other.id, id < store.nextId)
    (hdv : (store.findDataVirtualization dvName).isSome)
    (hdistinct : (adapters.map fun adapter => teiid.toUpperCase adapter.name).Nodup)
    (hnew : ∀ adapter ∈ adapters, ∀ other ∈ store.views, other.dataVirtualizationName = dvName →
      teiid.toUpperCase other.name ≠ teiid.toUpperCase adapter.name) :
    ∃ store' rows,
      upsertAll teiid finder store (adapters.map (importedEntity dvName)) = .ok store' ∧
        Appended dvName store store' rows ∧ List.Forall₂ (ReplayOf teiid dvName) adapters rows := by
  -- on the views of the archive; each row that is inserted leaves the names that follow free
  induction adapters generalizing store with
  | nil => exact ⟨store, [], rfl, .refl dvName store, .nil⟩
  | cons adapter adapters ih =>
      rw [List.map_cons, List.nodup_cons] at hdistinct
      rw [List.forall_mem_cons] at hnew
      obtain ⟨mid, row, hupsert, happended, hreplay⟩ :=
        @upsert_replayOf teiid finder dvName store adapter hdrawn hdv hnew.1
      obtain ⟨hdrawn', hdv'⟩ := happended.ready hdrawn hdv
      have hname : row.name = adapter.name := hreplay.name
      have hnew' : ∀ other ∈ adapters, ∀ old ∈ mid.views, old.dataVirtualizationName = dvName →
          teiid.toUpperCase old.name ≠ teiid.toUpperCase other.name := by
        intro other hother old hold hown
        rw [happended.views] at hold
        rcases List.mem_append.mp hold with hstore | hrow
        · exact hnew.2 other hother old hstore hown
        · rw [List.mem_singleton.mp hrow, hname]
          intro heq
          exact hdistinct.1 (List.mem_map.mpr ⟨other, hother, heq.symm⟩)
      obtain ⟨store', rows, hrest, happended', hreplays⟩ := ih hdrawn' hdv' hdistinct.2 hnew'
      refine ⟨store', row :: rows, ?_, happended.append happended', .cons hreplay hreplays⟩
      unfold upsertAll at hrest ⊢
      rw [List.map_cons, List.foldlM_cons]
      exact bind_eq_ok.mpr ⟨mid, hupsert, hrest⟩

/-- The rows have the archived names, in their order. -/
theorem names_of_replays {dvName : String} {adapters : List ViewDefinitionV1}
    {rows : List ViewDefinition} (h : List.Forall₂ (ReplayOf teiid dvName) adapters rows) :
    rows.map (·.name) = adapters.map (·.name) := by
  induction h with
  | nil => rfl
  | cons hreplay _ ih => rw [List.map_cons, List.map_cons, ih, hreplay.name]

/-! ## The constraints -/

/-- They are rows of the virtualization that is imported into. -/
theorem own_of_replays {dvName : String} {adapters : List ViewDefinitionV1} {rows : List ViewDefinition}
    (h : List.Forall₂ (ReplayOf teiid dvName) adapters rows) :
    ∀ row ∈ rows, row.dataVirtualizationName = dvName := by
  induction h with
  | nil => exact nofun
  | cons hreplay _ ih => exact List.forall_mem_cons.mpr ⟨hreplay.dataVirtualizationName, ih⟩

/-- The constraint on view names sees the archived names, under the name that is imported to. -/
theorem pairs_of_replays {dvName : String} {adapters : List ViewDefinitionV1}
    {rows : List ViewDefinition} (h : List.Forall₂ (ReplayOf teiid dvName) adapters rows) :
    rows.map (fun row => (teiid.toUpperCase row.name, row.dataVirtualizationName)) =
      adapters.map fun adapter => (teiid.toUpperCase adapter.name, dvName) := by
  induction h with
  | nil => rfl
  | cons hreplay _ ih =>
      rw [List.map_cons, List.map_cons, hreplay.name, hreplay.dataVirtualizationName, ih]

/-- The identifier of an appended row was drawn for it. -/
theorem Appended.drawn {dvName : String} {store store' : Store} {rows : List ViewDefinition}
    (h : Appended dvName store store' rows) {id : Nat} (hid : some id ∈ rows.map (·.id)) :
    store.nextId ≤ id ∧ id < store'.nextId := by
  rw [h.ids] at hid
  obtain ⟨k, hk, hsame⟩ := List.mem_map.mp hid
  obtain rfl := Option.some.inj hsame
  rw [List.mem_range'_1] at hk
  rw [h.nextId]
  exact hk

/-- The identifiers of appended rows are above all that were drawn before. -/
theorem ids_appended {dvName : String} {store store' : Store}
    {rows : List ViewDefinition} (hs : store.Consistent teiid)
    (happended : Appended dvName store store' rows) : (store'.views.map (·.id)).Nodup := by
  rw [happended.views, List.map_append, List.nodup_append]
  refine ⟨hs.ids, ?_, ?_⟩
  · rw [happended.ids]
    have hdraws : (List.range' store.nextId rows.length).Nodup := List.nodup_range'
    exact hdraws.map fun _ _ heq => Option.some.inj heq
  · rintro _ hold id hadded rfl
    obtain ⟨view, hview, hid⟩ := List.mem_map.mp hold
    cases hsome : view.id with
    | none =>
        rw [happended.ids, ← hid, hsome] at hadded
        simp at hadded
    | some k =>
        rw [← hid, hsome] at hadded
        have hlt := hs.drawn view hview k hsome
        have hle := (happended.drawn hadded).1
        omega

/-- The names of appended rows are distinct, and those of a virtualization that had no view. -/
theorem viewNames_appended {dvName : String} {store store' : Store}
    {adapters : List ViewDefinitionV1} {rows : List ViewDefinition} (hs : store.Consistent teiid)
    (happended : Appended dvName store store' rows)
    (hreplays : List.Forall₂ (ReplayOf teiid dvName) adapters rows)
    (hdistinct : (adapters.map fun adapter => teiid.toUpperCase adapter.name).Nodup)
    (hnew : ∀ other ∈ store.views, other.dataVirtualizationName ≠ dvName) :
    (store'.views.map fun view =>
      (teiid.toUpperCase view.name, view.dataVirtualizationName)).Nodup := by
  rw [happended.views, List.map_append, pairs_of_replays hreplays, List.nodup_append]
  refine ⟨hs.viewNames, ?_, ?_⟩
  · have hpairs : (adapters.map fun adapter => (teiid.toUpperCase adapter.name, dvName)) =
        (adapters.map fun adapter => teiid.toUpperCase adapter.name).map fun name => (name, dvName) := by
      rw [List.map_map]
      rfl
    rw [hpairs]
    exact hdistinct.map fun _ _ heq => (Prod.mk.inj heq).1
  · rintro _ hold pair hadded rfl
    obtain ⟨other, hother, hpair⟩ := List.mem_map.mp hold
    obtain ⟨adapter, _, hsame⟩ := List.mem_map.mp hadded
    rw [← hpair] at hsame
    exact hnew other hother (Prod.mk.inj hsame).2.symm

/-- The rows that are appended violate no constraint. -/
theorem consistent_appended {dvName : String} {store store' : Store}
    {adapters : List ViewDefinitionV1} {rows : List ViewDefinition} (hs : store.Consistent teiid)
    (happended : Appended dvName store store' rows)
    (hreplays : List.Forall₂ (ReplayOf teiid dvName) adapters rows)
    (hdistinct : (adapters.map fun adapter => teiid.toUpperCase adapter.name).Nodup)
    (hreference : dvName ∈ store.rowNames)
    (hnew : ∀ other ∈ store.views, other.dataVirtualizationName ≠ dvName) :
    store'.Consistent teiid := by
  have hrowNames : store'.rowNames = store.rowNames := by
    unfold Store.rowNames
    rw [happended.names, happended.schemas]
  constructor
  · rw [hrowNames]
    exact hs.names
  · rw [happended.schemas]
    exact hs.sourceIds
  -- the ids are drawn from the counter, the names are those of the archive
  · exact ids_appended hs happended
  · intro row hrow id hid
    rw [happended.views] at hrow
    rcases List.mem_append.mp hrow with hold | hadded
    · have hlt := hs.drawn row hold id hid
      rw [happended.nextId]
      omega
    · have hmem : some id ∈ rows.map (·.id) := List.mem_map.mpr ⟨row, hadded, hid⟩
      exact (happended.drawn hmem).2
  · exact viewNames_appended hs happended hreplays hdistinct hnew
  · intro row hrow
    rw [hrowNames]
    rw [happended.views] at hrow
    rcases List.mem_append.mp hrow with hold | hadded
    · exact hs.references row hold
    · rw [own_of_replays hreplays row hadded]
      exact hreference

/-! ## An import under a fresh name -/

/-- A virtualization of the name can be created. -/
def Fresh {teiid : Teiid} (db : Database teiid) (name : String) : Prop :=
  ∃ db', createDataVirtualization teiid db.store { name := some name } >>= commit teiid = .ok db'

/-- A name is fresh exactly if the creation is committed. -/
theorem fresh_iff {teiid : Teiid} {db : Database teiid} {name : String} :
    Fresh db name ↔
      (createDataVirtualization teiid db.store { name := some name } >>= commit teiid).isOk = true := by
  unfold Fresh
  cases createDataVirtualization teiid db.store { name := some name } >>= commit teiid with
  | error failure => exact iff_of_false nofun nofun
  | ok db' => exact iff_of_true ⟨db', rfl⟩ rfl

instance {teiid : Teiid} (db : Database teiid) (name : String) : Decidable (Fresh db name) :=
  decidable_of_iff _ fresh_iff.symm

/-- The names in the table of virtualizations and schemas, with the new one. -/
theorem rowNames_create (store : Store) (name : String) (description : Option String) :
    (store.createDataVirtualization name description).rowNames =
      store.virtualizations.map (·.name) ++ [name] ++ store.schemas.map (·.name) := by
  unfold Store.rowNames Store.createDataVirtualization
  rw [List.map_append, List.map_singleton]

/-- The name of a request is the one it has to give. -/
theorem requiredName_eq_ok {rest : RestDataVirtualization} {name restName : String}
    (hname : rest.name = some name) (h : requiredName rest = .ok restName) : restName = name := by
  unfold requiredName at h
  rw [hname] at h
  dsimp only at h
  split at h
  · cases h
  · cases h
    rfl

/-- What can be created can be created with any description. -/
theorem created_of_fresh {db : Database teiid} {name : String} (h : Fresh db name)
    (description : Option String) :
    createDataVirtualization teiid db.store { name := some name, description := description } =
        .ok (db.store.createDataVirtualization name description) ∧
      (db.store.createDataVirtualization name description).Consistent teiid := by
  obtain ⟨db', h⟩ := h
  obtain ⟨created, hcreate, hcommit⟩ := bind_eq_ok.mp h
  unfold createDataVirtualization at hcreate
  obtain ⟨restName, hrequired, hcreate⟩ := bind_eq_ok.mp hcreate
  obtain rfl := requiredName_eq_ok rfl hrequired
  cases hmessage : getValidationMessage teiid restName with
  | some message =>
      rw [hmessage] at hcreate
      cases hcreate
  | none =>
      rw [hmessage] at hcreate
      obtain rfl := pure_eq_ok.mp hcreate
      -- the creation was committed, so its rows meet the constraints
      have hconsistent := db'.consistent
      rw [commit_eq_ok.mp hcommit] at hconsistent
      obtain ⟨hnames, hsourceIds, hids, hdrawn, hviewNames, hreferences⟩ := hconsistent
      rw [rowNames_create] at hnames
      rw [rowNames_create] at hreferences
      constructor
      · unfold createDataVirtualization
        refine bind_eq_ok.mpr ⟨restName, hrequired, ?_⟩
        rw [hmessage]
        rfl
      · refine ⟨?_, hsourceIds, hids, hdrawn, hviewNames, ?_⟩
        · rw [rowNames_create]
          exact hnames
        · rw [rowNames_create]
          exact hreferences

/-- Nothing bears the name of a virtualization that is created. -/
theorem new_of_created {db : Database teiid} {name : String}
    {description : Option String}
    (h : (db.store.createDataVirtualization name description).Consistent teiid) :
    db.store.findDataVirtualization name = none ∧
      ∀ other ∈ db.store.views, other.dataVirtualizationName ≠ name := by
  have hnames := h.names
  rw [rowNames_create] at hnames
  have hdistinct := List.Nodup.of_map _ hnames
  rw [List.append_assoc, List.nodup_append] at hdistinct
  obtain ⟨_, hschemas, hvirtualizations⟩ := hdistinct
  have hvirtualization : ∀ other ∈ db.store.virtualizations.map (·.name), other ≠ name :=
    fun other hother => hvirtualizations other hother name List.mem_cons_self
  have hschema : name ∉ db.store.schemas.map (·.name) := (List.nodup_cons.mp hschemas).1
  constructor
  · unfold Store.findDataVirtualization
    rw [List.find?_eq_none]
    intro dv hdv
    simpa using hvirtualization dv.name (List.mem_map_of_mem hdv)
  · rintro other hother rfl
    rcases List.mem_append.mp (db.consistent.references other hother) with hold | hold
    · exact hvirtualization _ hold rfl
    · exact hschema hold

/-- The views of the archive differ in more than the case of their names, as those of one
virtualization do. -/
def DistinctViews (teiid : Teiid) (archive : DataVirtualizationV1) : Prop :=
  (archive.views.map fun adapter => teiid.toUpperCase adapter.name).Nodup

instance (teiid : Teiid) (archive : DataVirtualizationV1) : Decidable (DistinctViews teiid archive) :=
  inferInstanceAs (Decidable (List.Nodup _))

/-- What an import under a fresh name leaves: the virtualization with the description of the archive, and
a row for each of its views. -/
structure ArchiveImported (teiid : Teiid) (db : Database teiid) (name : String) (archive : DataVirtualizationV1)
    (store : Store) (rows : List ViewDefinition) : Prop where
  consistent : store.Consistent teiid
  views : store.views = db.store.views ++ rows
  replays : List.Forall₂ (ReplayOf teiid name) archive.views rows
  /-- the new virtualization has the new views and no others -/
  own : store.findViewDefinitions name = rows
  description : (store.findDataVirtualization name).map (·.description) = some archive.description
  /-- the other virtualizations keep names and descriptions -/
  kept : ∀ dv' ∈ store.virtualizations,
    (∃ dv ∈ db.store.virtualizations, dv.name = dv'.name ∧ dv.description = dv'.description) ∨
      (dv'.name = name ∧ dv'.description = archive.description)

/-- An import under a fresh name does not fail, and violates no constraint. -/
theorem import_replays {db : Database teiid} {name : String} {archive : DataVirtualizationV1}
    (hdistinct : DistinctViews teiid archive) (hfresh : Fresh db name) :
    ∃ store' statuses rows,
      importDataVirtualization teiid finder db.store (some name) archive = .ok (store', statuses) ∧
        ArchiveImported teiid db name archive store' rows := by
  obtain ⟨hcreate, hconsistent⟩ := created_of_fresh hfresh archive.description
  -- a new virtualization has no view yet, so each view of the archive is inserted
  obtain ⟨hnone, hnew⟩ := new_of_created hconsistent
  have hcreated : ((db.store.createDataVirtualization name
      archive.description).findDataVirtualization name).map (·.description) =
        some archive.description := by
    unfold Store.findDataVirtualization at hnone
    unfold Store.findDataVirtualization Store.createDataVirtualization
    rw [List.find?_append, hnone]
    simp
  have hdv := congrArg Option.isSome hcreated
  rw [Option.isSome_map] at hdv
  obtain ⟨store', rows, hupserts, happended, hreplays⟩ :=
    @upsertAll_replayOf teiid finder name archive.views _ hconsistent.drawn hdv hdistinct
      fun _ _ other hother hown => absurd hown (hnew other hother)
  have hreference :
      name ∈ (db.store.createDataVirtualization name archive.description).rowNames := by
    rw [rowNames_create]
    simp
  have hrows : store'.findViewDefinitions name = rows := by
    unfold Store.findViewDefinitions
    rw [happended.views, List.filter_append, List.filter_eq_nil_iff.mpr, List.filter_eq_self.mpr,
      List.nil_append]
    · intro row hrow
      simpa using own_of_replays hreplays row hrow
    · intro other hother
      simpa using hnew other hother
  refine ⟨store', sourceStatuses finder db.store archive.sources, rows, ?_, ?_⟩
  · exact bind_eq_ok.mpr ⟨_, hcreate, bind_eq_ok.mpr ⟨store', hupserts, rfl⟩⟩
  · refine ⟨consistent_appended hconsistent happended hreplays hdistinct hreference hnew,
      happended.views, hreplays, hrows, happended.description.trans hcreated, ?_⟩
    intro dv' hdv'
    obtain ⟨dv, hmem, hname, hdescription⟩ := happended.kept dv' hdv'
    rcases List.mem_append.mp hmem with hold | hadded
    · exact .inl ⟨dv, hold, hname, hdescription⟩
    · cases List.mem_singleton.mp hadded
      exact .inr ⟨hname.symm, hdescription.symm⟩

end TeiidSyndesis.Server
