/-
# TeiidSyndesis.Server.PreviewCoherence — the version of a virtualization as the key of its preview.

`updatePreviewVdb` compares version numbers, so an operation that changes the texts of the complete and
parsable views of a virtualization has to move its version on.  Creating, updating, deleting, removing
and importing do.  An upsert of an existing view does where it decides anew whether the view is
parsable, and otherwise only if it leaves what is previewed as it was: `versionFollows` is that
condition, and it is exact.

Main results:
* `previewed` — what the preview of a virtualization is generated from;
* `follows_create`, `follows_update`, `follows_remove`, `follows_import`, `follows_upsert` — each
  operation moves the version on where it changes that;
* `versioned_step_iff` — a step does so exactly if it meets `keepsVersion`;
* `previewsMatch_step`, `previews_coherent` — so in every run of such steps a preview that is returned is
  the one its views generate now.
-/
import TeiidSyndesis.Server.DvServer

namespace TeiidSyndesis.Server

open TeiidSyndesis.Library TeiidSyndesis.Model TeiidSyndesis.Repository

/-! ## What is previewed -/

/-- The texts of the views of a virtualization that are previewed. -/
def previewed (store : Store) (dvName : String) : List (Option String) :=
  usableDdls (store.findViewDefinitions dvName)

/-- What a row of the views adds to them. -/
def previewedOf (dvName : String) (view : ViewDefinition) : Option (Option String) :=
  if view.dataVirtualizationName = dvName then usableDdl view else none

/-- What is previewed, as a filter of all views. -/
theorem previewed_eq (store : Store) (dvName : String) :
    previewed store dvName = store.views.filterMap (previewedOf dvName) := by
  unfold previewed usableDdls Store.findViewDefinitions
  rw [List.filterMap_filter]
  refine List.filterMap_congr ?_
  intro view _
  simp [previewedOf]

/-- A view of another virtualization has no part in it. -/
theorem previewedOf_of_ne {dvName : String} {view : ViewDefinition}
    (h : view.dataVirtualizationName ≠ dvName) : previewedOf dvName view = none :=
  if_neg h

/-- From one store to the next a virtualization stays, and its version moves on or stays with its
texts. -/
def Follows (store store' : Store) (dvName : String) : Prop :=
  ∀ dv, store.findDataVirtualization dvName = some dv →
    ∃ dv', store'.findDataVirtualization dvName = some dv' ∧
      (dv.version < dv'.version ∨
        (dv'.version = dv.version ∧ previewed store' dvName = previewed store dvName))

/-- No texts change without the version. -/
def Versioned (store store' : Store) : Prop :=
  ∀ dvName dv dv', store.findDataVirtualization dvName = some dv →
    store'.findDataVirtualization dvName = some dv' → dv'.version = dv.version →
      previewed store' dvName = previewed store dvName

/-- Versions follow if they do for every virtualization that is left. -/
theorem versioned_of_follows {store store' : Store}
    (h : ∀ dvName, (store'.findDataVirtualization dvName).isSome → Follows store store' dvName) :
    Versioned store store' := by
  intro dvName dv dv' hfind hfind' hversion
  have hkept : (store'.findDataVirtualization dvName).isSome := by rw [hfind']; rfl
  obtain ⟨after, hafter, hfollows⟩ := h dvName hkept dv hfind
  rw [hfind'] at hafter
  cases hafter
  rcases hfollows with hlt | ⟨_, hsame⟩
  · omega
  · exact hsame

/-- Where nothing that is previewed changes, the version may stay. -/
theorem follows_of_same {store store' : Store} {dvName : String}
    (hfind : store'.findDataVirtualization dvName = store.findDataVirtualization dvName)
    (hviews : previewed store' dvName = previewed store dvName) : Follows store store' dvName := by
  intro dv hdv
  exact ⟨dv, hfind.trans hdv, .inr ⟨rfl, hviews⟩⟩

/-- A row that is written with a later version, other rows and all views as they were. -/
theorem follows_of_write {store : Store} {dv : DataVirtualization} (row : DataVirtualization)
    (hdv : store.findDataVirtualization row.name = some dv) (hversion : dv.version < row.version)
    {store' : Store} (hrows : store'.virtualizations =
      (store.writeDataVirtualization row).virtualizations) {dvName : String}
    (hviews : dvName ≠ row.name → previewed store' dvName = previewed store dvName) :
    Follows store store' dvName := by
  have hfind : store'.findDataVirtualization dvName =
      if dvName = row.name then (store.findDataVirtualization dvName).map fun _ => row
      else store.findDataVirtualization dvName := by
    rw [← Store.findDataVirtualization_write]
    unfold Store.findDataVirtualization
    rw [hrows]
  by_cases hown : dvName = row.name
  · subst hown
    intro dv₀ hdv₀
    rw [hdv] at hdv₀
    cases hdv₀
    rw [if_pos rfl, hdv] at hfind
    exact ⟨row, hfind, .inl hversion⟩
  · rw [if_neg hown] at hfind
    exact follows_of_same hfind (hviews hown)

/-! ## The other operations -/

/-- A virtualization that is created has no views. -/
theorem follows_create {teiid : Teiid} {store store' : Store} {rest : RestDataVirtualization}
    (h : createDataVirtualization teiid store rest = .ok store') (dvName : String) :
    Follows store store' dvName := by
  unfold createDataVirtualization at h
  obtain ⟨restName, _, h⟩ := bind_eq_ok.mp h
  split at h
  · cases h
  · cases pure_eq_ok.mp h
    intro dv hdv
    have hfind : (store.createDataVirtualization restName rest.description).findDataVirtualization
        dvName = some dv := by
      unfold Store.findDataVirtualization Store.createDataVirtualization
      unfold Store.findDataVirtualization at hdv
      rw [List.find?_append, hdv]
      rfl
    exact ⟨dv, hfind, .inr ⟨rfl, rfl⟩⟩

/-- An update of the description writes no view, and moves the version on. -/
theorem follows_update {store store' : Store} {virtualization : String}
    {rest : RestDataVirtualization} (h : updateDataVirtualization store virtualization rest = .ok store')
    (dvName : String) : Follows store store' dvName := by
  unfold updateDataVirtualization at h
  obtain ⟨restName, _, h⟩ := bind_eq_ok.mp h
  split at h
  · cases h
  · split at h
    · cases h
    · rename_i existing hfind
      split at h
      · cases pure_eq_ok.mp h
        exact follows_of_same rfl rfl
      · cases pure_eq_ok.mp h
        rw [← Store.name_of_findDataVirtualization hfind] at hfind
        exact follows_of_write
          { existing with description := rest.description, version := existing.version + 1 } hfind
          (Nat.lt_succ_self _) rfl fun _ => rfl

/-- The deleted virtualization is gone, the others stay. -/
theorem follows_delete {store store' : Store} {virtualization : String}
    (h : deleteDataVirtualization store virtualization = .ok store') (dvName : String) :
    (dvName = virtualization ∧ store'.findDataVirtualization dvName = none) ∨
      (dvName ≠ virtualization ∧ Follows store store' dvName) := by
  unfold deleteDataVirtualization Store.deleteDataVirtualization at h
  cases hfind : store.findDataVirtualization virtualization with
  | none =>
      rw [hfind] at h
      cases h
  | some deleted =>
      rw [hfind] at h
      cases h
      -- its own row is gone; the row of any other one is found as before
      by_cases hown : dvName = virtualization
      · left
        refine ⟨hown, ?_⟩
        unfold Store.findDataVirtualization
        rw [find?_filter_key DataVirtualization.name, if_pos hown]
      · refine .inr ⟨hown, follows_of_same ?_ ?_⟩
        · unfold Store.findDataVirtualization
          dsimp only
          rw [find?_filter_key DataVirtualization.name, if_neg hown]
        · -- the views that go with it add nothing to another virtualization
          rw [previewed_eq, previewed_eq]
          refine filterMap_filter_of_none ?_
          intro view _ hview
          have hdeleted : view.dataVirtualizationName = virtualization := by simpa using hview
          exact previewedOf_of_ne (by rw [hdeleted]; exact Ne.symm hown)

/-- A touch moves one version on; what is previewed elsewhere is as it was. -/
theorem follows_of_touch {before store mid store' : Store} {virtualization dvName : String}
    (hbefore : store.virtualizations = before.virtualizations)
    (h : store.touch virtualization = .ok mid) (hrows : store'.virtualizations = mid.virtualizations)
    (hviews : dvName ≠ virtualization → previewed store' dvName = previewed before dvName) :
    Follows before store' dvName := by
  obtain ⟨dv, hfind, rfl⟩ := Store.touch_eq_ok.mp h
  have hname := Store.name_of_findDataVirtualization hfind
  have hdv : before.findDataVirtualization dv.name = some dv := by
    unfold Store.findDataVirtualization at hfind ⊢
    rw [← hbefore, hname, hfind]
  have hwritten : store'.virtualizations =
      (before.writeDataVirtualization { dv with version := dv.version + 1 }).virtualizations := by
    rw [hrows]
    unfold Store.writeDataVirtualization
    rw [hbefore]
  refine follows_of_write { dv with version := dv.version + 1 } hdv (Nat.lt_succ_self _) hwritten ?_
  intro hne
  exact hviews (by rwa [← hname])

/-- A row that adds nothing is deleted without a trace. -/
theorem previewed_deleteViewDefinition {store : Store} {vd : ViewDefinition} {id : Nat}
    {dvName : String} (hids : (store.views.map (·.id)).Nodup)
    (hfind : store.findViewDefinition id = some vd) (hnone : previewedOf dvName vd = none) :
    previewed (store.deleteViewDefinition id) dvName = previewed store dvName := by
  rw [previewed_eq, previewed_eq]
  refine filterMap_filter_of_none ?_
  intro view hview hdeleted
  have hid : vd.id = some id := by simpa using List.find?_some hfind
  have hsame : view.id = vd.id := by
    rw [hid]
    simpa using hdeleted
  obtain rfl : view = vd :=
    List.inj_on_of_nodup_map hids hview (List.mem_of_find?_eq_some hfind) hsame
  exact hnone

/-- Removing a view touches its virtualization. -/
theorem follows_remove {store store' : Store} {id : Nat}
    (hids : (store.views.map (·.id)).Nodup) (h : removeViewDefinition store id = .ok store')
    (dvName : String) : Follows store store' dvName := by
  unfold removeViewDefinition at h
  cases hfind : store.findViewDefinition id with
  | none =>
      rw [hfind] at h
      cases h
  | some vd =>
      rw [hfind] at h
      dsimp only at h
      by_cases husable : (vd.complete && vd.parsable) = true
      -- a usable view is removed with a touch
      · rw [if_pos husable] at h
        obtain ⟨mid, hmid, h⟩ := bind_eq_ok.mp h
        cases pure_eq_ok.mp h
        have hrows : (mid.deleteViewDefinition id).virtualizations = mid.virtualizations := rfl
        refine follows_of_touch rfl hmid hrows ?_
        intro hne
        have hviews := Store.views_of_touch hmid
        have hdeleted := previewed_deleteViewDefinition hids hfind (previewedOf_of_ne hne.symm)
        rw [previewed_eq] at hdeleted ⊢
        unfold Store.deleteViewDefinition at hdeleted ⊢
        rw [hviews]
        exact hdeleted
      · -- without a touch, but the view was not previewed either
        rw [if_neg husable] at h
        cases pure_eq_ok.mp h
        have hnone : previewedOf dvName vd = none := by
          unfold previewedOf usableDdl
          rw [if_neg husable]
          exact ite_self none
        exact follows_of_same rfl (previewed_deleteViewDefinition hids hfind hnone)

/-- Writing a view row changes what is previewed exactly if it changes what the row adds. -/
theorem previewed_writeViewDefinition {store : Store} {old view : ViewDefinition}
    (hids : (store.views.map (·.id)).Nodup) (hold : old ∈ store.views) (hid : old.id = view.id)
    (dvName : String) :
    previewed (store.writeViewDefinition view) dvName = previewed store dvName ↔
      previewedOf dvName view = previewedOf dvName old := by
  rw [previewed_eq, previewed_eq]
  exact filterMap_writeRow hids hold hid (previewedOf dvName)

/-- The row that is written adds what the updated view does. -/
theorem previewedOf_flushed (old view : ViewDefinition) (dvName : String) :
    previewedOf dvName (Store.flushed old view) = previewedOf dvName view := by
  rcases Store.flushed_eq_or old view with h | h
  · rw [h]
  · rw [h]
    rfl

/-- Saving views writes no virtualization. -/
theorem persist_rows (toSave : List ViewDefinition) (store : Store) :
    (toSave.foldl Store.persist store).virtualizations = store.virtualizations := by
  induction toSave generalizing store with
  | nil => rfl
  | cons view toSave ih => exact ih (store.persist view)

/-- New views are appended, and add nothing to other virtualizations. -/
theorem previewed_persist {store : Store} {toSave : List ViewDefinition} {dvName : String}
    (h : ∀ view ∈ toSave, view.dataVirtualizationName ≠ dvName) :
    previewed (toSave.foldl Store.persist store) dvName = previewed store dvName := by
  induction toSave generalizing store with
  | nil => rfl
  | cons view toSave ih =>
      rw [List.forall_mem_cons] at h
      refine (@ih (store.persist view) h.2).trans ?_
      rw [previewed_eq, previewed_eq]
      have hnone : previewedOf dvName (store.persisted view) = none := previewedOf_of_ne h.1
      show (store.views ++ [store.persisted view]).filterMap (previewedOf dvName) = _
      rw [List.filterMap_append, List.filterMap_cons_none hnone, List.filterMap_nil, List.append_nil]

/-- What the loop of an import keeps: other virtualizations, and the identifiers of the views. -/
structure ImportsInto (virtualization : String) (before store : Store)
    (toSave : List ViewDefinition) : Prop where
  virtualizations : store.virtualizations = before.virtualizations
  /-- rows are rewritten in place -/
  ids : store.views.map (·.id) = before.views.map (·.id)
  /-- the previews of the other virtualizations read the same texts -/
  others : ∀ dvName, dvName ≠ virtualization → previewed store dvName = previewed before dvName
  own : ∀ view ∈ toSave, view.dataVirtualizationName = virtualization

/-- A view the loop writes is one of the virtualization that is imported into. -/
theorem importsInto_write {teiid : Teiid} {finder : SchemaFinder} {virtualization : String}
    {before store : Store} {toSave : List ViewDefinition} {viewDefn imported : ViewDefinition}
    (hids : (before.views.map (·.id)).Nodup) (hs : ImportsInto virtualization before store toSave)
    (hmem : viewDefn ∈ store.views) (hown : viewDefn.dataVirtualizationName = virtualization)
    (himported : Imported teiid finder viewDefn imported) :
    ImportsInto virtualization before
      (store.writeViewDefinition (Store.flushed viewDefn imported)) toSave where
  virtualizations := hs.virtualizations
  ids := (map_key_writeRow _ _).trans hs.ids
  others := by
    intro dvName hne
    have hid := (id_flushed himported.id).symm
    -- the row is of the virtualization, before and after, and in no other preview
    have hadds : previewedOf dvName (Store.flushed viewDefn imported) =
        previewedOf dvName viewDefn := by
      rw [previewedOf_flushed, previewedOf_of_ne, previewedOf_of_ne]
      · rw [hown]
        exact hne.symm
      · rw [himported.dataVirtualizationName, hown]
        exact hne.symm
    have hstoreIds : (store.views.map (·.id)).Nodup := by
      rw [hs.ids]
      exact hids
    exact ((previewed_writeViewDefinition hstoreIds hmem hid dvName).mpr hadds).trans
      (hs.others dvName hne)
  own := hs.own

/-- An import touches its virtualization before it writes views. -/
theorem follows_import {teiid : Teiid} {finder : SchemaFinder} {store store' : Store}
    {virtualization teiidSourceName : String} {tables : List String}
    (hids : (store.views.map (·.id)).Nodup)
    (h : importViews teiid finder store virtualization teiidSourceName tables = .ok store')
    (dvName : String) : Follows store store' dvName := by
  obtain ⟨_, _, imported, toSave, _, _, himport, htouch⟩ := importViews_ok h
  have hstart : ImportsInto virtualization store store [] :=
    ⟨rfl, rfl, fun _ _ => rfl, fun _ hview => nomatch hview⟩
  -- the loop writes rows of this virtualization only, so the other previews keep their texts
  have hinto : ImportsInto virtualization store imported toSave := by
    refine importTables_invariant ?_ ?_ hstart himport
    · intro mid collected viewDefn view hs hmem hown himported
      exact importsInto_write hids hs hmem hown himported
    · intro mid collected created hs hown _
      refine ⟨hs.virtualizations, hs.ids, hs.others, ?_⟩
      intro view hview
      rcases List.mem_append.mp hview with hold | hnew
      · exact hs.own view hold
      · rw [List.mem_singleton.mp hnew]
        exact hown
  have hrows : (toSave.foldl Store.persist imported).virtualizations = store.virtualizations :=
    (persist_rows _ _).trans hinto.virtualizations
  refine follows_of_touch hrows htouch rfl ?_
  intro hne
  have hviews := Store.views_of_touch htouch
  have hother : ∀ view ∈ toSave, view.dataVirtualizationName ≠ dvName := by
    intro view hview
    rw [hinto.own view hview]
    exact hne.symm
  rw [previewed_eq, hviews, ← previewed_eq, previewed_persist hother]
  exact hinto.others dvName hne

/-! ## Upserts -/

/-- The upsert of an existing view moves the version on, or leaves what is previewed. -/
def versionFollows (teiid : Teiid) (viewDefn restViewDefn : ViewDefinition) : Bool :=
  !viewDefn.parsable ||
    (if restViewDefn.complete then
      decidesParsable teiid viewDefn restViewDefn ||
        (viewDefn.complete && viewDefn.ddl == restViewDefn.ddl)
    else !viewDefn.complete)

/-- The row of an existing view: touched, or adding what it added. -/
theorem versionFollows_iff {teiid : Teiid} {finder : SchemaFinder}
    {viewDefn restViewDefn updated : ViewDefinition} {touched : Bool}
    (h : UpdatedView teiid finder viewDefn restViewDefn false updated touched) :
    versionFollows teiid viewDefn restViewDefn = true ↔
      (touched = true ∨ usableDdl updated = usableDdl viewDefn) := by
  obtain ⟨_, _, _, hupdated⟩ := h.frame
  unfold versionFollows usableDdl
  rw [hupdated]
  cases hcomplete : restViewDefn.complete with
  | false =>
      obtain ⟨_, htouched⟩ := h.of_incomplete hcomplete
      rw [htouched]
      cases hparsable : viewDefn.parsable <;> cases hviewComplete : viewDefn.complete <;> simp
  | true =>
      -- the flag is decided anew for this text, or it is the one of the row
      cases hdecides : decidesParsable teiid viewDefn restViewDefn with
      | true =>
          rcases h.decided hcomplete hdecides with htouched | ⟨hflag, hparsable⟩
          · simp [htouched]
          · simp [hflag, hparsable]
      | false =>
          obtain ⟨hddl, hflag, htouched⟩ := h.kept hcomplete hdecides
          rw [hddl, hflag, htouched]
          cases hparsable : viewDefn.parsable with
          | false => simp
          | true =>
              cases hviewComplete : viewDefn.complete with
              | false => simp
              | true =>
                  have hsame : viewDefn.ddl = restViewDefn.ddl ↔ restViewDefn.ddl = viewDefn.ddl :=
                    eq_comm
                  simpa using hsame

/-- A new view is previewed only if its virtualization is touched. -/
theorem touched_of_created {teiid : Teiid} {finder : SchemaFinder}
    {viewDefn restViewDefn updated : ViewDefinition} {touched : Bool}
    (h : UpdatedView teiid finder viewDefn restViewDefn true updated touched) :
    touched = true ∨ usableDdl updated = none := by
  cases h with
  | incomplete hcomplete =>
      right
      unfold usableDdl
      have hcopied : (copyRequest viewDefn restViewDefn).complete = false := hcomplete
      simp [hcopied]
  | trusted _ _ _ hcreated => cases hcreated
  | _ => exact .inl rfl

/-- Loading a row previews nothing new. -/
theorem previewed_loaded {teiid : Teiid} {store base : Store}
    {restViewDefn viewDefn : ViewDefinition} {created : Bool}
    (h : Loaded teiid store restViewDefn base viewDefn created) (dvName : String) :
    previewed base dvName = previewed store dvName := by
  obtain ⟨_, _, _, ⟨_, hincomplete, hviews⟩ | ⟨_, rfl⟩⟩ := loaded_row h
  · have hnone : previewedOf dvName viewDefn = none := by
      unfold previewedOf usableDdl
      rw [hincomplete]
      exact ite_self none
    rw [previewed_eq, previewed_eq, hviews, List.filterMap_append, List.filterMap_cons_none hnone,
      List.filterMap_nil, List.append_nil]
  · rfl

/-- What an upsert does to the virtualizations and to what is previewed. -/
theorem upsert_effect {teiid : Teiid} {finder : SchemaFinder} {store store' : Store}
    {restViewDefn view : ViewDefinition}
    (h : upsertViewEditorState teiid finder store restViewDefn = .ok (store', view))
    (hids : (store'.views.map (·.id)).Nodup) :
    ∃ base viewDefn created touched mid,
      Loaded teiid store restViewDefn base viewDefn created ∧
        UpdatedView teiid finder viewDefn restViewDefn created view touched ∧
        (if touched then base.touch view.dataVirtualizationName else .ok base) = .ok mid ∧
        store'.virtualizations = mid.virtualizations ∧
        ∀ dvName, previewed store' dvName = previewed store dvName ↔
          previewedOf dvName view = previewedOf dvName viewDefn := by
  obtain ⟨base, viewDefn, created, touched, mid, hloaded, hupdated, hmid, rfl⟩ :=
    upsertViewEditorState_ok h
  refine ⟨base, viewDefn, created, touched, mid, hloaded, hupdated, hmid, rfl, ?_⟩
  obtain ⟨hmem, _⟩ := loaded_row hloaded
  have hmidViews := views_of_touched hmid
  have hflushed := id_flushed hupdated.frame.1
  have hmidIds : (mid.views.map (·.id)).Nodup := by
    have hkeys : (mid.writeViewDefinition (Store.flushed viewDefn view)).views.map (·.id) =
        mid.views.map (·.id) := map_key_writeRow _ _
    rw [← hkeys]
    exact hids
  intro dvName
  -- neither the row made for a new view nor the touch shows in a preview
  have hbase : previewed mid dvName = previewed store dvName := by
    rw [← previewed_loaded hloaded, previewed_eq, previewed_eq, hmidViews]
  have hwritten :=
    previewed_writeViewDefinition hmidIds (hmidViews ▸ hmem) hflushed.symm dvName
  rw [previewedOf_flushed, hbase] at hwritten
  exact hwritten

/-- What the upsert of a view asks of the state it meets. -/
def upsertFollows (teiid : Teiid) (store : Store) (restViewDefn : ViewDefinition) : Bool :=
  match findPersistent teiid store restViewDefn with
  | .ok (some viewDefn) =>
      (store.findDataVirtualization viewDefn.dataVirtualizationName).isNone ||
        versionFollows teiid viewDefn restViewDefn
  | _ => true

/-- What a view gives to the preview depends on its usable ddl alone. -/
theorem previewedOf_congr {dvName : String} {view view' : ViewDefinition}
    (hdv : view.dataVirtualizationName = view'.dataVirtualizationName)
    (husable : usableDdl view = usableDdl view') : previewedOf dvName view = previewedOf dvName view' := by
  unfold previewedOf
  rw [hdv, husable]

/-- An upsert that meets its condition moves the version on where it has to. -/
theorem follows_upsert {teiid : Teiid} {finder : SchemaFinder} {store store' : Store}
    {restViewDefn view : ViewDefinition}
    (h : upsertViewEditorState teiid finder store restViewDefn = .ok (store', view))
    (hids : (store'.views.map (·.id)).Nodup)
    (hfollows : upsertFollows teiid store restViewDefn = true) (dvName : String) :
    Follows store store' dvName := by
  obtain ⟨base, viewDefn, created, touched, mid, hloaded, hupdated, hmid, hrows, heffect⟩ :=
    upsert_effect h hids
  obtain ⟨_, hbase, _⟩ := loaded_row hloaded
  obtain ⟨_, _, hdv, _⟩ := hupdated.frame
  have hothers : dvName ≠ view.dataVirtualizationName →
      previewed store' dvName = previewed store dvName := by
    intro hne
    refine (heffect dvName).mpr ?_
    rw [previewedOf_of_ne hne.symm, previewedOf_of_ne (by rw [← hdv]; exact hne.symm)]
  cases touched with
  | true => exact follows_of_touch hbase hmid hrows hothers
  | false =>
      cases hmid
      intro dv hfind
      -- untouched, the view adds the text it added before, or belongs elsewhere
      have hsame : usableDdl view = usableDdl viewDefn ∨ dvName ≠ view.dataVirtualizationName := by
        cases hloaded with
        | new =>
            rcases touched_of_created hupdated with htouched | hnone
            · cases htouched
            · exact .inl (hnone.trans rfl)
        | persistent hfound =>
            unfold upsertFollows at hfollows
            rw [hfound] at hfollows
            rcases Bool.or_eq_true_iff.mp hfollows with hnone | hfollows
            · right
              rintro rfl
              rw [← hdv, hfind] at hnone
              cases hnone
            · rcases (versionFollows_iff hupdated).mp hfollows with htouched | hsame
              · cases htouched
              · exact .inl hsame
      have hpreviewed : previewed store' dvName = previewed store dvName := by
        rcases hsame with husable | hne
        · exact (heffect dvName).mpr (previewedOf_congr hdv husable)
        · exact hothers hne
      have hfindSame : store'.findDataVirtualization dvName = store.findDataVirtualization dvName := by
        unfold Store.findDataVirtualization
        rw [hrows, hbase]
      exact follows_of_same hfindSame hpreviewed dv hfind

/-- The condition is exact: where it fails the texts change and the version does not. -/
theorem upsertFollows_of_versioned {teiid : Teiid} {finder : SchemaFinder} {store store' : Store}
    {restViewDefn view : ViewDefinition}
    (h : upsertViewEditorState teiid finder store restViewDefn = .ok (store', view))
    (hids : (store'.views.map (·.id)).Nodup) (hversioned : Versioned store store') :
    upsertFollows teiid store restViewDefn = true := by
  obtain ⟨base, viewDefn, created, touched, mid, hloaded, hupdated, hmid, hrows, heffect⟩ :=
    upsert_effect h hids
  unfold upsertFollows
  cases hloaded with
  | new hfound => rw [hfound]
  | persistent hfound =>
      rw [hfound]
      obtain ⟨_, _, hdv, _⟩ := hupdated.frame
      show ((store.findDataVirtualization viewDefn.dataVirtualizationName).isNone ||
        versionFollows teiid viewDefn restViewDefn) = true
      cases hfind : store.findDataVirtualization viewDefn.dataVirtualizationName with
      | none => rfl
      | some dv =>
          show versionFollows teiid viewDefn restViewDefn = true
          refine (versionFollows_iff hupdated).mpr ?_
          cases touched with
          | true => exact .inl rfl
          | false =>
              right
              cases hmid
              have hfind' : store'.findDataVirtualization viewDefn.dataVirtualizationName = some dv := by
                rw [← hfind]
                unfold Store.findDataVirtualization
                rw [hrows]
              -- the version is the same, so what the row adds has to be
              have hsame := (heffect _).mp (hversioned _ dv dv hfind hfind' rfl)
              unfold previewedOf at hsame
              rw [if_pos hdv, if_pos rfl] at hsame
              exact hsame

namespace DvServer

variable {teiid : Teiid}

/-! ## Steps -/

/-- An upsert that is made meets the condition. -/
def keepsVersion (s : DvServer teiid) (label : Label) : Bool :=
  match label with
  | .upsertViewEditorState _ restViewDefn => upsertFollows teiid s.db.store restViewDefn
  | _ => true

/-- A step that meets the condition lets the previews of all virtualizations follow, but for one
that it deletes. -/
theorem follows_step {s t : DvServer teiid} {label : Label} (hguard : keepsVersion s label = true)
    (h : next s label = some t) (dvName : String) :
    Follows s.db.store t.db.store dvName ∨
      (label = .deleteDataVirtualization dvName ∧
        t.db.store.findDataVirtualization dvName = none) := by
  obtain ⟨htransaction, _⟩ := transaction_of_next h
  have hids := s.db.consistent.ids
  -- only a deletion of the virtualization itself ends the relation
  cases label with
  | createDataVirtualization => exact .inl (follows_create htransaction dvName)
  | updateDataVirtualization => exact .inl (follows_update htransaction dvName)
  | deleteDataVirtualization =>
      rcases follows_delete htransaction dvName with ⟨rfl, hnone⟩ | ⟨_, hfollows⟩
      · exact .inr ⟨rfl, hnone⟩
      · exact .inl hfollows
  | upsertViewEditorState =>
      obtain ⟨view, hupsert⟩ := upsert_of_transaction htransaction
      exact .inl (follows_upsert hupsert t.db.consistent.ids hguard dvName)
  | removeViewDefinition => exact .inl (follows_remove hids htransaction dvName)
  | importViews => exact .inl (follows_import hids htransaction dvName)
  | updatePreviewVdb =>
      have hsame : s.db.store = t.db.store := Except.ok.inj htransaction
      rw [← hsame]
      exact .inl (follows_of_same rfl rfl)

/-- The condition on a step is exact. -/
theorem versioned_step_iff {s t : DvServer teiid} {label : Label} (h : next s label = some t) :
    Versioned s.db.store t.db.store ↔ keepsVersion s label = true := by
  constructor
  · intro hversioned
    cases label with
    | upsertViewEditorState =>
        obtain ⟨view, hupsert⟩ := upsert_of_transaction (transaction_of_next h).1
        exact upsertFollows_of_versioned hupsert t.db.consistent.ids hversioned
    | _ => rfl
  · intro hguard
    refine versioned_of_follows ?_
    intro dvName hkept
    rcases follows_step hguard h dvName with hfollows | ⟨_, hnone⟩
    · exact hfollows
    · rw [hnone] at hkept
      cases hkept

/-! ## Runs -/

/-- Every deployed preview VDB is that of a virtualization, and matches it. -/
def PreviewsMatch (s : DvServer teiid) : Prop :=
  ∀ vdb ∈ s.previews, ∃ dvName dv, s.db.store.findDataVirtualization dvName = some dv ∧
    vdb.name = getPreviewVdbName dvName ∧
      Matches vdb dvName ⟨dv, s.db.store.findViewDefinitions dvName⟩

/-- A VDB that stays deployed stays sound, while its virtualization is not deleted. -/
theorem matches_follows {store store' : Store} {vdb : VDBMetaData} {dvName : String}
    {dv : DataVirtualization} (hfind : store.findDataVirtualization dvName = some dv)
    (hs : Matches vdb dvName ⟨dv, store.findViewDefinitions dvName⟩)
    (hfollows : Follows store store' dvName) :
    ∃ dv', store'.findDataVirtualization dvName = some dv' ∧
      Matches vdb dvName ⟨dv', store'.findViewDefinitions dvName⟩ := by
  obtain ⟨dv', hfind', hversion⟩ := hfollows dv hfind
  exact ⟨dv', hfind', matches_of_version hs hversion⟩

/-- What a preview leaves deployed was there, or is generated now. -/
theorem previews_of_update {s t : DvServer teiid} {dvName : String}
    {result : Except Failure VDBMetaData} (h : PreviewUpdate s dvName t result) {vdb : VDBMetaData}
    (hvdb : vdb ∈ t.previews) :
    vdb ∈ s.previews ∨ ∃ dv, s.db.store.findDataVirtualization dvName = some dv ∧
      vdb.name = getPreviewVdbName dvName ∧
        Matches vdb dvName ⟨dv, s.db.store.findViewDefinitions dvName⟩ := by
  cases h with
  | fails => exact .inl hvdb
  | current => exact .inl hvdb
  | undeployed => exact .inl (List.mem_filter.mp hvdb).1
  | @deployed dv theVdb hdv hcreate =>
      rcases List.mem_append.mp hvdb with hold | hnew
      · exact .inl (List.mem_filter.mp hold).1
      · rw [List.mem_singleton.mp hnew]
        refine .inr ⟨dv, hdv, (frame_of_createPreviewVdb hcreate).1, ?_⟩
        intro version hversion
        obtain rfl : dv.version = version := Option.some.inj hversion
        refine ⟨Nat.le_refl _, ?_⟩
        intro _
        exact @generated_of_create theVdb dvName
          ⟨dv, s.db.store.findViewDefinitions dvName⟩ hcreate _

/-- A step keeps what ties deployed previews to versions and texts. -/
theorem previewsMatch_step {s t : DvServer teiid} {label : Label} (hs : PreviewsMatch s)
    (hguard : keepsVersion s label = true) (h : next s label = some t) : PreviewsMatch t := by
  obtain ⟨_, ht⟩ := transaction_of_next h
  -- a VDB deployed before matches the committed tables, unless its virtualization is deleted
  have hkept : ∀ vdb ∈ s.previews,
      (∃ dvName dv, t.db.store.findDataVirtualization dvName = some dv ∧
        vdb.name = getPreviewVdbName dvName ∧
          Matches vdb dvName ⟨dv, t.db.store.findViewDefinitions dvName⟩) ∨
        ∃ dvName, label = .deleteDataVirtualization dvName ∧ vdb.name = getPreviewVdbName dvName := by
    intro vdb hvdb
    obtain ⟨dvName, dv, hfind, hname, hmatches⟩ := hs vdb hvdb
    rcases follows_step hguard h dvName with hfollows | ⟨hdeleted, _⟩
    · obtain ⟨dv', hfind', hmatches'⟩ := matches_follows hfind hmatches hfollows
      exact .inl ⟨dvName, dv', hfind', hname, hmatches'⟩
    · exact .inr ⟨dvName, hdeleted, hname⟩
  intro vdb hvdb
  rw [ht] at hvdb
  cases label with
  | deleteDataVirtualization virtualization =>
      obtain ⟨hold, hne⟩ := List.mem_filter.mp hvdb
      rcases hkept vdb hold with hmatched | ⟨dvName, hlabel, hname⟩
      · exact hmatched
      · cases hlabel
        simp [hname] at hne
  | updatePreviewVdb dvName failure =>
      have hupdate := updatePreviewVdb_cases { s with db := t.db } dvName failure
      rcases previews_of_update hupdate hvdb with hold | ⟨dv, hnew⟩
      · rcases hkept vdb hold with hmatched | ⟨_, hlabel, _⟩
        · exact hmatched
        · cases hlabel
      · exact ⟨dvName, dv, hnew⟩
  | _ =>
      rcases hkept vdb hvdb with hmatched | ⟨_, hlabel, _⟩
      · exact hmatched
      · cases hlabel

/-- A preview returns what `createPreviewVdb` makes of the stored views. -/
def ReturnsGenerated (s : DvServer teiid) : Prop :=
  ∀ dvName failure vdb, (s.updatePreviewVdb dvName failure).2 = .ok vdb →
    createPreviewVdb dvName (getPreviewVdbName dvName) (s.db.store.findViewDefinitions dvName) =
      .ok { vdb with versionProperty := none }

/-- A preview that is found current is the one its views generate. -/
theorem returnsGenerated_of_match {s : DvServer teiid} (hs : PreviewsMatch s) :
    ReturnsGenerated s := by
  intro dvName failure vdb hreturned
  have hupdate := updatePreviewVdb_cases s dvName failure
  rw [hreturned] at hupdate
  generalize (s.updatePreviewVdb dvName failure).1 = t at hupdate
  cases hupdate with
  | current hdv hvdb hversion =>
      obtain ⟨dvName', dv', hdv', hname, hmatches⟩ := hs vdb (List.mem_of_find?_eq_some hvdb)
      have hown : vdb.name = getPreviewVdbName dvName := by simpa using List.find?_some hvdb
      obtain rfl := getPreviewVdbName_injective (hname.symm.trans hown)
      rw [hdv] at hdv'
      cases hdv'
      exact (hmatches _ hversion).2 rfl
  | @deployed dv theVdb _ hcreate =>
      exact @generated_of_create theVdb dvName
        ⟨dv, s.db.store.findViewDefinitions dvName⟩ hcreate _

/-- No step of a run changes the texts of a virtualization without its version exactly if every upsert
meets the condition; then every preview returns what `createPreviewVdb` makes of the stored views. -/
theorem previews_coherent {s₀ s : DvServer teiid} {tr : List (DvServer teiid × Label)}
    (hinit : Initial s₀) (hrun : (system teiid).Run s₀ tr s) :
    ((∀ x ∈ tr, ∀ t, next x.1 x.2 = some t → Versioned x.1.db.store t.db.store) ↔
        System.Guarded (fun s label => keepsVersion s label = true) tr) ∧
      (System.Guarded (fun s label => keepsVersion s label = true) tr → ReturnsGenerated s) := by
  constructor
  · constructor
    · intro hversioned x hx
      obtain ⟨_, _, t, _, _, hstep, _⟩ := hrun.split hx
      exact (versioned_step_iff hstep).mp (hversioned x hx t hstep)
    · intro hguard x hx t hnext
      exact (versioned_step_iff hnext).mpr (hguard x hx)
  · intro hguard
    have hstep : ∀ s label t, PreviewsMatch s → keepsVersion s label = true →
        (system teiid).step s label t → PreviewsMatch t :=
      fun _ _ _ hs hg hst => previewsMatch_step hs hg hst
    have hstart : PreviewsMatch s₀ := by
      intro vdb hvdb
      rw [hinit.2.2] at hvdb
      cases hvdb
    exact returnsGenerated_of_match (hrun.preserves hstep hguard hstart)

/-- A view is generated and previewed, described and generated again, previewed again. -/
def previewedTwice : List Label :=
  [.createDataVirtualization { name := some "dv" },
    .upsertViewEditorState noSources generatedRequest, .updatePreviewVdb "dv" none,
    .upsertViewEditorState noSources { generatedRequest with description := some "one" },
    .updatePreviewVdb "dv" none]

/-- A view that was previewed, changed and previewed again. -/
theorem previews_coherent_twice :
    ReturnsGenerated (System.after (@next unparsing) empty previewedTwice) :=
  (previews_coherent initial_empty (System.run_after Initial next empty previewedTwice)).2 (by decide)

/-- A view is generated and previewed, then set aside as incomplete. -/
def previewedThenSetAside : List Label :=
  [.createDataVirtualization { name := some "dv" },
    .upsertViewEditorState noSources generatedRequest, .updatePreviewVdb "dv" none,
    .upsertViewEditorState noSources { generatedRequest with complete := false }]

/-- The preview with the view that has been set aside. -/
def stalePreview : VDBMetaData :=
  { name := "dvvdb", models := [serviceModel "dv" "CREATE VIEW v AS \nSELECT 1 as col;\n"],
    imports := [previewVdb], preview := true, versionProperty := some 1 }

/-- A view that was previewed and set aside is still in the preview. -/
theorem previews_setAside :
    ¬ ∀ (teiid : Teiid) (s₀ s : DvServer teiid) (tr : List (DvServer teiid × Label)),
      Initial s₀ → (system teiid).Run s₀ tr s → ReturnsGenerated s := by
  intro h
  have hrun := System.run_after Initial (@next unparsing) empty previewedThenSetAside
  have hgenerated := h unparsing empty _ _ initial_empty hrun "dv" none stalePreview (by decide)
  exact absurd hgenerated (by decide)

end DvServer

end TeiidSyndesis.Server
