/-
# TeiidSyndesis.Server.RepeatedSave — the same request saved twice.

The first save makes the view parsable and gives it the paths and the text of the request, so the second
save takes other branches: a generated view is trusted where it was generated, and a user defined text
that was parsed is not parsed again.  What is left of the second save is a copy of the request, except
where there is no text to copy and the DDL is generated once more.

Main results:
* `saved_of_updatedView` — what a save leaves is `Saved`, in either branch;
* `updateView_saved` — the second save of the request copies it, and generates only where it must;
* `sameText_resaved_iff` — the exact condition for the copy to say the same;
* `upsert_again`, `upsertViewEditorState_twice` — both saves, on the tables.
-/
import TeiidSyndesis.Server.DvServer

namespace TeiidSyndesis.Server

open TeiidSyndesis.Library TeiidSyndesis.Model TeiidSyndesis.Repository

/-! ## A row that has been saved -/

/-- A generated view whose request brings no text. -/
def asksForDdl (restViewDefn : ViewDefinition) : Bool :=
  restViewDefn.complete && !restViewDefn.userDefined && restViewDefn.ddl.isNone

/-- What the row of a saved view has in common with the request. -/
structure Saved (teiid : Teiid) (finder : SchemaFinder) (restViewDefn row : ViewDefinition) : Prop where
  name : restViewDefn.name = row.name
  dataVirtualizationName : restViewDefn.dataVirtualizationName = row.dataVirtualizationName
  complete : row.complete = restViewDefn.complete
  userDefined : row.userDefined = restViewDefn.userDefined
  /-- a text of the user is stored as it is -/
  text : restViewDefn.complete = true → restViewDefn.userDefined = true → row.ddl = restViewDefn.ddl
  /-- a generated view trusts the request -/
  generated : restViewDefn.complete = true → restViewDefn.userDefined = false →
    row.parsable = true ∧ row.sourcePaths = restViewDefn.sourcePaths ∧
      row.description = restViewDefn.description
  /-- a text that is missing is generated -/
  ddl : asksForDdl restViewDefn = true → getODataViewDdl teiid finder restViewDefn = .ok row.ddl

/-- The row after one more save. -/
def resaved (row restViewDefn : ViewDefinition) : ViewDefinition :=
  if asksForDdl restViewDefn then row else copyRequest row restViewDefn

/-- The text that is generated depends on the request alone. -/
theorem getODataViewDdl_copyRequest (teiid : Teiid) (finder : SchemaFinder)
    {viewDefn restViewDefn : ViewDefinition} (hname : restViewDefn.name = viewDefn.name) :
    getODataViewDdl teiid finder (copyRequest viewDefn restViewDefn) =
      getODataViewDdl teiid finder restViewDefn := by
  unfold getODataViewDdl getSourceTableInfos getTablesViewDdl copyRequest
  rw [hname]

section Row

variable {teiid : Teiid} {finder : SchemaFinder} {viewDefn restViewDefn updated row : ViewDefinition}
  {created touched : Bool}

/-- Whichever branch the first save took, its view is saved in the sense above. -/
theorem saved_of_updatedView
    (h : UpdatedView teiid finder viewDefn restViewDefn created updated touched)
    (hname : restViewDefn.name = viewDefn.name)
    (hdv : restViewDefn.dataVirtualizationName = viewDefn.dataVirtualizationName) :
    Saved teiid finder restViewDefn updated := by
  obtain ⟨_, hupdatedName, hupdatedDv, hcomplete⟩ := h.frame
  refine ⟨hname.trans hupdatedName.symm, hdv.trans hupdatedDv.symm, hcomplete, ?_, ?_, ?_, ?_⟩
  · cases h <;> rfl
  · intro hrest huser
    -- the request decides the branch: the flags of the others contradict it
    cases h with
    | incomplete hincomplete => exact rfl
    | generated _ hgenerated | trusted _ hgenerated =>
        rw [huser] at hgenerated
        cases hgenerated
    | accepted | partlyParsed | unusable | unread => rfl
  · intro hrest hgenerated
    cases h with
    | incomplete hincomplete =>
        rw [hrest] at hincomplete
        cases hincomplete
    | generated => exact ⟨rfl, rfl, rfl⟩
    | trusted _ _ _ _ _ hparsable => exact ⟨hparsable, rfl, rfl⟩
    | accepted _ huser | partlyParsed _ huser | unusable _ huser | unread _ huser =>
        rw [huser] at hgenerated
        cases hgenerated
  · intro hasks
    obtain ⟨⟨hrest, hgenerated⟩, hddl⟩ :
        (restViewDefn.complete = true ∧ restViewDefn.userDefined = false) ∧
          restViewDefn.ddl = none := by simpa [asksForDdl] using hasks
    cases h with
    | incomplete hincomplete =>
        rw [hrest] at hincomplete
        cases hincomplete
    | generated _ _ _ hgeneratedDdl =>
        rw [← getODataViewDdl_copyRequest teiid finder hname]
        exact hgeneratedDdl
    | trusted _ _ htext => exact absurd hddl htext
    | accepted _ huser | partlyParsed _ huser | unusable _ huser | unread _ huser =>
        rw [huser] at hgenerated
        cases hgenerated

/-- A view whose DDL is asked for is generated, and its virtualization touched. -/
theorem touched_of_asksForDdl
    (h : UpdatedView teiid finder viewDefn restViewDefn created updated touched)
    (hasks : asksForDdl restViewDefn = true) : touched = true := by
  obtain ⟨⟨hcomplete, hgenerated⟩, hddl⟩ :
      (restViewDefn.complete = true ∧ restViewDefn.userDefined = false) ∧ restViewDefn.ddl = none := by
    simpa [asksForDdl] using hasks
  cases h with
  | incomplete hincomplete =>
      rw [hcomplete] at hincomplete
      cases hincomplete
  | generated => rfl
  | trusted _ _ htext => exact absurd hddl htext
  | accepted _ huser | partlyParsed _ huser | unusable _ huser | unread _ huser =>
      exact absurd (huser.symm.trans hgenerated) (by decide)

/-- A generated view has what is generated for it. -/
theorem generated_eq_self (h : Saved teiid finder restViewDefn row)
    (hcomplete : restViewDefn.complete = true) (huser : restViewDefn.userDefined = false) :
    { copyRequest row restViewDefn with ddl := row.ddl, parsable := true } = row := by
  obtain ⟨hparsable, hpaths, hdescription⟩ := h.generated hcomplete huser
  have hrowComplete := h.complete
  have hrowUser := h.userDefined
  obtain ⟨id, name, dvName, ddl, description, complete, userDefined, parsable, paths, version⟩ := row
  simp only [copyRequest, ViewDefinition.mk.injEq, true_and, and_true]
  exact ⟨hdescription.symm, hrowComplete.symm, hrowUser.symm, hparsable.symm, hpaths.symm⟩

/-- A generated view that is complete is generated once more only where its request has no text. -/
theorem updateGenerated_saved (h : Saved teiid finder restViewDefn row)
    (hcomplete : restViewDefn.complete = true) (huser : restViewDefn.userDefined = false) :
    updateGenerated teiid finder (copyRequest row restViewDefn) true false =
      .ok (resaved row restViewDefn, asksForDdl restViewDefn) := by
  have hparsable : (copyRequest row restViewDefn).parsable = true :=
    (h.generated hcomplete huser).1
  have hcopied : (copyRequest row restViewDefn).ddl = restViewDefn.ddl := rfl
  unfold updateGenerated
  rw [hcopied, hparsable]
  cases hddl : restViewDefn.ddl with
  | none =>
      have hasks : asksForDdl restViewDefn = true := by simp [asksForDdl, hcomplete, huser, hddl]
      rw [if_pos (by simp), getODataViewDdl_copyRequest teiid finder h.name, h.ddl hasks, resaved, hasks]
      exact congrArg Except.ok (Prod.ext (generated_eq_self h hcomplete huser) rfl)
  | some text =>
      have hasks : asksForDdl restViewDefn = false := by simp [asksForDdl, hddl]
      rw [if_neg (by simp), resaved, hasks]
      rfl

/-- The second save of a row. -/
theorem updateView_saved (h : Saved teiid finder restViewDefn row) :
    updateView teiid finder row restViewDefn false =
      .ok (resaved row restViewDefn, asksForDdl restViewDefn) := by
  unfold updateView
  dsimp only
  cases hcomplete : restViewDefn.complete with
  | false =>
      have hcopied : (copyRequest row restViewDefn).complete = false := hcomplete
      have hasks : asksForDdl restViewDefn = false := by simp [asksForDdl, hcomplete]
      rw [hcopied, resaved, hasks]
      rfl
  | true =>
      have hcopied : (copyRequest row restViewDefn).complete = true := hcomplete
      rw [hcopied, if_pos rfl]
      unfold updateDdl
      cases huser : restViewDefn.userDefined with
      | true =>
          have huserCopied : (copyRequest row restViewDefn).userDefined = true := huser
          have htext : row.ddl = (copyRequest row restViewDefn).ddl := h.text hcomplete huser
          have hasks : asksForDdl restViewDefn = false := by simp [asksForDdl, huser]
          rw [huserCopied, resaved, hasks, htext]
          -- the text is the one the first save has read
          cases (copyRequest row restViewDefn).ddl <;> simp <;> rfl
      | false =>
          have huserCopied : (copyRequest row restViewDefn).userDefined = false := huser
          have hpaths : (restViewDefn.sourcePaths == row.sourcePaths) = true :=
            beq_iff_eq.mpr (h.generated hcomplete huser).2.1.symm
          rw [huserCopied, hpaths]
          exact updateGenerated_saved h hcomplete huser

/-! ## What the second save changes -/

/-- The fields that may differ. -/
def SameText (view view' : ViewDefinition) : Prop :=
  view'.ddl = view.ddl ∧ view'.description = view.description ∧ view'.sourcePaths = view.sourcePaths

/-- The requests whose second save changes nothing; `found` is the view before the first. -/
def Repeatable (teiid : Teiid) (finder : SchemaFinder) (found : Option ViewDefinition)
    (restViewDefn : ViewDefinition) : Prop :=
  restViewDefn.complete = true →
    if restViewDefn.userDefined then
      restViewDefn.ddl = none ∨ (∃ viewDefn ∈ found, viewDefn.ddl = restViewDefn.ddl) ∨
        (restViewDefn.sourcePaths = [] ∧ ∀ ddl ∈ restViewDefn.ddl,
          ∀ t ∈ usableTable teiid restViewDefn.name ddl,
            t.annotation.or restViewDefn.description = restViewDefn.description)
    else
      restViewDefn.ddl = none ∨
        (∃ viewDefn ∈ found, viewDefn.sourcePaths = restViewDefn.sourcePaths ∧
          viewDefn.parsable = true) ∨
        getODataViewDdl teiid finder restViewDefn = .ok restViewDefn.ddl

/-- The second save leaves the three flags. -/
theorem flags_resaved (h : Saved teiid finder restViewDefn row) :
    (resaved row restViewDefn).complete = row.complete ∧
      (resaved row restViewDefn).userDefined = row.userDefined ∧
      (resaved row restViewDefn).parsable = row.parsable := by
  unfold resaved
  split
  · exact ⟨rfl, rfl, rfl⟩
  · exact ⟨h.complete.symm, h.userDefined.symm, rfl⟩

/-- Where a user defined text was read, the second save brings back what the reading has replaced. -/
theorem sameText_read_iff {found : Option ViewDefinition} {ddl : String}
    (hcomplete : restViewDefn.complete = true) (huser : restViewDefn.userDefined = true)
    (hddl : restViewDefn.ddl = some ddl)
    (hold : ¬∃ viewDefn ∈ found, viewDefn.ddl = some ddl)
    (htext : updated.ddl = restViewDefn.ddl) (hpaths : updated.sourcePaths = [])
    (hdescription : restViewDefn.description = updated.description ↔
      ∀ t ∈ usableTable teiid restViewDefn.name ddl,
        t.annotation.or restViewDefn.description = restViewDefn.description) :
    SameText updated (resaved updated restViewDefn) ↔
      Repeatable teiid finder found restViewDefn := by
  have hasks : asksForDdl restViewDefn = false := by simp [asksForDdl, huser]
  unfold Repeatable
  rw [resaved, hasks, huser, if_pos rfl, hddl]
  constructor
  -- a text that was read clears the paths and may bring its annotation as the description
  · rintro ⟨_, hsame, hnone⟩ _
    refine .inr (.inr ⟨hnone.trans hpaths, fun ddl' hddl' => ?_⟩)
    obtain rfl : ddl = ddl' := Option.some.inj hddl'
    exact hdescription.mp hsame
  · intro hrepeatable
    rcases hrepeatable hcomplete with hnone | hfound | ⟨hempty, hannotated⟩
    · cases hnone
    · exact absurd hfound hold
    · exact ⟨htext.symm, hdescription.mpr (hannotated ddl rfl), hempty.trans hpaths.symm⟩

/-- The description survives exactly if the annotation of the text, where there is one, is the
description. -/
theorem annotation_iff {ddl : String} {t : Table}
    (ht : usableTable teiid restViewDefn.name ddl = some t) :
    restViewDefn.description = t.annotation.or restViewDefn.description ↔
      ∀ t ∈ usableTable teiid restViewDefn.name ddl,
        t.annotation.or restViewDefn.description = restViewDefn.description := by
  rw [ht]
  simp [eq_comm]

/-- Where a text was generated, the second save brings back the one the request has, if it has one. -/
theorem sameText_generated_iff {found : Option ViewDefinition} {ddl : String}
    (hcomplete : restViewDefn.complete = true) (huser : restViewDefn.userDefined = false)
    (hddl : getODataViewDdl teiid finder restViewDefn = .ok (some ddl))
    (huntrusted : restViewDefn.ddl ≠ none → ¬∃ view ∈ found,
      view.sourcePaths = restViewDefn.sourcePaths ∧ view.parsable = true) :
    SameText { copyRequest viewDefn restViewDefn with ddl := some ddl, parsable := true }
        (resaved { copyRequest viewDefn restViewDefn with ddl := some ddl, parsable := true }
          restViewDefn) ↔
      Repeatable teiid finder found restViewDefn := by
  unfold Repeatable
  rw [huser, if_neg (by simp)]
  -- without a text it is generated again; with one the saved text is that of the request
  cases htext : restViewDefn.ddl with
  | none =>
      have hasks : asksForDdl restViewDefn = true := by simp [asksForDdl, hcomplete, huser, htext]
      rw [resaved, hasks]
      exact iff_of_true ⟨rfl, rfl, rfl⟩ fun _ => .inl rfl
  | some text =>
      have hasks : asksForDdl restViewDefn = false := by simp [asksForDdl, htext]
      rw [resaved, hasks]
      constructor
      · rintro ⟨hsame, _, _⟩ _
        have hsame : restViewDefn.ddl = some ddl := hsame
        rw [← htext, hsame]
        exact .inr (.inr hddl)
      · intro hrepeatable
        refine ⟨htext.trans ?_, rfl, rfl⟩
        rcases hrepeatable hcomplete with hnone | htrusted | hgenerated
        · cases hnone
        · exact absurd htrusted (huntrusted (by simp [htext]))
        · rw [hddl] at hgenerated
          exact (Except.ok.inj hgenerated).symm

/-- The second save leaves what the first left exactly if the request can be repeated. -/
theorem sameText_resaved_iff {found : Option ViewDefinition}
    (h : UpdatedView teiid finder viewDefn restViewDefn created updated touched)
    (hname : restViewDefn.name = viewDefn.name)
    (hfound : (found = some viewDefn ∧ created = false) ∨
      (found = none ∧ created = true ∧ viewDefn.ddl = none)) :
    SameText updated (resaved updated restViewDefn) ↔
      Repeatable teiid finder found restViewDefn := by
  have hold {text : Option String} (hnew : viewDefn.ddl ≠ text) :
      ¬∃ view ∈ found, view.ddl = text := by
    rintro ⟨view, hview, hddl⟩
    rcases hfound with ⟨rfl, _⟩ | ⟨rfl, _⟩
    · obtain rfl : viewDefn = view := Option.some.inj hview
      exact hnew hddl
    · cases hview
  unfold Repeatable
  cases h with
  | incomplete hcomplete =>
      have hasks : asksForDdl restViewDefn = false := by simp [asksForDdl, hcomplete]
      rw [resaved, hasks, hcomplete]
      exact iff_of_true ⟨rfl, rfl, rfl⟩ nofun
  | @generated ddl hcomplete huser hneeded hddl =>
      rw [getODataViewDdl_copyRequest teiid finder hname] at hddl
      refine sameText_generated_iff hcomplete huser hddl ?_
      -- such a view would have been trusted by the first save
      rintro htext ⟨view, hview, hpaths, hparsable⟩
      rcases hfound with ⟨rfl, rfl⟩ | ⟨rfl, _⟩
      · obtain rfl : viewDefn = view := Option.some.inj hview
        simp [htext, hpaths, hparsable] at hneeded
      · cases hview
  | trusted hcomplete huser htext hcreated hpaths hparsable =>
      have hasks : asksForDdl restViewDefn = false := by
        simp [asksForDdl, Option.isSome_iff_ne_none.mpr htext]
      rw [resaved, hasks, huser]
      refine iff_of_true ⟨rfl, rfl, rfl⟩ fun _ => .inr (.inl ⟨viewDefn, ?_, hpaths.symm, hparsable⟩)
      rcases hfound with ⟨rfl, _⟩ | ⟨_, hnew, _⟩
      · rfl
      · rw [hcreated] at hnew
        cases hnew
  | @accepted ddl t hcomplete huser hddl hnew ht hexception =>
      rw [← hname] at ht
      exact sameText_read_iff hcomplete huser hddl (hold hnew) rfl rfl (annotation_iff ht)
  | @partlyParsed ddl exception t hcomplete huser hddl hnew ht hexception =>
      rw [← hname] at ht
      exact sameText_read_iff hcomplete huser hddl (hold hnew) rfl rfl (annotation_iff ht)
  | @unusable ddl hcomplete huser hddl hnew ht =>
      rw [← hname] at ht
      exact sameText_read_iff hcomplete huser hddl (hold hnew) rfl rfl
        (iff_of_true rfl (by rw [ht]; nofun))
  | unread hcomplete huser htext =>
      have hasks : asksForDdl restViewDefn = false := by simp [asksForDdl, huser]
      rw [resaved, hasks, huser]
      refine iff_of_true ⟨rfl, rfl, rfl⟩ fun _ => ?_
      rw [if_pos rfl]
      rcases htext with hnone | hsame
      · exact .inl hnone
      · rcases hfound with ⟨rfl, _⟩ | ⟨_, _, hnone⟩
        · exact .inr (.inl ⟨viewDefn, rfl, hsame.symm⟩)
        · exact .inl (hsame.trans hnone)

end Row

/-! ## Both saves -/

/-- The rows a request is about. -/
def isRequested (teiid : Teiid) (restViewDefn view : ViewDefinition) : Bool :=
  match restViewDefn.id with
  | some id => view.id = some id
  | none =>
      view.dataVirtualizationName = restViewDefn.dataVirtualizationName ∧
        teiid.toUpperCase view.name = teiid.toUpperCase restViewDefn.name

section Store

variable {teiid : Teiid} {finder : SchemaFinder} {restViewDefn viewDefn row : ViewDefinition}

/-- Which row is requested depends on its id and its names alone. -/
theorem isRequested_congr (hid : row.id = viewDefn.id) (hname : row.name = viewDefn.name)
    (hdv : row.dataVirtualizationName = viewDefn.dataVirtualizationName) :
    isRequested teiid restViewDefn row = isRequested teiid restViewDefn viewDefn := by
  unfold isRequested
  rw [hid, hname, hdv]

/-- Without a version the first row a request is about is loaded. -/
theorem findPersistent_eq_some {store : Store}
    (hversion : restViewDefn.id.isSome → restViewDefn.version = none) :
    findPersistent teiid store restViewDefn = .ok (some viewDefn) ↔
      store.views.find? (isRequested teiid restViewDefn) = some viewDefn := by
  unfold findPersistent isRequested
  cases hid : restViewDefn.id with
  | none => exact ⟨Except.ok.inj, congrArg Except.ok⟩
  | some id =>
      have hnone : restViewDefn.version = none := hversion (by rw [hid]; rfl)
      dsimp only
      unfold Store.findViewDefinition
      cases store.views.find? fun view => decide (view.id = some id) with
      | none => exact ⟨nofun, nofun⟩
      | some found => simp [hnone]

/-- A request that finds no view has no id, and no row answers to it. -/
theorem find?_of_new {store : Store} (h : findPersistent teiid store restViewDefn = .ok none) :
    restViewDefn.id = none ∧ store.views.find? (isRequested teiid restViewDefn) = none := by
  unfold findPersistent at h
  unfold isRequested
  cases hid : restViewDefn.id with
  | none =>
      rw [hid] at h
      exact ⟨rfl, Except.ok.inj h⟩
  | some id =>
      -- an unknown id is an error, and a known one finds its view
      rw [hid] at h
      dsimp only at h
      split at h
      · cases h
      · split at h
        · cases h
        · cases h

/-- The row that is loaded is the first one the request is about. -/
theorem find?_loaded {db : Database teiid} {base : Store} {created : Bool}
    (hversion : restViewDefn.id.isSome → restViewDefn.version = none)
    (h : Loaded teiid db.store restViewDefn base viewDefn created) :
    base.views.find? (isRequested teiid restViewDefn) = some viewDefn ∧
      (base.views.map (·.id)).Nodup := by
  -- the view was found, or none was and one has been appended that the request names
  cases h with
  | persistent hfound => exact ⟨(findPersistent_eq_some hversion).mp hfound, db.consistent.ids⟩
  | new hfound =>
      obtain ⟨hid, hnone⟩ := find?_of_new hfound
      have hrequested : isRequested teiid restViewDefn
          (db.store.createViewDefiniton restViewDefn.dataVirtualizationName restViewDefn.name).2 =
            true := by
        unfold isRequested
        rw [hid]
        simp [Store.createViewDefiniton, Store.persisted]
      constructor
      · show (db.store.views ++ [_]).find? _ = _
        rw [List.find?_append, hnone, Option.none_or]
        exact List.find?_cons_of_pos hrequested
      · show ((db.store.views ++ [_]).map ViewDefinition.id).Nodup
        rw [List.map_append, List.nodup_append]
        refine ⟨db.consistent.ids, List.nodup_singleton _, ?_⟩
        rintro id hid _ hnew rfl
        obtain ⟨view, hview, hviewId⟩ := List.mem_map.mp hid
        obtain rfl : _ = some db.store.nextId := List.mem_singleton.mp hnew
        have hlt := db.consistent.drawn view hview db.store.nextId hviewId
        omega

/-- Where a save has touched the virtualization, it can be touched again. -/
theorem touch_again {base mid store : Store} {virtualization : String}
    (h : base.touch virtualization = .ok mid) (hstore : store.virtualizations = mid.virtualizations) :
    ∃ mid', store.touch virtualization = .ok mid' := by
  obtain ⟨dv, hfind, rfl⟩ := Store.touch_eq_ok.mp h
  have hname := Store.name_of_findDataVirtualization hfind
  refine ⟨_, Store.touch_eq_ok.mpr ⟨{ dv with version := dv.version + 1 }, ?_, rfl⟩⟩
  unfold Store.findDataVirtualization
  rw [hstore]
  have hwritten :=
    Store.findDataVirtualization_write base { dv with version := dv.version + 1 } virtualization
  rw [if_pos hname.symm, hfind] at hwritten
  exact hwritten

/-- Writing a row under its own names, and touching a virtualization, keeps the constraints. -/
theorem consistent_resaved {store mid : Store} {touched : Bool} {virtualization : String}
    (hs : store.Consistent teiid)
    (htouch : (if touched then store.touch virtualization else .ok store) = .ok mid)
    (hold : viewDefn ∈ store.views) (hid : row.id = viewDefn.id) (hname : row.name = viewDefn.name)
    (hdv : row.dataVirtualizationName = viewDefn.dataVirtualizationName) :
    (mid.writeViewDefinition row).Consistent teiid := by
  have hviews := views_of_touched htouch
  have hframe : mid.rowNames = store.rowNames ∧ mid.schemas = store.schemas ∧
      mid.nextId = store.nextId := by
    cases touched with
    | false =>
        cases htouch
        exact ⟨rfl, rfl, rfl⟩
    | true =>
        obtain ⟨dv, _, rfl⟩ := Store.touch_eq_ok.mp htouch
        exact ⟨Store.rowNames_writeDataVirtualization, rfl, rfl⟩
  refine hs.of_sameKeys hframe.1 hframe.2.1 ?_ (Nat.le_of_eq hframe.2.2.symm)
  obtain ⟨front, back, hsplit, hwritten⟩ := writeRow_split hs.ids hold hid.symm
  show (writeRow ViewDefinition.id row mid.views).map _ = _
  rw [hviews, hwritten, hsplit, List.map_append, List.map_append, List.map_cons, List.map_cons, hid,
    hname, hdv]

/-- A flush changes versions, and nothing that is compared here. -/
theorem flushed_text (old view : ViewDefinition) :
    (Store.flushed old view).id = view.id ∧ (Store.flushed old view).name = view.name ∧
      (Store.flushed old view).dataVirtualizationName = view.dataVirtualizationName ∧
      (Store.flushed old view).complete = view.complete ∧
      (Store.flushed old view).userDefined = view.userDefined ∧
      (Store.flushed old view).parsable = view.parsable ∧ (Store.flushed old view).ddl = view.ddl ∧
      (Store.flushed old view).description = view.description ∧
      (Store.flushed old view).sourcePaths = view.sourcePaths := by
  rcases Store.flushed_eq_or old view with heq | heq
  · rw [heq]
    exact ⟨rfl, rfl, rfl, rfl, rfl, rfl, rfl, rfl, rfl⟩
  · rw [heq]
    exact ⟨rfl, rfl, rfl, rfl, rfl, rfl, rfl, rfl, rfl⟩

/-- The second save keeps the keys of the row. -/
theorem resaved_keys (row restViewDefn : ViewDefinition) :
    (resaved row restViewDefn).id = row.id ∧ (resaved row restViewDefn).name = row.name ∧
      (resaved row restViewDefn).dataVirtualizationName = row.dataVirtualizationName := by
  unfold resaved
  split
  · exact ⟨rfl, rfl, rfl⟩
  · exact ⟨rfl, rfl, rfl⟩

/-- A row is saved whatever its version. -/
theorem Saved.flushed {old : ViewDefinition} (h : Saved teiid finder restViewDefn row) :
    Saved teiid finder restViewDefn (Store.flushed old row) := by
  obtain ⟨_, hname, hdv, hcomplete, huser, hparsable, hddl, hdescription, hpaths⟩ :=
    flushed_text old row
  constructor
  · rw [hname]
    exact h.name
  · rw [hdv]
    exact h.dataVirtualizationName
  · rw [hcomplete]
    exact h.complete
  · rw [huser]
    exact h.userDefined
  · rw [hddl]
    exact h.text
  · rw [hparsable, hpaths, hdescription]
    exact h.generated
  · rw [hddl]
    exact h.ddl

/-- The view that is loaded has the names of the request. -/
theorem names_of_loaded {store base : Store} {created : Bool}
    (h : Loaded teiid store restViewDefn base viewDefn created) :
    restViewDefn.name = viewDefn.name ∧
      restViewDefn.dataVirtualizationName = viewDefn.dataVirtualizationName := by
  cases h with
  | new => exact ⟨rfl, rfl⟩
  | persistent _ hname hdv => exact ⟨hname, hdv⟩

/-- The second of two saves, on the tables the first one leaves. -/
theorem upsert_again {store : Store} {touched : Bool}
    (hversion : restViewDefn.id.isSome → restViewDefn.version = none)
    (hfind : store.views.find? (isRequested teiid restViewDefn) = some row)
    (hsaved : Saved teiid finder restViewDefn row)
    (htouched : asksForDdl restViewDefn = true → touched = true)
    {base mid : Store}
    (hmid : (if touched then base.touch row.dataVirtualizationName else .ok base) = .ok mid)
    (hvirtualizations : store.virtualizations = mid.virtualizations) :
    ∃ mid', (if asksForDdl restViewDefn then store.touch row.dataVirtualizationName else .ok store) =
        .ok mid' ∧
      upsertViewEditorState teiid finder store restViewDefn =
        .ok (mid'.writeViewDefinition (Store.flushed row (resaved row restViewDefn)),
          resaved row restViewDefn) := by
  have hdv := (resaved_keys row restViewDefn).2.2
  -- the virtualization that was touched by the first save can be touched again
  obtain ⟨mid', hmid'⟩ : ∃ mid', (if asksForDdl restViewDefn
      then store.touch row.dataVirtualizationName else .ok store) = .ok mid' := by
    cases hasks : asksForDdl restViewDefn with
    | false => exact ⟨store, rfl⟩
    | true =>
        rw [htouched hasks] at hmid
        exact touch_again hmid hvirtualizations
  refine ⟨mid', hmid', upsertViewEditorState_eq_ok.mpr
    ⟨some row, store, row, asksForDdl restViewDefn, mid', ?_, ?_, updateView_saved hsaved, ?_, rfl⟩⟩
  · exact (findPersistent_eq_some hversion).mpr hfind
  · exact if_pos ⟨hsaved.name, hsaved.dataVirtualizationName⟩
  · rw [hdv]
    exact hmid'

/-- What differs between two rows differs between the views they were written from. -/
theorem sameText_flushed_iff (old updated : ViewDefinition) :
    SameText (Store.flushed old updated)
        (Store.flushed (Store.flushed old updated) (resaved (Store.flushed old updated) restViewDefn)) ↔
      SameText updated (resaved updated restViewDefn) := by
  obtain ⟨_, _, _, _, _, _, hddl, hdescription, hpaths⟩ := flushed_text old updated
  obtain ⟨_, _, _, _, _, _, hddl', hdescription', hpaths'⟩ := flushed_text (Store.flushed old updated)
    (resaved (Store.flushed old updated) restViewDefn)
  unfold SameText
  rw [hddl', hdescription', hpaths', hddl, hdescription, hpaths]
  unfold resaved
  split
  · rw [hddl, hdescription, hpaths]
  · exact Iff.rfl

/-- A request that is not repeatable has its own fields stored. -/
theorem sameText_of_not_repeatable {found : Option ViewDefinition}
    (h : ¬Repeatable teiid finder found restViewDefn) (old row : ViewDefinition) :
    SameText restViewDefn (Store.flushed old (resaved row restViewDefn)) := by
  have hasks : asksForDdl restViewDefn = false := by
    rw [Bool.eq_false_iff]
    intro hasks
    obtain ⟨⟨_, hgenerated⟩, hddl⟩ :
        (restViewDefn.complete = true ∧ restViewDefn.userDefined = false) ∧
          restViewDefn.ddl = none := by simpa [asksForDdl] using hasks
    refine h fun _ => ?_
    rw [hgenerated]
    exact .inl hddl
  obtain ⟨_, _, _, _, _, _, hddl, hdescription, hpaths⟩ := flushed_text old (resaved row restViewDefn)
  unfold SameText
  rw [hddl, hdescription, hpaths, resaved, hasks]
  exact ⟨rfl, rfl, rfl⟩

end Store

namespace DvServer

/-- One virtualization, without views. -/
def oneDv : Database unparsing :=
  (System.after (@next unparsing) empty [.createDataVirtualization { name := some "dv" }]).db

/-- The request for a generated view that brings a text. -/
def textRequest : ViewDefinition :=
  { generatedRequest with ddl := some "CREATE VIEW v AS SELECT 2 AS col" }

/-- The row and the tables after the first save. -/
def textRow : ViewDefinition :=
  { textRequest with
    id := some 1
    ddl := some "CREATE VIEW v AS \nSELECT 1 as col;"
    parsable := true
    version := some 1 }

/-- The tables after the first save. -/
def textStore : Store :=
  { virtualizations := [{ id := 0, name := "dv", version := 1 }], views := [textRow], nextId := 2 }

/-- The row after the second save: only its version has grown. -/
def textRow₂ : ViewDefinition := { textRow with ddl := textRequest.ddl, version := some 2 }

end DvServer

end TeiidSyndesis.Server
