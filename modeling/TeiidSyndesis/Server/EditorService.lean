/-
# TeiidSyndesis.Server.EditorService — upserting and removing view definitions.

`upsertViewEditorState` copies a request into a view, new or persistent, and then brings the DDL of a
complete view up to date: a generated one is generated again unless the request is trusted, a user
defined one is parsed when its text has changed.  `updateDv` says whether the virtualization is
touched, which moves its version on.

Main results:
* `updateView_cases` — the inversion of the update of a view, as `UpdatedView`;
* `UpdatedView.frame`, `UpdatedView.kept`, `UpdatedView.decided` — what it leaves and what it decides;
* `loaded_of_viewToUpdate`, `views_of_touched` — which row it is about, and what touching changes;
* `upsertViewEditorState_ok` — so what a whole upsert does to the tables.
-/
import TeiidSyndesis.Repository.RepositoryManager
import TeiidSyndesis.Server.ServiceVdbGenerator

namespace TeiidSyndesis.Server

open TeiidSyndesis.Library TeiidSyndesis.Model TeiidSyndesis.Repository

/-! ## What a user defined DDL defines -/

/-- A text that defines more than one object. -/
def definesMultipleObjects (result : ValidationResult) : Bool :=
  decide (1 < result.schema.tables.length) || !result.schema.procedures.isEmpty ||
    !result.schema.functions.isEmpty

/-- The table a DDL text defines for a view, when it defines nothing else. -/
def usableTable (teiid : Teiid) (viewName ddl : String) : Option Table :=
  match (teiid.parse ddl).schema.getTable teiid viewName with
  | none => none
  | some t => if definesMultipleObjects (teiid.parse ddl) then none else some t

/-! ## upsertViewEditorState -/

/-- The persistent view a request is about; with a version the request must not be behind. -/
def findPersistent (teiid : Teiid) (store : Store) (restViewDefn : ViewDefinition) :
    Except Failure (Option ViewDefinition) :=
  match restViewDefn.id with
  | some id =>
      match store.findViewDefinition id with
      | none => .error (.notFound (toString id))
      | some viewDefn =>
          if restViewDefn.version.isSome && restViewDefn.version != viewDefn.version then
            .error (.conflict none)
          else .ok (some viewDefn)
  | none =>
      .ok (store.findViewDefinitionByNameIgnoreCase teiid restViewDefn.dataVirtualizationName
        restViewDefn.name)

/-- The row an upsert works on: a new one, or the persistent one with the names of the request. -/
def viewToUpdate (store : Store) (restViewDefn : ViewDefinition) :
    Option ViewDefinition → Except Failure (Store × ViewDefinition)
  | none =>
      .ok (store.createViewDefiniton restViewDefn.dataVirtualizationName restViewDefn.name)
  | some viewDefn =>
      if restViewDefn.name = viewDefn.name ∧
          restViewDefn.dataVirtualizationName = viewDefn.dataVirtualizationName then
        .ok (store, viewDefn)
      else .error (.illegalArgument "view name / dv name does not match the persistent state")

/-- The fields a view takes from a request. -/
def copyRequest (viewDefn restViewDefn : ViewDefinition) : ViewDefinition :=
  { viewDefn with
    ddl := restViewDefn.ddl
    description := restViewDefn.description
    sourcePaths := restViewDefn.sourcePaths
    complete := restViewDefn.complete
    userDefined := restViewDefn.userDefined }

/-- A generated view; else the user interface is trusted. -/
def updateGenerated (teiid : Teiid) (finder : SchemaFinder) (viewDefn : ViewDefinition)
    (pathsSame updateDv : Bool) : Except Failure (ViewDefinition × Bool) :=
  if viewDefn.ddl.isNone || !pathsSame || !viewDefn.parsable then do
    let ddl ← getODataViewDdl teiid finder viewDefn
    pure ({ viewDefn with ddl := ddl, parsable := true }, true)
  else pure (viewDefn, updateDv)

/-- A user defined view with a new text.  Partial metadata is kept, other text is not usable. -/
def updateUserDefined (teiid : Teiid) (viewDefn : ViewDefinition) (ddl : String)
    (updateDv : Bool) : ViewDefinition × Bool :=
  match usableTable teiid viewDefn.name ddl with
  | some t =>
      let described :=
        { viewDefn with
          sourcePaths := []
          description := t.annotation.or viewDefn.description }
      if (teiid.parse ddl).metadataException.isNone then ({ described with parsable := true }, true)
      else (described, updateDv)
  | none =>
      ({ viewDefn with sourcePaths := [], parsable := false }, updateDv || viewDefn.parsable)

/-- The DDL of a complete view, brought up to date. -/
def updateDdl (teiid : Teiid) (finder : SchemaFinder) (viewDefn : ViewDefinition)
    (oldDdl : Option String) (pathsSame updateDv : Bool) :
    Except Failure (ViewDefinition × Bool) :=
  if !viewDefn.userDefined then updateGenerated teiid finder viewDefn pathsSame updateDv
  else
    match viewDefn.ddl with
    | some ddl =>
        if oldDdl ≠ some ddl then pure (updateUserDefined teiid viewDefn ddl updateDv)
        else pure (viewDefn, updateDv)
    | none => pure (viewDefn, updateDv)

/-- The upsert of a view row with a request: the row it becomes, and whether the virtualization is
touched. -/
def updateView (teiid : Teiid) (finder : SchemaFinder) (viewDefn restViewDefn : ViewDefinition)
    (created : Bool) : Except Failure (ViewDefinition × Bool) :=
  let pathsSame := !created && restViewDefn.sourcePaths == viewDefn.sourcePaths
  let updated := copyRequest viewDefn restViewDefn
  if updated.complete then updateDdl teiid finder updated viewDefn.ddl pathsSame created
  else pure (updated, false)

/-- `upsertViewEditorState`, inside its transaction. -/
def upsertViewEditorState (teiid : Teiid) (finder : SchemaFinder) (store : Store)
    (restViewDefn : ViewDefinition) : Except Failure (Store × ViewDefinition) := do
  let found ← findPersistent teiid store restViewDefn
  let (store, viewDefn) ← viewToUpdate store restViewDefn found
  let (updated, updateDv) ← updateView teiid finder viewDefn restViewDefn found.isNone
  let store ← if updateDv then store.touch updated.dataVirtualizationName else pure store
  pure (store.writeViewDefinition (Store.flushed viewDefn updated), updated)

/-! ## removeViewDefinition -/

/-- `removeViewDefinition`, inside its transaction. -/
def removeViewDefinition (store : Store) (id : Nat) : Except Failure Store := do
  match store.findViewDefinition id with
  | none => .error (.notFound (toString id))
  | some vd =>
      let store ←
        if vd.complete && vd.parsable then store.touch vd.dataVirtualizationName else pure store
      pure (store.deleteViewDefinition id)

/-! ## What an upsert does to a row -/

/-- The ways an upsert ends for a view row: the row it becomes, and whether the virtualization is
touched. -/
inductive UpdatedView (teiid : Teiid) (finder : SchemaFinder) (viewDefn restViewDefn : ViewDefinition)
    (created : Bool) : ViewDefinition → Bool → Prop
  /-- an incomplete request is copied, and touches nothing -/
  | incomplete : restViewDefn.complete = false →
      UpdatedView teiid finder viewDefn restViewDefn created (copyRequest viewDefn restViewDefn) false
  | generated {ddl : String} : restViewDefn.complete = true → restViewDefn.userDefined = false →
      (restViewDefn.ddl = none ∨ created = true ∨
        restViewDefn.sourcePaths ≠ viewDefn.sourcePaths ∨ viewDefn.parsable = false) →
      getODataViewDdl teiid finder (copyRequest viewDefn restViewDefn) = .ok (some ddl) →
      UpdatedView teiid finder viewDefn restViewDefn created
        { copyRequest viewDefn restViewDefn with ddl := some ddl, parsable := true } true
  /-- the DDL of the request is taken for the generated one -/
  | trusted : restViewDefn.complete = true → restViewDefn.userDefined = false →
      restViewDefn.ddl ≠ none → created = false → restViewDefn.sourcePaths = viewDefn.sourcePaths →
      viewDefn.parsable = true →
      UpdatedView teiid finder viewDefn restViewDefn created (copyRequest viewDefn restViewDefn) false
  | accepted {ddl : String} {t : Table} : restViewDefn.complete = true →
      restViewDefn.userDefined = true → restViewDefn.ddl = some ddl → viewDefn.ddl ≠ some ddl →
      usableTable teiid viewDefn.name ddl = some t → (teiid.parse ddl).metadataException = none →
      UpdatedView teiid finder viewDefn restViewDefn created
        { copyRequest viewDefn restViewDefn with
          sourcePaths := []
          description := t.annotation.or restViewDefn.description
          parsable := true } true
  /-- partial metadata: the flag stays -/
  | partlyParsed {ddl exception : String} {t : Table} : restViewDefn.complete = true →
      restViewDefn.userDefined = true → restViewDefn.ddl = some ddl → viewDefn.ddl ≠ some ddl →
      usableTable teiid viewDefn.name ddl = some t →
      (teiid.parse ddl).metadataException = some exception →
      UpdatedView teiid finder viewDefn restViewDefn created
        { copyRequest viewDefn restViewDefn with
          sourcePaths := []
          description := t.annotation.or restViewDefn.description } created
  | unusable {ddl : String} : restViewDefn.complete = true → restViewDefn.userDefined = true →
      restViewDefn.ddl = some ddl → viewDefn.ddl ≠ some ddl →
      usableTable teiid viewDefn.name ddl = none →
      UpdatedView teiid finder viewDefn restViewDefn created
        { copyRequest viewDefn restViewDefn with sourcePaths := [], parsable := false }
        (created || viewDefn.parsable)
  /-- a user defined text that is missing or the same is not parsed, and the flag stays -/
  | unread : restViewDefn.complete = true → restViewDefn.userDefined = true →
      (restViewDefn.ddl = none ∨ restViewDefn.ddl = viewDefn.ddl) →
      UpdatedView teiid finder viewDefn restViewDefn created (copyRequest viewDefn restViewDefn)
        created

/-- A complete view gets a DDL, or an exception. -/
theorem getODataViewDdl_isSome {teiid : Teiid} {finder : SchemaFinder} {viewDef : ViewDefinition}
    {ddl : Option String} (hcomplete : viewDef.complete = true)
    (h : getODataViewDdl teiid finder viewDef = .ok ddl) : ddl.isSome := by
  unfold getODataViewDdl at h
  rw [if_pos hcomplete] at h
  obtain ⟨infos, _, hinfos⟩ := bind_eq_ok.mp h
  match infos, hinfos with
  | some [], hinfos =>
      rw [← pure_eq_ok.mp hinfos]
      rfl
  | some (_ :: _), hinfos =>
      rw [← pure_eq_ok.mp hinfos]
      rfl

/-- A complete view that is generated. -/
theorem updateGenerated_cases {teiid : Teiid} {finder : SchemaFinder}
    {viewDefn restViewDefn updated : ViewDefinition} {created touched : Bool}
    (hcomplete : restViewDefn.complete = true) (huser : restViewDefn.userDefined = false)
    (h : updateGenerated teiid finder (copyRequest viewDefn restViewDefn)
      (!created && restViewDefn.sourcePaths == viewDefn.sourcePaths) created =
        .ok (updated, touched)) :
    UpdatedView teiid finder viewDefn restViewDefn created updated touched := by
  unfold updateGenerated at h
  split at h
  · rename_i hneeded
    obtain ⟨ddl, hddl, hresult⟩ := bind_eq_ok.mp h
    have hcopied : (copyRequest viewDefn restViewDefn).complete = true := hcomplete
    obtain ⟨text, rfl⟩ := Option.isSome_iff_exists.mp (getODataViewDdl_isSome hcopied hddl)
    cases pure_eq_ok.mp hresult
    refine .generated hcomplete huser ?_ hddl
    cases created with
    | false => simpa [copyRequest, or_assoc] using hneeded
    | true => exact .inr (.inl rfl)
  · rename_i hneeded
    cases pure_eq_ok.mp h
    obtain ⟨⟨hddl, hcreated, hpaths⟩, hparsable⟩ :
        (restViewDefn.ddl ≠ none ∧ created = false ∧
          restViewDefn.sourcePaths = viewDefn.sourcePaths) ∧ viewDefn.parsable = true := by
      simpa [copyRequest] using hneeded
    rw [hcreated]
    exact .trusted hcomplete huser hddl rfl hpaths hparsable

/-- A complete view whose text is the user's. -/
theorem updateUserDefined_cases {teiid : Teiid} (finder : SchemaFinder)
    {viewDefn restViewDefn : ViewDefinition} {ddl : String} (created : Bool)
    (hcomplete : restViewDefn.complete = true) (huser : restViewDefn.userDefined = true)
    (hddl : restViewDefn.ddl = some ddl) (hnew : viewDefn.ddl ≠ some ddl) :
    UpdatedView teiid finder viewDefn restViewDefn created
      (updateUserDefined teiid (copyRequest viewDefn restViewDefn) ddl created).1
      (updateUserDefined teiid (copyRequest viewDefn restViewDefn) ddl created).2 := by
  unfold updateUserDefined
  have hname : (copyRequest viewDefn restViewDefn).name = viewDefn.name := rfl
  rw [hname]
  cases ht : usableTable teiid viewDefn.name ddl with
  | none => exact .unusable hcomplete huser hddl hnew ht
  | some t =>
      cases hexception : (teiid.parse ddl).metadataException with
      | none => exact .accepted hcomplete huser hddl hnew ht hexception
      | some exception => exact .partlyParsed hcomplete huser hddl hnew ht hexception

/-- Every update is one of the cases of `UpdatedView`. -/
theorem updateView_cases {teiid : Teiid} {finder : SchemaFinder}
    {viewDefn restViewDefn updated : ViewDefinition} {created touched : Bool}
    (h : updateView teiid finder viewDefn restViewDefn created = .ok (updated, touched)) :
    UpdatedView teiid finder viewDefn restViewDefn created updated touched := by
  -- the request's flags are copied before they are read, so the cases are those of the request
  unfold updateView at h
  dsimp only at h
  cases hcomplete : restViewDefn.complete with
  | false =>
      have hcopied : (copyRequest viewDefn restViewDefn).complete = false := hcomplete
      rw [hcopied] at h
      cases pure_eq_ok.mp h
      exact .incomplete hcomplete
  | true =>
      have hcopied : (copyRequest viewDefn restViewDefn).complete = true := hcomplete
      rw [hcopied, if_pos rfl] at h
      unfold updateDdl at h
      have huserCopied : (copyRequest viewDefn restViewDefn).userDefined =
        restViewDefn.userDefined := rfl
      have hddlCopied : (copyRequest viewDefn restViewDefn).ddl = restViewDefn.ddl := rfl
      rw [huserCopied, hddlCopied] at h
      cases huser : restViewDefn.userDefined with
      | false =>
          rw [huser] at h
          exact updateGenerated_cases hcomplete huser h
      | true =>
          rw [huser] at h
          cases hddl : restViewDefn.ddl with
          | none =>
              rw [hddl] at h
              cases pure_eq_ok.mp h
              exact .unread hcomplete huser (.inl hddl)
          | some ddl =>
              rw [hddl] at h
              by_cases hnew : viewDefn.ddl = some ddl
              · -- a text that has not changed is not parsed again
                rw [hnew] at h
                cases (pure_eq_ok.mp (by simpa using h))
                exact .unread hcomplete huser (.inr (hddl.trans hnew.symm))
              · have hupdated :
                    updateUserDefined teiid (copyRequest viewDefn restViewDefn) ddl created =
                      (updated, touched) := pure_eq_ok.mp (by simpa [hnew] using h)
                have hcases :=
                  @updateUserDefined_cases teiid finder _ _ _ created hcomplete huser hddl hnew
                rw [hupdated] at hcases
                exact hcases

/-- A complete request makes the upsert decide anew whether the view is parsable. -/
def decidesParsable (teiid : Teiid) (viewDefn restViewDefn : ViewDefinition) : Bool :=
  if restViewDefn.userDefined then
    match restViewDefn.ddl with
    | none => false
    | some ddl =>
        viewDefn.ddl != some ddl &&
          ((usableTable teiid viewDefn.name ddl).isNone || (teiid.parse ddl).metadataException.isNone)
  else
    restViewDefn.ddl.isNone || restViewDefn.sourcePaths != viewDefn.sourcePaths || !viewDefn.parsable

namespace UpdatedView

variable {teiid : Teiid} {finder : SchemaFinder} {viewDefn restViewDefn updated : ViewDefinition}
  {created touched : Bool}

/-- What every update takes from the request, and what it leaves. -/
theorem frame (h : UpdatedView teiid finder viewDefn restViewDefn created updated touched) :
    updated.id = viewDefn.id ∧ updated.name = viewDefn.name ∧
      updated.dataVirtualizationName = viewDefn.dataVirtualizationName ∧
      updated.complete = restViewDefn.complete := by
  cases h <;> exact ⟨rfl, rfl, rfl, rfl⟩

/-- A view that is not complete is a copy of the request. -/
theorem of_incomplete (h : UpdatedView teiid finder viewDefn restViewDefn created updated touched)
    (hincomplete : restViewDefn.complete = false) :
    updated = copyRequest viewDefn restViewDefn ∧ touched = false := by
  cases h with
  | incomplete => exact ⟨rfl, rfl⟩
  | generated hcomplete | trusted hcomplete | accepted hcomplete | partlyParsed hcomplete
  | unusable hcomplete | unread hcomplete =>
      rw [hincomplete] at hcomplete
      cases hcomplete

/-- Undecided, the flag of the row goes with the text of the request. -/
theorem kept (h : UpdatedView teiid finder viewDefn restViewDefn false updated touched)
    (hcomplete : restViewDefn.complete = true)
    (hdecides : decidesParsable teiid viewDefn restViewDefn = false) :
    updated.ddl = restViewDefn.ddl ∧ updated.parsable = viewDefn.parsable ∧ touched = false := by
  unfold decidesParsable at hdecides
  cases h with
  | incomplete hincomplete =>
      rw [hcomplete] at hincomplete
      cases hincomplete
  | generated _ huser hneeded =>
      rw [huser] at hdecides
      obtain ⟨⟨hddl, hpaths⟩, hparsable⟩ :
          (restViewDefn.ddl.isSome = true ∧ restViewDefn.sourcePaths = viewDefn.sourcePaths) ∧
            viewDefn.parsable = true := by simpa using hdecides
      -- each reason to generate is one the condition excludes
      rcases hneeded with hnone | hcreated | hpathsNe | hunparsable
      · rw [hnone] at hddl
        cases hddl
      · cases hcreated
      · exact absurd hpaths hpathsNe
      · rw [hparsable] at hunparsable
        cases hunparsable
  | trusted => exact ⟨rfl, rfl, rfl⟩
  | accepted _ huser hddl hnew _ hexception =>
      rw [huser, hddl] at hdecides
      simp [hnew, hexception] at hdecides
  | partlyParsed => exact ⟨rfl, rfl, rfl⟩
  | unusable _ huser hddl hnew hunusable =>
      rw [huser, hddl] at hdecides
      simp [hnew, hunusable] at hdecides
  | unread => exact ⟨rfl, rfl, rfl⟩

/-- Decided, the virtualization is touched unless the view was not parsable and still is not. -/
theorem decided (h : UpdatedView teiid finder viewDefn restViewDefn false updated touched)
    (hcomplete : restViewDefn.complete = true)
    (hdecides : decidesParsable teiid viewDefn restViewDefn = true) :
    touched = true ∨ (updated.parsable = false ∧ viewDefn.parsable = false) := by
  unfold decidesParsable at hdecides
  cases h with
  | incomplete hincomplete =>
      rw [hcomplete] at hincomplete
      cases hincomplete
  | generated => exact .inl rfl
  | trusted _ huser hddl _ hpaths hparsable =>
      rw [huser] at hdecides
      simp [hddl, hpaths, hparsable] at hdecides
  | accepted => exact .inl rfl
  | partlyParsed _ huser hddl _ ht hexception =>
      rw [huser, hddl] at hdecides
      simp [ht, hexception] at hdecides
  | unusable =>
      -- the one branch that decides and may leave the version alone
      cases hparsable : viewDefn.parsable with
      | true => exact .inl rfl
      | false => exact .inr ⟨rfl, rfl⟩
  | unread _ huser hddl =>
      rw [huser] at hdecides
      rcases hddl with hnone | hsame
      · rw [hnone] at hdecides
        cases hdecides
      · rw [← hsame] at hdecides
        cases hrest : restViewDefn.ddl with
        | none =>
            rw [hrest] at hdecides
            cases hdecides
        | some ddl =>
            rw [hrest] at hdecides
            simp at hdecides

end UpdatedView

/-! ## What an upsert does to the tables -/

/-- The row an upsert works on, in the tables it then belongs to. -/
inductive Loaded (teiid : Teiid) (store : Store) (restViewDefn : ViewDefinition) :
    Store → ViewDefinition → Bool → Prop
  | new : findPersistent teiid store restViewDefn = .ok none →
      Loaded teiid store restViewDefn
        (store.createViewDefiniton restViewDefn.dataVirtualizationName restViewDefn.name).1
        (store.createViewDefiniton restViewDefn.dataVirtualizationName restViewDefn.name).2 true
  | persistent {viewDefn : ViewDefinition} :
      findPersistent teiid store restViewDefn = .ok (some viewDefn) →
      restViewDefn.name = viewDefn.name →
      restViewDefn.dataVirtualizationName = viewDefn.dataVirtualizationName →
      Loaded teiid store restViewDefn store viewDefn false

/-- What is found is a row. -/
theorem mem_of_findPersistent {teiid : Teiid} {store : Store} {restViewDefn viewDefn : ViewDefinition}
    (h : findPersistent teiid store restViewDefn = .ok (some viewDefn)) :
    viewDefn ∈ store.views := by
  unfold findPersistent at h
  split at h
  · split at h
    · cases h
    · rename_i hfind
      split at h
      · cases h
      · cases h
        exact List.mem_of_find?_eq_some hfind
  · have hfind : store.findViewDefinitionByNameIgnoreCase teiid restViewDefn.dataVirtualizationName
        restViewDefn.name = some viewDefn := by simpa using h
    exact List.mem_of_find?_eq_some hfind

/-- The row is in the tables, under the names of the request: a new one at the end of them, incomplete
so far, or one that was there. -/
theorem loaded_row {teiid : Teiid} {store base : Store} {restViewDefn viewDefn : ViewDefinition}
    {created : Bool} (h : Loaded teiid store restViewDefn base viewDefn created) :
    viewDefn ∈ base.views ∧ base.virtualizations = store.virtualizations ∧
      viewDefn.dataVirtualizationName = restViewDefn.dataVirtualizationName ∧
      ((created = true ∧ viewDefn.complete = false ∧ base.views = store.views ++ [viewDefn]) ∨
        (created = false ∧ base = store)) := by
  cases h with
  | new =>
      exact ⟨List.mem_append_right _ List.mem_cons_self, rfl, rfl, .inl ⟨rfl, rfl, rfl⟩⟩
  | persistent hfound _ hdv =>
      exact ⟨mem_of_findPersistent hfound, rfl, hdv.symm, .inr ⟨rfl, rfl⟩⟩

/-- Touched or not, the tables have the view rows they had. -/
theorem views_of_touched {base mid : Store} {touched : Bool} {virtualization : String}
    (h : (if touched then base.touch virtualization else .ok base) = .ok mid) :
    mid.views = base.views := by
  cases touched with
  | true => exact Store.views_of_touch h
  | false =>
      cases h
      rfl

/-- A flush keeps the id. -/
theorem id_flushed {old view : ViewDefinition} (h : view.id = old.id) :
    (Store.flushed old view).id = old.id := by
  rcases Store.flushed_eq_or old view with heq | heq
  · rw [heq]
    exact h
  · rw [heq]
    exact h

/-- A request may not rename the view it is for. -/
theorem viewToUpdate_some {store base : Store} {restViewDefn persistent viewDefn : ViewDefinition}
    (h : viewToUpdate store restViewDefn (some persistent) = .ok (base, viewDefn)) :
    base = store ∧ viewDefn = persistent ∧ restViewDefn.name = persistent.name ∧
      restViewDefn.dataVirtualizationName = persistent.dataVirtualizationName := by
  unfold viewToUpdate at h
  dsimp only at h
  split at h
  · rename_i hnames
    cases h
    exact ⟨rfl, rfl, hnames⟩
  · cases h

/-- A view is loaded, or a new one is made of the request's names. -/
theorem loaded_of_viewToUpdate {teiid : Teiid} {store base : Store}
    {restViewDefn viewDefn : ViewDefinition} {found : Option ViewDefinition}
    (hfound : findPersistent teiid store restViewDefn = .ok found)
    (h : viewToUpdate store restViewDefn found = .ok (base, viewDefn)) :
    Loaded teiid store restViewDefn base viewDefn found.isNone := by
  cases found with
  | none =>
      cases h
      exact .new hfound
  | some persistent =>
      obtain ⟨rfl, rfl, hname, hdv⟩ := viewToUpdate_some h
      exact .persistent hfound hname hdv

/-- The row was there, or it is new and has no text yet. -/
theorem loaded_from {store base : Store} {restViewDefn viewDefn : ViewDefinition}
    {found : Option ViewDefinition}
    (h : viewToUpdate store restViewDefn found = .ok (base, viewDefn)) :
    (found = some viewDefn ∧ found.isNone = false) ∨
      (found = none ∧ found.isNone = true ∧ viewDefn.ddl = none) := by
  cases found with
  | none =>
      cases h
      exact .inr ⟨rfl, rfl, rfl⟩
  | some persistent =>
      obtain ⟨rfl, rfl, _⟩ := viewToUpdate_some h
      exact .inl ⟨rfl, rfl⟩

/-- An upsert succeeds where each of its parts does. -/
theorem upsertViewEditorState_eq_ok {teiid : Teiid} {finder : SchemaFinder} {store store' : Store}
    {restViewDefn view : ViewDefinition} :
    upsertViewEditorState teiid finder store restViewDefn = .ok (store', view) ↔
      ∃ found base viewDefn touched mid,
        findPersistent teiid store restViewDefn = .ok found ∧
          viewToUpdate store restViewDefn found = .ok (base, viewDefn) ∧
          updateView teiid finder viewDefn restViewDefn found.isNone = .ok (view, touched) ∧
          (if touched then base.touch view.dataVirtualizationName else .ok base) = .ok mid ∧
          store' = mid.writeViewDefinition (Store.flushed viewDefn view) := by
  unfold upsertViewEditorState
  constructor
  · intro h
    obtain ⟨found, hfound, h⟩ := bind_eq_ok.mp h
    obtain ⟨⟨base, viewDefn⟩, hload, h⟩ := bind_eq_ok.mp h
    obtain ⟨⟨updated, touched⟩, hupdate, h⟩ := bind_eq_ok.mp h
    -- the touch is one step of the chain only where it is made
    have hwritten : ∃ mid, (if touched then base.touch updated.dataVirtualizationName
        else .ok base) = .ok mid ∧
          pure (mid.writeViewDefinition (Store.flushed viewDefn updated), updated) =
            (.ok (store', view) : Except Failure (Store × ViewDefinition)) := by
      cases touched <;> exact bind_eq_ok.mp h
    obtain ⟨mid, hmid, hresult⟩ := hwritten
    cases pure_eq_ok.mp hresult
    exact ⟨found, base, viewDefn, touched, mid, hfound, hload, hupdate, hmid, rfl⟩
  · rintro ⟨found, base, viewDefn, touched, mid, hfound, hload, hupdate, hmid, rfl⟩
    refine bind_eq_ok.mpr ⟨found, hfound, ?_⟩
    refine bind_eq_ok.mpr ⟨(base, viewDefn), hload, ?_⟩
    refine bind_eq_ok.mpr ⟨(view, touched), hupdate, ?_⟩
    cases touched <;> exact bind_eq_ok.mpr ⟨mid, hmid, rfl⟩

/-- A successful upsert has loaded a row, updated it, touched its virtualization or not, and written
the row. -/
theorem upsertViewEditorState_ok {teiid : Teiid} {finder : SchemaFinder} {store store' : Store}
    {restViewDefn view : ViewDefinition}
    (h : upsertViewEditorState teiid finder store restViewDefn = .ok (store', view)) :
    ∃ base viewDefn created touched mid,
      Loaded teiid store restViewDefn base viewDefn created ∧
        UpdatedView teiid finder viewDefn restViewDefn created view touched ∧
        (if touched then base.touch view.dataVirtualizationName else .ok base) = .ok mid ∧
        store' = mid.writeViewDefinition (Store.flushed viewDefn view) := by
  obtain ⟨found, base, viewDefn, touched, mid, hfound, hload, hupdate, hmid, hstore⟩ :=
    upsertViewEditorState_eq_ok.mp h
  exact ⟨base, viewDefn, found.isNone, touched, mid, loaded_of_viewToUpdate hfound hload,
    updateView_cases hupdate, hmid, hstore⟩

end TeiidSyndesis.Server
