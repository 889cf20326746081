/-
# TeiidSyndesis.Server.ValidationErrors — whether an object of a VDB has a validation error.

`TeiidVdbImpl` collects the paths of the errors of a model when it is asked for the first time, and
answers from them from then on, whatever model it is asked about.  Its answers are right as long as the
model of the first question gives the answer of the model in question; a list of the views of one
virtualization only ever asks about one model.

Main results:
* `collected`, `answerFrom`, `answers_eq` — every answer is given from the first model that was asked about;
* `transparent_iff` — so all answers are right exactly if that model agrees with the others;
* `createViewList_valid` — which holds of a list of views;
* `error_not_found` — and fails of two models.
-/
import Mathlib.Data.List.Forall2
import TeiidSyndesis.Model.Entities

namespace TeiidSyndesis.Server

open TeiidSyndesis.Model

/-! ## TeiidVdbImpl -/

/-- How bad a message is. -/
inductive Severity
  | error
  | warning
  | info
  deriving DecidableEq, Repr

/-- A message of the validation. -/
structure Message where
  severity : Severity
  path : Option String
  deriving DecidableEq, Repr

/-- A model of a deployed VDB, with what its validation has to say. -/
structure ValidatedModel where
  name : String
  messages : List Message := []
  deriving DecidableEq, Repr

/-- The paths of its error messages. -/
def ValidatedModel.errorPaths (m : ValidatedModel) : List String :=
  m.messages.filterMap fun message => if message.severity = .error then message.path else none

structure TeiidVdbImpl where
  models : List ValidatedModel
  /-- what has been collected, null before -/
  haveErrors : Option (List String) := none
  deriving DecidableEq, Repr

/-- The arguments of a call of `hasValidationError`. -/
structure ErrorQuery where
  schemaName : String
  objectName : String
  childType : String
  deriving DecidableEq, Repr

namespace TeiidVdbImpl

variable (fqn : String → String → String)

/-- The model of a name. -/
def getModel (vdb : TeiidVdbImpl) (name : String) : Option ValidatedModel :=
  vdb.models.find? (·.name = name)

/-- The answer, and the VDB with what it has collected; `fqn` is the path of a type and an object. -/
def hasValidationError (vdb : TeiidVdbImpl) (query : ErrorQuery) : Bool × TeiidVdbImpl :=
  match vdb.getModel query.schemaName with
  | none => (false, vdb)
  | some m =>
      let haveErrors := vdb.haveErrors.getD m.errorPaths
      (haveErrors.contains (fqn query.childType query.objectName),
        { vdb with haveErrors := some haveErrors })

/-- The answers to calls one after another. -/
def answers : TeiidVdbImpl → List ErrorQuery → List Bool
  | _, [] => []
  | vdb, query :: queries =>
      (vdb.hasValidationError fqn query).1 :: answers (vdb.hasValidationError fqn query).2 queries

/-- The model exists and has an error at the path of the object. -/
def HasError (vdb : TeiidVdbImpl) (query : ErrorQuery) : Prop :=
  ∃ m, vdb.getModel query.schemaName = some m ∧ ∃ message ∈ m.messages,
    message.severity = .error ∧ message.path = some (fqn query.childType query.objectName)

/-- Each call answers as if it were the only one. -/
def Transparent (vdb : TeiidVdbImpl) (queries : List ErrorQuery) : Prop :=
  List.Forall₂ (fun query answer => answer = true ↔ vdb.HasError fqn query) queries
    (vdb.answers fqn queries)

/-- The model the first call finds. -/
def firstModel (vdb : TeiidVdbImpl) (queries : List ErrorQuery) : Option ValidatedModel :=
  queries.findSome? fun query => vdb.getModel query.schemaName

/-- A model that is asked about has an error there exactly if the first model has. -/
def AgreesWithFirst (vdb : TeiidVdbImpl) (queries : List ErrorQuery) : Prop :=
  ∀ first, vdb.firstModel queries = some first → ∀ query ∈ queries, ∀ m,
    vdb.getModel query.schemaName = some m →
      (fqn query.childType query.objectName ∈ first.errorPaths ↔
        fqn query.childType query.objectName ∈ m.errorPaths)

/-! ## What is answered -/

variable {fqn} {vdb : TeiidVdbImpl}

/-- The paths of its errors. -/
theorem mem_errorPaths {m : ValidatedModel} {path : String} :
    path ∈ m.errorPaths ↔
      ∃ message ∈ m.messages, message.severity = .error ∧ message.path = some path := by
  unfold ValidatedModel.errorPaths
  rw [List.mem_filterMap]
  refine exists_congr fun message => and_congr_right fun _ => ?_
  split
  · rename_i herror
    exact (and_iff_right herror).symm
  · rename_i herror
    exact iff_of_false nofun fun h => herror h.1

/-- An object has an error exactly if its path is one of them. -/
theorem hasError_iff {query : ErrorQuery} :
    vdb.HasError fqn query ↔ ∃ m, vdb.getModel query.schemaName = some m ∧
      fqn query.childType query.objectName ∈ m.errorPaths := by
  unfold HasError
  simp only [mem_errorPaths]

/-- The answer where these paths have been collected. -/
def answerFrom (fqn : String → String → String) (vdb : TeiidVdbImpl) (haveErrors : List String)
    (query : ErrorQuery) : Bool :=
  (vdb.getModel query.schemaName).isSome &&
    haveErrors.contains (fqn query.childType query.objectName)

/-- What the calls answer from: what has been collected, or what the first model adds. -/
def collected (vdb : TeiidVdbImpl) (queries : List ErrorQuery) : List String :=
  vdb.haveErrors.getD (((vdb.firstModel queries).map ValidatedModel.errorPaths).getD [])

theorem hasValidationError_of_some {query : ErrorQuery} {m : ValidatedModel}
    (h : vdb.getModel query.schemaName = some m) :
    vdb.hasValidationError fqn query =
      ((vdb.haveErrors.getD m.errorPaths).contains (fqn query.childType query.objectName),
        { vdb with haveErrors := some (vdb.haveErrors.getD m.errorPaths) }) := by
  unfold hasValidationError
  rw [h]

/-- All calls answer from the same paths. -/
theorem answers_eq (queries : List ErrorQuery) :
    vdb.answers fqn queries = queries.map (answerFrom fqn vdb (vdb.collected queries)) := by
  induction queries generalizing vdb with
  | nil => rfl
  | cons query queries ih =>
      rw [answers, List.map_cons, ih]
      cases hmodel : vdb.getModel query.schemaName with
      | none =>
          have hfirst : vdb.firstModel (query :: queries) = vdb.firstModel queries := by
            unfold firstModel
            rw [List.findSome?_cons, hmodel]
          simp [hasValidationError, hmodel, answerFrom, collected, hfirst]
      | some m =>
          have hpaths : vdb.collected (query :: queries) = vdb.haveErrors.getD m.errorPaths := by
            unfold collected firstModel
            rw [List.findSome?_cons, hmodel]
            rfl
          rw [hasValidationError_of_some hmodel, hpaths, answerFrom, hmodel]
          -- the models are the same, and the paths are collected by now
          rfl

/-- The answers are right exactly if the first model that is found gives those of all others. -/
theorem transparent_iff (hfresh : vdb.haveErrors = none) (queries : List ErrorQuery) :
    vdb.Transparent fqn queries ↔ vdb.AgreesWithFirst fqn queries := by
  unfold Transparent
  rw [answers_eq, List.forall₂_map_right_iff, List.forall₂_same]
  unfold AgreesWithFirst
  -- the first model that is asked about fills the cache for all
  cases hfirst : vdb.firstModel queries with
  | none =>
      refine iff_of_true ?_ nofun
      intro query hquery
      have hnone : vdb.getModel query.schemaName = none := List.findSome?_eq_none_iff.mp hfirst query hquery
      rw [hasError_iff, answerFrom, hnone]
      simp
  | some first =>
      have hpaths : vdb.collected queries = first.errorPaths := by
        unfold collected
        rw [hfresh, hfirst]
        rfl
      simp only [Option.some.injEq, forall_eq']
      refine forall_congr' fun query => imp_congr_right fun _ => ?_
      rw [hasError_iff, answerFrom, hpaths]
      cases hmodel : vdb.getModel query.schemaName with
      | none => simp
      | some m => simp

/-- Two models; one has an error at the path of `t`. -/
def oneError : TeiidVdbImpl where
  models :=
    [{ name := "views", messages := [⟨.error, some "table=t"⟩, ⟨.warning, some "table=u"⟩] },
      { name := "more" }]

def typedPath (childType objectName : String) : String := childType ++ "=" ++ objectName

theorem transparent_iff_views :
    oneError.Transparent typedPath [⟨"views", "t", "table"⟩, ⟨"more", "u", "table"⟩] := by
  refine (transparent_iff rfl _).mpr ?_
  unfold AgreesWithFirst firstModel
  decide

/-- Asked about `more` first, the VDB finds no error in `views` any more. -/
theorem error_not_found :
    ¬∀ (fqn : String → String → String) (vdb : TeiidVdbImpl) (queries : List ErrorQuery),
      vdb.haveErrors = none → vdb.Transparent fqn queries := by
  intro h
  have htransparent :=
    h typedPath oneError [⟨"more", "t", "table"⟩, ⟨"views", "t", "table"⟩] rfl
  unfold Transparent at htransparent
  rw [List.forall₂_iff_get] at htransparent
  have hanswer := (htransparent.2 1 (by decide) (by decide)).mpr
    ⟨_, rfl, ⟨.error, some "table=t"⟩, by decide, rfl, by decide⟩
  exact absurd hanswer (by decide)

/-! ## createViewList -/

/-- A view in a list, with what was found. -/
structure ViewListing where
  id : Option Nat
  name : String
  description : Option String
  valid : Bool
  deriving DecidableEq, Repr

def newListing (view : ViewDefinition) (valid : Bool) : ViewListing :=
  { id := view.id, name := view.name, description := view.description, valid := valid }

/-- The loop over the views, on the preview VDB of their virtualization. -/
def createViewList (fqn : String → String → String) : TeiidVdbImpl → List ViewDefinition →
    List ViewListing
  | _, [] => []
  | vdb, view :: views =>
      if view.parsable then
        let query : ErrorQuery := ⟨view.dataVirtualizationName, view.name, "table"⟩
        newListing view (!(vdb.hasValidationError fqn query).1) ::
          createViewList fqn (vdb.hasValidationError fqn query).2 views
      else newListing view false :: createViewList fqn vdb views

/-- What has been collected is of the model of that name. -/
def CollectedFrom (vdb : TeiidVdbImpl) (schemaName : String) : Prop :=
  ∀ paths, vdb.haveErrors = some paths →
    ∃ m, vdb.getModel schemaName = some m ∧ paths = m.errorPaths

/-- Asked about that model, the VDB answers right and goes on with the same paths. -/
theorem hasValidationError_spec {schemaName : String} (h : vdb.CollectedFrom schemaName)
    (objectName childType : String) :
    ((vdb.hasValidationError fqn ⟨schemaName, objectName, childType⟩).1 = true ↔
        vdb.HasError fqn ⟨schemaName, objectName, childType⟩) ∧
      (vdb.hasValidationError fqn ⟨schemaName, objectName, childType⟩).2.CollectedFrom schemaName ∧
      (vdb.hasValidationError fqn ⟨schemaName, objectName, childType⟩).2.models = vdb.models := by
  rw [hasError_iff]
  dsimp only
  cases hmodel : vdb.getModel schemaName with
  | none =>
      have hanswer : vdb.hasValidationError fqn ⟨schemaName, objectName, childType⟩ = (false, vdb) := by
        unfold hasValidationError
        rw [hmodel]
      rw [hanswer]
      exact ⟨by simp, h, rfl⟩
  | some m =>
      -- whatever was collected before is of the same model
      have hpaths : vdb.haveErrors.getD m.errorPaths = m.errorPaths := by
        cases hcollected : vdb.haveErrors with
        | none => rfl
        | some paths =>
            obtain ⟨m', hm', rfl⟩ := h paths hcollected
            obtain rfl := Option.some.inj (hmodel.symm.trans hm')
            rfl
      rw [hasValidationError_of_some hmodel, hpaths]
      refine ⟨by simp, fun paths hcollected => ?_, rfl⟩
      exact ⟨m, hmodel, (Option.some.inj hcollected).symm⟩

/-- A view is listed as valid exactly if it is parsable and the model of the virtualization has no error
at its path. -/
theorem createViewList_valid {virtualization : String} {views : List ViewDefinition}
    (hviews : ∀ view ∈ views, view.dataVirtualizationName = virtualization)
    (h : vdb.CollectedFrom virtualization) :
    List.Forall₂
      (fun view listing => listing.valid = true ↔
        view.parsable = true ∧ ¬vdb.HasError fqn ⟨virtualization, view.name, "table"⟩)
      views (createViewList fqn vdb views) := by
  induction views generalizing vdb with
  | nil => exact .nil
  | cons view views ih =>
      rw [List.forall_mem_cons] at hviews
      obtain ⟨rfl, hviews⟩ := hviews
      rw [createViewList]
      split
      · rename_i hparsable
        obtain ⟨hanswer, hcollected, hmodels⟩ := @hasValidationError_spec fqn _ _ h view.name "table"
        refine .cons ?_ ?_
        · simp [newListing, hparsable, ← hanswer]
        · have hsame : ∀ query, HasError fqn (vdb.hasValidationError fqn
              ⟨view.dataVirtualizationName, view.name, "table"⟩).2 query ↔ vdb.HasError fqn query := by
            intro query
            unfold HasError getModel
            rw [hmodels]
          simpa only [hsame] using ih hviews hcollected
      · rename_i hparsable
        exact .cons (by simp [newListing, hparsable]) (ih hviews h)

end TeiidVdbImpl

end TeiidSyndesis.Server
