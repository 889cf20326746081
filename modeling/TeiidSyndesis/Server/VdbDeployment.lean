/-
# TeiidSyndesis.Server.VdbDeployment — `deploy` of the metadata instance, with the steps at which it fails.

`deploy` undeploys the VDB of the name before it has looked at the sources of the new one.  Each source
needs its translator, which may have to be loaded, and a data source under its JNDI name; then the Teiid
server deploys the VDB or raises.  A step that fails ends the call with an exception, and the VDB that
has been undeployed does not come back.

Main results:
* `prepared_load` — what loading translators leaves of the server;
* `addTranslator_outcome`, `addSource_outcome`, `addSources_outcome`, `addModels_outcome` — when each step
  fails;
* `deploy_spec`, `deploy_ne_checked` — how a deployment ends;
* `keepsDeployed_iff` — so when a failed one leaves a VDB deployed;
* `existing_lost` — and a VDB that is lost.
-/
import TeiidSyndesis.Datasources.Definitions

namespace TeiidSyndesis.Server

open TeiidSyndesis.Datasources

/-! ## The VDB and the server -/

/-- A source of a model: its translator and its data source. -/
structure SourceMappingMetadata where
  name : String
  translatorName : String
  connectionJndiName : Option String := none
  deriving DecidableEq, Repr

/-- A model, as far as `deploy` reads it. -/
structure MappedModel where
  name : String
  sourceMappings : List SourceMappingMetadata := []
  deriving DecidableEq, Repr

/-- A VDB with its models; its version is the default one, as every VDB's of the program. -/
structure MappedVdb where
  name : String
  modelMetaDatas : List MappedModel := []
  deriving DecidableEq, Repr

/-- The server: its VDBs, and what it has loaded. -/
structure TeiidServer where
  vdbs : List MappedVdb := []
  datasources : List (String × TeiidDataSourceImpl) := []
  /-- the names of the translators it has -/
  executionFactories : List String := []
  connectionFactories : List (String × ConnectionFactory) := []
  deriving DecidableEq, Repr

/-- The exceptions `deploy` converts, with their messages. -/
inductive CheckedException
  | virtualDatabase (message : String)
  | connectorManager (message : String)
  | translator (message : String)
  deriving DecidableEq, Repr

/-- What a call raises. -/
inductive Raised
  | checked (ex : CheckedException)
  | kException (cause : CheckedException)
  | illegalState (message : String)
  | nullPointer (what : String)
  deriving DecidableEq, Repr

/-- A class that may be a translator. -/
structure TranslatorClass where
  className : String
  /-- the name in its annotation -/
  name : String
  deriving DecidableEq, Repr

/-- The class path and the calls of the Teiid server that may raise. -/
structure TeiidRuntime where
  /-- what a scan finds in a package, with nothing for a class that cannot be loaded -/
  findCandidateComponents : String → List (Option TranslatorClass)
  /-- `addTranslator` of the server, which is given null for a class that has not been found -/
  addTranslator : Option TranslatorClass → Except Raised Unit
  addTranslator_null : ∃ ex, addTranslator none = .error ex
  /-- `deployVDB`; where it raises, the VDB is not deployed -/
  deployVDB : MappedVdb → Except Raised Unit

/-! ## Translators -/

/-- The classes of a package are tried in order. -/
def findTranslatorInPackage (translatorName : String) :
    List (Option TranslatorClass) → Except Raised (Option TranslatorClass)
  | [] => .ok none
  | none :: _ => .error (.illegalState "Error loading translators")
  | some clazz :: components =>
      if clazz.name = translatorName then .ok (some clazz)
      else findTranslatorInPackage translatorName components

/-- The translators of Teiid come first. -/
def translatorClass (runtime : TeiidRuntime) (translatorName basePackage : String) :
    Except Raised (Option TranslatorClass) :=
  match findTranslatorInPackage translatorName
      (runtime.findCandidateComponents "org.teiid.translator") with
  | .error ex => .error ex
  | .ok (some clazz) => .ok (some clazz)
  | .ok none =>
      findTranslatorInPackage translatorName (runtime.findCandidateComponents basePackage)

/-- `addTranslator` turns the checked exceptions into one that is not. -/
def translatorFailure (translatorname : String) : Raised → Raised
  | .checked (.connectorManager _) | .checked (.translator _) =>
      .illegalState ("Failed to load translator " ++ translatorname)
  | ex => ex

/-- What comes of loading a translator that the server does not have. -/
def loadTranslator (runtime : TeiidRuntime) (translatorname : String) : Except Raised Unit :=
  match translatorClass runtime translatorname "io.syndesis.dv.rest" with
  | .error ex => .error ex
  | .ok clazz => runtime.addTranslator clazz

/-- `addTranslator`: a translator is loaded, unless it is there. -/
def addTranslator (runtime : TeiidRuntime) (s : TeiidServer) (translatorname : String) :
    Except Raised Unit × TeiidServer :=
  if translatorname ∈ s.executionFactories then (.ok (), s)
  else
    match loadTranslator runtime translatorname with
    | .error ex => (.error (translatorFailure translatorname ex), s)
    | .ok () => (.ok (), { s with executionFactories := s.executionFactories ++ [translatorname] })

/-! ## deploy -/

namespace TeiidServer

/-- The VDB of a name. -/
def getVDB (s : TeiidServer) (name : String) : Option MappedVdb :=
  s.vdbs.find? (·.name = name)

def undeploy (s : TeiidServer) (name : String) : TeiidServer :=
  { s with vdbs := s.vdbs.filter (·.name ≠ name) }

/-- A factory under a name that is taken replaces the other. -/
def addConnectionFactory (s : TeiidServer) (name : String) (factory : ConnectionFactory) :
    TeiidServer :=
  { s with connectionFactories := s.connectionFactories.filter (·.1 ≠ name) ++ [(name, factory)] }

/-- The next statement, which is not reached after an exception. -/
def andThen (result : Except Raised Unit × TeiidServer)
    (next : TeiidServer → Except Raised Unit × TeiidServer) : Except Raised Unit × TeiidServer :=
  match result with
  | (.error ex, t) => (.error ex, t)
  | (.ok (), t) => next t

/-- One round of the inner loop. -/
def addSource (runtime : TeiidRuntime) (s : TeiidServer) (smm : SourceMappingMetadata) :
    Except Raised Unit × TeiidServer :=
  andThen (addTranslator runtime s smm.translatorName) fun t =>
    match smm.connectionJndiName with
    | none => (.ok (), t)
    | some connectionJndiName =>
        match t.datasources.lookup connectionJndiName with
        | none => (.error (.nullPointer "teiidDataSourceImpl"), t)
        | some teiidDataSourceImpl =>
            (.ok (), t.addConnectionFactory smm.name teiidDataSourceImpl.connectionFactory)

/-- The loop over the source mappings of a model. -/
def addSources (runtime : TeiidRuntime) :
    TeiidServer → List SourceMappingMetadata → Except Raised Unit × TeiidServer
  | s, [] => (.ok (), s)
  | s, smm :: sourceMappings =>
      andThen (s.addSource runtime smm) fun t => addSources runtime t sourceMappings

/-- The loop over the models. -/
def addModels (runtime : TeiidRuntime) :
    TeiidServer → List MappedModel → Except Raised Unit × TeiidServer
  | s, [] => (.ok (), s)
  | s, model :: models =>
      andThen (s.addSources runtime model.sourceMappings) fun t => addModels runtime t models

/-- `server.deployVDB` -/
def deployVDB (runtime : TeiidRuntime) (vdb : MappedVdb) (s : TeiidServer) :
    Except Raised Unit × TeiidServer :=
  match runtime.deployVDB vdb with
  | .error ex => (.error ex, s)
  | .ok () => (.ok (), { s with vdbs := s.vdbs ++ [vdb] })

/-- The catch clause of `deploy`. -/
def handleError : Raised → Raised
  | .checked ex => .kException ex
  | ex => ex

/-- What `deploy` makes of an exception. -/
def catching : Except Raised Unit × TeiidServer → Except Raised Unit × TeiidServer
  | (.error ex, t) => (.error (handleError ex), t)
  | (.ok (), t) => (.ok (), t)

/-- The result of the call, and the server it leaves. -/
def deploy (runtime : TeiidRuntime) (s : TeiidServer) (vdb : MappedVdb) :
    Except Raised Unit × TeiidServer :=
  let t := if (s.getVDB vdb.name).isSome then s.undeploy vdb.name else s
  catching (andThen (t.addModels runtime vdb.modelMetaDatas) (deployVDB runtime vdb))

/-! ## Where a step fails -/

variable {runtime : TeiidRuntime}

/-- The translator is not there and cannot be loaded. -/
def TranslatorFails (runtime : TeiidRuntime) (s : TeiidServer) (translatorname : String) : Prop :=
  translatorname ∉ s.executionFactories ∧ ∃ ex, loadTranslator runtime translatorname = .error ex

/-- The JNDI name, where there is one, has no data source. -/
def DataSourceMissing (s : TeiidServer) (smm : SourceMappingMetadata) : Prop :=
  ∃ connectionJndiName, smm.connectionJndiName = some connectionJndiName ∧
    s.datasources.lookup connectionJndiName = none

/-- A step of the deployment fails: for a source of the VDB, or at its end. -/
def StepFails (runtime : TeiidRuntime) (s : TeiidServer) (vdb : MappedVdb) : Prop :=
  (∃ model ∈ vdb.modelMetaDatas, ∃ smm ∈ model.sourceMappings,
      TranslatorFails runtime s smm.translatorName ∨ DataSourceMissing s smm) ∨
    ∃ ex, runtime.deployVDB vdb = .error ex

/-- The call ends with an exception, and the deployed VDBs are those from before. -/
def KeepsDeployed (runtime : TeiidRuntime) (s : TeiidServer) (vdb : MappedVdb) : Prop :=
  (∃ ex, (s.deploy runtime vdb).1 = .error ex) ∧
    ∀ deployed, deployed ∈ (s.deploy runtime vdb).2.vdbs ↔ deployed ∈ s.vdbs

/-- A class that has not been found is a translator that cannot be loaded. -/
theorem loadTranslator_of_not_found {translatorname : String}
    (h : translatorClass runtime translatorname "io.syndesis.dv.rest" = .ok none) :
    ∃ ex, loadTranslator runtime translatorname = .error ex := by
  unfold loadTranslator
  rw [h]
  exact runtime.addTranslator_null

/-- The server has gained no VDB and lost none, has its data sources, and has more translators only of
those that load. -/
structure Prepared (runtime : TeiidRuntime) (s t : TeiidServer) : Prop where
  vdbs : t.vdbs = s.vdbs
  datasources : t.datasources = s.datasources
  translators : ∀ name, TranslatorFails runtime t name ↔ TranslatorFails runtime s name

namespace Prepared

theorem refl (s : TeiidServer) : Prepared runtime s s :=
  ⟨rfl, rfl, fun _ => Iff.rfl⟩

/-- One translator after another. -/
theorem trans {s t u : TeiidServer} (hst : Prepared runtime s t) (htu : Prepared runtime t u) :
    Prepared runtime s u :=
  { vdbs := htu.vdbs.trans hst.vdbs
    datasources := htu.datasources.trans hst.datasources
    translators := fun name => (htu.translators name).trans (hst.translators name) }

/-- Loading translators registers no data source. -/
theorem dataSourceMissing {s t : TeiidServer} (h : Prepared runtime s t)
    (smm : SourceMappingMetadata) : DataSourceMissing t smm ↔ DataSourceMissing s smm := by
  unfold DataSourceMissing
  rw [h.datasources]

end Prepared

/-- A translator that has been loaded is one that loads. -/
theorem prepared_load {s : TeiidServer} {translatorname : String}
    (hload : loadTranslator runtime translatorname = .ok ()) :
    Prepared runtime s
      { s with executionFactories := s.executionFactories ++ [translatorname] } := by
  refine ⟨rfl, rfl, fun name => ?_⟩
  unfold TranslatorFails
  constructor
  · rintro ⟨habsent, hfails⟩
    exact ⟨fun hmem => habsent (List.mem_append_left _ hmem), hfails⟩
  · rintro ⟨habsent, ex, hfails⟩
    refine ⟨fun hmem => ?_, ex, hfails⟩
    rcases List.mem_append.mp hmem with hold | hnew
    · exact habsent hold
    · rw [List.mem_singleton.mp hnew, hload] at hfails
      cases hfails

/-- What a part of the loops does: it raises exactly if `fails`, and the server stays prepared. -/
structure Outcome (runtime : TeiidRuntime) (s : TeiidServer) (fails : Prop)
    (result : Except Raised Unit × TeiidServer) : Prop where
  raises : (∃ ex, result.1 = .error ex) ↔ fails
  prepared : Prepared runtime s result.2

/-- A step that fails. -/
theorem outcome_error {s t : TeiidServer} {fails : Prop} {ex : Raised} (hfails : fails)
    (h : Prepared runtime s t) : Outcome runtime s fails (.error ex, t) :=
  ⟨iff_of_true ⟨ex, rfl⟩ hfails, h⟩

/-- A step that does not. -/
theorem outcome_ok {s t : TeiidServer} {fails : Prop} (hfails : ¬fails)
    (h : Prepared runtime s t) : Outcome runtime s fails (.ok (), t) :=
  ⟨iff_of_false nofun hfails, h⟩

/-- When a translator cannot be had. -/
theorem addTranslator_outcome (s : TeiidServer) (translatorname : String) :
    Outcome runtime s (TranslatorFails runtime s translatorname)
      (addTranslator runtime s translatorname) := by
  unfold addTranslator
  split
  · rename_i hpresent
    exact outcome_ok (fun h => h.1 hpresent) (.refl s)
  · rename_i habsent
    cases hload : loadTranslator runtime translatorname with
    | error ex => exact outcome_error ⟨habsent, ex, hload⟩ (.refl s)
    | ok _ =>
        refine outcome_ok ?_ (prepared_load hload)
        rintro ⟨-, ex, hfails⟩
        rw [hload] at hfails
        cases hfails

/-- Two parts one after the other, the second where the first has not raised. -/
theorem Outcome.next {s : TeiidServer} {first second : Prop}
    {result : Except Raised Unit × TeiidServer}
    {f : TeiidServer → Except Raised Unit × TeiidServer} (h : Outcome runtime s first result)
    (hf : ∀ t, Prepared runtime s t → Outcome runtime t second (f t)) :
    Outcome runtime s (first ∨ second) (andThen result f) := by
  obtain ⟨result, t⟩ := result
  cases result with
  | error ex => exact outcome_error (.inl (h.raises.mp ⟨ex, rfl⟩)) h.prepared
  | ok _ =>
      have hfirst : ¬first := fun hfirst => nomatch h.raises.mpr hfirst
      have hsecond := hf t h.prepared
      refine ⟨?_, h.prepared.trans hsecond.prepared⟩
      rw [or_iff_right hfirst]
      exact hsecond.raises

/-- When a source cannot be added. -/
theorem addSource_outcome (s : TeiidServer) (smm : SourceMappingMetadata) :
    Outcome runtime s (TranslatorFails runtime s smm.translatorName ∨ DataSourceMissing s smm)
      (s.addSource runtime smm) := by
  refine (addTranslator_outcome s smm.translatorName).next fun t ht => ?_
  rw [← ht.dataSourceMissing smm]
  unfold DataSourceMissing
  cases smm.connectionJndiName with
  | none => exact outcome_ok (by simp) (.refl t)
  | some connectionJndiName =>
      cases hlookup : t.datasources.lookup connectionJndiName with
      | none =>
          simp only [hlookup]
          exact outcome_error ⟨connectionJndiName, rfl, hlookup⟩ (.refl t)
      | some teiidDataSourceImpl =>
          simp only [hlookup]
          refine outcome_ok ?_ ⟨rfl, rfl, fun _ => Iff.rfl⟩
          rintro ⟨_, hsame, hnone⟩
          cases hsame
          rw [hlookup] at hnone
          cases hnone

/-- When one of the sources cannot, by induction over them. -/
theorem addSources_outcome (s : TeiidServer) (sourceMappings : List SourceMappingMetadata) :
    Outcome runtime s
      (∃ smm ∈ sourceMappings,
        TranslatorFails runtime s smm.translatorName ∨ DataSourceMissing s smm)
      (s.addSources runtime sourceMappings) := by
  induction sourceMappings generalizing s with
  | nil => exact outcome_ok (by simp) (.refl s)
  | cons smm sourceMappings ih =>
      rw [List.exists_mem_cons_iff]
      refine (addSource_outcome s smm).next fun t ht => ?_
      have hrest := ih t
      simp only [ht.translators, ht.dataSourceMissing] at hrest
      exact hrest

/-- The models fail where one of their sources does, by induction over them. -/
theorem addModels_outcome (s : TeiidServer) (models : List MappedModel) :
    Outcome runtime s
      (∃ model ∈ models, ∃ smm ∈ model.sourceMappings,
        TranslatorFails runtime s smm.translatorName ∨ DataSourceMissing s smm)
      (s.addModels runtime models) := by
  induction models generalizing s with
  | nil => exact outcome_ok (by simp) (.refl s)
  | cons model models ih =>
      rw [List.exists_mem_cons_iff]
      refine (addSources_outcome s model.sourceMappings).next fun t ht => ?_
      have hrest := ih t
      simp only [ht.translators, ht.dataSourceMissing] at hrest
      exact hrest

/-! ## What a failed deployment leaves -/

/-- Undeploying a VDB that is not there changes nothing. -/
theorem undeploy_existing (s : TeiidServer) (name : String) :
    (if (s.getVDB name).isSome then s.undeploy name else s) = s.undeploy name := by
  split
  · rfl
  · rename_i habsent
    have hnone : s.getVDB name = none := by simpa using habsent
    unfold undeploy
    rw [List.filter_eq_self.mpr]
    simpa [getVDB] using hnone

/-- A deployment undeploys first. -/
theorem deploy_eq (s : TeiidServer) (vdb : MappedVdb) :
    s.deploy runtime vdb =
      catching (andThen ((s.undeploy vdb.name).addModels runtime vdb.modelMetaDatas)
        (deployVDB runtime vdb)) := by
  unfold deploy
  rw [undeploy_existing]

/-- The deployment raises exactly if one of its steps fails.  The VDB of the name has gone in any case,
and the new one is there unless it has raised. -/
theorem deploy_spec (s : TeiidServer) (vdb : MappedVdb) :
    ((∃ ex, (s.deploy runtime vdb).1 = .error ex) ↔ StepFails runtime s vdb) ∧
      (s.deploy runtime vdb).2.vdbs =
        s.vdbs.filter (·.name ≠ vdb.name) ++
          (if (s.deploy runtime vdb).1.isOk then [vdb] else []) := by
  have hmodels := @addModels_outcome runtime (s.undeploy vdb.name) vdb.modelMetaDatas
  rw [deploy_eq]
  obtain ⟨hraises, hprepared⟩ := hmodels
  generalize (s.undeploy vdb.name).addModels runtime vdb.modelMetaDatas = loops at hraises hprepared
  obtain ⟨result, t⟩ := loops
  have hvdbs : t.vdbs = s.vdbs.filter (·.name ≠ vdb.name) := hprepared.vdbs
  -- the loops over the models raise, or the deployment itself is all that can still fail
  cases result with
  | error ex =>
      refine ⟨iff_of_true ⟨_, rfl⟩ (.inl (hraises.mp ⟨ex, rfl⟩)), ?_⟩
      exact hvdbs.trans (List.append_nil _).symm
  | ok _ =>
      have hloops : ¬∃ model ∈ vdb.modelMetaDatas, ∃ smm ∈ model.sourceMappings,
          TranslatorFails runtime s smm.translatorName ∨ DataSourceMissing s smm := by
        intro h
        obtain ⟨ex, hex⟩ := hraises.mpr h
        cases hex
      unfold StepFails andThen deployVDB
      rw [or_iff_right hloops]
      cases runtime.deployVDB vdb with
      | error ex =>
          refine ⟨iff_of_true ⟨_, rfl⟩ ⟨ex, rfl⟩, ?_⟩
          exact hvdbs.trans (List.append_nil _).symm
      | ok _ => exact ⟨iff_of_false nofun nofun, congrArg (· ++ [vdb]) hvdbs⟩

/-- No checked exception gets out. -/
theorem catching_ne_checked (result : Except Raised Unit × TeiidServer) (ex : CheckedException) :
    (catching result).1 ≠ .error (.checked ex) := by
  obtain ⟨result, t⟩ := result
  intro h
  cases result with
  | ok _ => cases h
  | error raised => cases raised <;> cases h

/-- No checked exception leaves the call but in a `KException`. -/
theorem deploy_ne_checked (s : TeiidServer) (vdb : MappedVdb) (ex : CheckedException) :
    (s.deploy runtime vdb).1 ≠ .error (.checked ex) := by
  rw [deploy_eq]
  exact catching_ne_checked _ ex

/-- A deployment of which a step fails keeps the deployed VDBs exactly if none has the name. -/
theorem keepsDeployed_iff {s : TeiidServer} {vdb : MappedVdb} (h : StepFails runtime s vdb) :
    KeepsDeployed runtime s vdb ↔ s.getVDB vdb.name = none := by
  obtain ⟨hraises, hvdbs⟩ := @deploy_spec runtime s vdb
  obtain ⟨ex, hex⟩ := hraises.mpr h
  have hleft : (s.deploy runtime vdb).2.vdbs = s.vdbs.filter (·.name ≠ vdb.name) := by
    rw [hvdbs, hex]
    exact List.append_nil _
  have hnone : s.getVDB vdb.name = none ↔ ∀ deployed ∈ s.vdbs, deployed.name ≠ vdb.name := by
    simp [getVDB]
  unfold KeepsDeployed
  rw [hleft, hnone]
  constructor
  · rintro ⟨-, hsame⟩ deployed hmem
    have hfilter := (hsame deployed).mpr hmem
    simpa using (List.mem_filter.mp hfilter).2
  · intro hother
    refine ⟨⟨ex, hex⟩, fun deployed => ?_⟩
    rw [List.mem_filter]
    refine and_iff_left_of_imp fun hmem => ?_
    simpa using hother deployed hmem

/-- The VDB of a connection of which the data source has been removed. -/
def ordersVdb : MappedVdb :=
  { name := "ordersconn"
    modelMetaDatas :=
      [{ name := "orders"
         sourceMappings :=
           [{ name := "orders", translatorName := "postgresql", connectionJndiName := some "orders" }] }] }

/-- A runtime with no classes to scan, where any VDB can be deployed. -/
def plainRuntime : TeiidRuntime where
  findCandidateComponents _ := []
  addTranslator
    | none => .error (.nullPointer "clazz")
    | some _ => .ok ()
  addTranslator_null := ⟨_, rfl⟩
  deployVDB _ := .ok ()

theorem ordersVdb_fails (vdbs : List MappedVdb) :
    StepFails plainRuntime { vdbs := vdbs, executionFactories := ["postgresql"] } ordersVdb :=
  .inl ⟨_, List.mem_singleton_self _, _, List.mem_singleton_self _, .inr ⟨"orders", rfl, rfl⟩⟩

theorem keepsDeployed_iff_orders :
    KeepsDeployed plainRuntime { executionFactories := ["postgresql"] } ordersVdb :=
  (keepsDeployed_iff (ordersVdb_fails [])).mpr rfl

/-- The VDB that was there is lost where the new one has no data source. -/
theorem existing_lost :
    ¬∀ (runtime : TeiidRuntime) (s : TeiidServer) (vdb : MappedVdb),
      StepFails runtime s vdb → KeepsDeployed runtime s vdb := by
  intro h
  have hkeeps := h plainRuntime { vdbs := [ordersVdb], executionFactories := ["postgresql"] } ordersVdb
    (ordersVdb_fails [ordersVdb])
  have hgone : ordersVdb ∈ ([] : List MappedVdb) :=
    (hkeeps.2 ordersVdb).mpr (List.mem_singleton_self _)
  cases hgone

end TeiidServer

end TeiidSyndesis.Server
