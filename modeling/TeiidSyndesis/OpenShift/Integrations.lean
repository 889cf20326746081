/-
# TeiidSyndesis.OpenShift.Integrations — which integrations use a virtualization.

Syndesis lists its integrations with their flows, and the connection each step of a flow uses.
`findIntegrationUsedIn` looks the stored source id of the virtualization up in an index of that document,
which it keeps for a minute.

The index is a `WeakHashMap`: an entry may be dropped once nothing else holds its key.  An index that
is up to date is one that still has the entries that were put into it.

Main results:
* `addStep_uses`, `addFlow_uses`, `addIntegration_uses` — what is added for a connection is found under it,
  and later additions keep it;
* `inUse_of_lists`, `findIntegrationUsedIn_ne_nil` — so a virtualization that is used is found to be.
-/
import TeiidSyndesis.Library.Lists
import TeiidSyndesis.Repository.SharedTable

namespace TeiidSyndesis.OpenShift

open TeiidSyndesis.Library TeiidSyndesis.Model TeiidSyndesis.Repository

/-! ## The integrations document -/

/-- A field that is `none` is not in the document. -/
structure StepConnection where
  id : Option String := none
  deriving DecidableEq, Repr

/-- A step of a flow. -/
structure IntegrationStep where
  connection : Option StepConnection := none
  deriving DecidableEq, Repr

/-- The steps of a flow. -/
structure Flow where
  steps : Option (List IntegrationStep) := none
  deriving DecidableEq, Repr

/-- An integration: its name and its flows. -/
structure Integration where
  name : Option String
  flows : Option (List Flow) := none
  deriving DecidableEq, Repr

/-- The answer of Syndesis. -/
structure IntegrationsDocument where
  items : Option (List Integration) := none
  deriving DecidableEq, Repr

def IntegrationStep.Uses (step : IntegrationStep) (id : String) : Prop :=
  ∃ connection, step.connection = some connection ∧ connection.id = some id

def Flow.Uses (flow : Flow) (id : String) : Prop :=
  ∃ steps, flow.steps = some steps ∧ ∃ step ∈ steps, step.Uses id

def Integration.Uses (item : Integration) (id : String) : Prop :=
  ∃ flows, item.flows = some flows ∧ ∃ flow ∈ flows, flow.Uses id

/-- An integration has a step with the connection. -/
def IntegrationsDocument.Lists (document : IntegrationsDocument) (id : String) : Prop :=
  ∃ items, document.items = some items ∧ ∃ item ∈ items, item.Uses id

/-! ## The index by connection -/

/-- The names of the integrations that use a connection, by its id. -/
abbrev IntegrationsInUse := List (String × List String)

/-- A step adds its integration to its connection. -/
def addStep (integrationName : String) (usedIn : IntegrationsInUse) (step : IntegrationStep) :
    IntegrationsInUse :=
  match step.connection with
  | none => usedIn
  | some connection =>
      match connection.id with
      | none => usedIn
      | some id => (id, (usedIn.lookup id).getD [] ++ [integrationName]) :: usedIn.filter (·.1 ≠ id)

/-- The steps of a flow add the integration one after another. -/
def addFlow (integrationName : String) (usedIn : IntegrationsInUse) (flow : Flow) :
    IntegrationsInUse :=
  match flow.steps with
  | none => usedIn
  | some steps => steps.foldl (addStep integrationName) usedIn

/-- An integration without a name is dereferenced. -/
def addIntegration (usedIn : IntegrationsInUse) (item : Integration) : Option IntegrationsInUse :=
  match item.name with
  | none => none
  | some integrationName =>
      match item.flows with
      | none => some usedIn
      | some flows => some (flows.foldl (addFlow integrationName) usedIn)

/-- The index of the document, unless an integration has no name. -/
def findIntegrationByConnectionId (document : IntegrationsDocument) : Option IntegrationsInUse :=
  match document.items with
  | none => some []
  | some items => items.foldlM addIntegration []

/-- `findIntegrationUsedIn`, with the index it has. -/
def findIntegrationUsedIn {teiid : Teiid} (integrationsInUse : IntegrationsInUse)
    (table : SharedTable teiid) (virtualizationName : String) : List String :=
  match table.findDataVirtualization virtualizationName with
  | none => []
  | some dv =>
      match dv.sourceId with
      | none => []
      | some sourceId => (integrationsInUse.lookup sourceId).getD []

/-! ## What is listed is found -/

/-- The connection is in the index, with some integration. -/
def InUse (usedIn : IntegrationsInUse) (id : String) : Prop :=
  (usedIn.lookup id).getD [] ≠ []

/-- What is in use stays so. -/
theorem addStep_keeps {integrationName id : String} (usedIn : IntegrationsInUse)
    (step : IntegrationStep) (h : InUse usedIn id) : InUse (addStep integrationName usedIn step) id := by
  unfold addStep
  split
  · exact h
  · split
    · exact h
    · rename_i other _
      unfold InUse
      by_cases hid : id = other
      · subst hid
        simp
      · rw [List.lookup_cons, beq_eq_false_iff_ne.mpr hid, lookup_filter_ne hid]
        exact h

/-- A step puts its connection in use. -/
theorem addStep_uses {integrationName id : String} {step : IntegrationStep} (h : step.Uses id)
    (usedIn : IntegrationsInUse) : InUse (addStep integrationName usedIn step) id := by
  obtain ⟨connection, hconnection, hid⟩ := h
  simp only [addStep, hconnection, hid, InUse, List.lookup_cons_self, Option.getD_some]
  simp

/-- A flow keeps what is in use. -/
theorem addFlow_keeps {integrationName id : String} (usedIn : IntegrationsInUse) (flow : Flow)
    (h : InUse usedIn id) : InUse (addFlow integrationName usedIn flow) id := by
  unfold addFlow
  split
  · exact h
  · exact foldl_of_inv addStep_keeps h

/-- A flow puts the connections of its steps in use. -/
theorem addFlow_uses {integrationName id : String} {flow : Flow} (h : flow.Uses id)
    (usedIn : IntegrationsInUse) : InUse (addFlow integrationName usedIn flow) id := by
  obtain ⟨steps, hsteps, step, hmem, huses⟩ := h
  simp only [addFlow, hsteps]
  exact foldl_of_mem hmem addStep_keeps (addStep_uses huses) usedIn

/-- An integration keeps what is in use. -/
theorem addIntegration_keeps {id : String} (usedIn : IntegrationsInUse) (item : Integration)
    (usedIn' : IntegrationsInUse) (h : InUse usedIn id)
    (hadd : addIntegration usedIn item = some usedIn') : InUse usedIn' id := by
  unfold addIntegration at hadd
  split at hadd
  · cases hadd
  · split at hadd
    · cases hadd
      exact h
    · cases hadd
      exact foldl_of_inv addFlow_keeps h

/-- An integration puts the connections of its flows in use. -/
theorem addIntegration_uses {id : String} {item : Integration} (h : item.Uses id)
    (usedIn usedIn' : IntegrationsInUse) (hadd : addIntegration usedIn item = some usedIn') :
    InUse usedIn' id := by
  obtain ⟨flows, hflows, flow, hmem, huses⟩ := h
  simp only [addIntegration, hflows] at hadd
  split at hadd
  · cases hadd
  · cases hadd
    exact foldl_of_mem hmem addFlow_keeps (addFlow_uses huses) usedIn

/-- A connection that is listed is in the index. -/
theorem inUse_of_lists {document : IntegrationsDocument} {id : String}
    {integrationsInUse : IntegrationsInUse} (h : document.Lists id)
    (hindex : findIntegrationByConnectionId document = some integrationsInUse) :
    InUse integrationsInUse id := by
  obtain ⟨items, hitems, item, hmem, huses⟩ := h
  simp only [findIntegrationByConnectionId, hitems] at hindex
  exact foldlM_of_mem hmem addIntegration_keeps (addIntegration_uses huses) hindex

/-- A virtualization whose connection is listed is used. -/
theorem findIntegrationUsedIn_ne_nil {teiid : Teiid} {document : IntegrationsDocument}
    {integrationsInUse : IntegrationsInUse} {table : SharedTable teiid} {virtualizationName : String}
    {dv : Row} {sourceId : String} (hdv : table.findDataVirtualization virtualizationName = some dv)
    (hsource : dv.sourceId = some sourceId) (h : document.Lists sourceId)
    (hindex : findIntegrationByConnectionId document = some integrationsInUse) :
    findIntegrationUsedIn integrationsInUse table virtualizationName ≠ [] := by
  simp only [findIntegrationUsedIn, hdv, hsource]
  exact inUse_of_lists h hindex

end TeiidSyndesis.OpenShift
