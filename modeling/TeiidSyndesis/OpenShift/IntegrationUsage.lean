/-
# TeiidSyndesis.OpenShift.IntegrationUsage — what the look-ups between two refreshes answer.

`findIntegrationUsedIn` asks Syndesis again when its index is older than a minute.  In between the
collector may drop any entry of the index, since nothing else holds its key; and the index has the name of
an integration once for each of its steps that uses the connection.

Main results:
* `namesFor_items` — what the index holds for a connection;
* `usedBy_cons`, `perm_usedBy_iff` — which are the names of its integrations, each once, exactly if none has
  two steps that use it;
* `index_of_named`, `index_of_unnamed` — when there is an index;
* `usedInAfter_eq`, `answers_iff` — so what the look-ups between two refreshes answer.
-/
import Mathlib.Algebra.Order.BigOperators.Group.List
import TeiidSyndesis.OpenShift.Integrations

namespace TeiidSyndesis.OpenShift

open TeiidSyndesis.Library TeiidSyndesis.Model TeiidSyndesis.Repository

/-! ## The index in the course of time -/

/-- The index, and when it was asked for. -/
structure IntegrationCache where
  integrationsInUse : Option IntegrationsInUse := none
  integrationRefreshTime : Int := 0
  deriving DecidableEq, Repr

/-- What can happen to the index. -/
inductive CacheEvent
  /-- a call looks whether it has to refresh the index, which Syndesis would answer this way -/
  | refresh (currentTimeMillis : Int) (response : IntegrationsDocument)
  /-- the collector drops an entry -/
  | collect (id : String)
  deriving DecidableEq, Repr

namespace IntegrationCache

/-- There is no index, or it is more than a minute old. -/
def mustRefresh (cache : IntegrationCache) (currentTimeMillis : Int) : Bool :=
  cache.integrationsInUse.isNone || decide (60000 < currentTimeMillis - cache.integrationRefreshTime)

/-- The first part of `findIntegrationUsedIn`, which raises with `findIntegrationByConnectionId`. -/
def refresh (cache : IntegrationCache) (currentTimeMillis : Int) (response : IntegrationsDocument) :
    Option IntegrationCache :=
  if cache.mustRefresh currentTimeMillis then
    match findIntegrationByConnectionId response with
    | none => none
    | some integrationsInUse => some ⟨some integrationsInUse, currentTimeMillis⟩
  else some cache

/-- A refresh, or an entry that is collected. -/
def next (cache : IntegrationCache) : CacheEvent → Option IntegrationCache
  | .refresh currentTimeMillis response => cache.refresh currentTimeMillis response
  | .collect id =>
      some
        { cache with
          integrationsInUse := cache.integrationsInUse.map fun index => index.filter (·.1 ≠ id) }

/-- What a call finds that refreshes the index, or one after it, when these events lie in between. -/
def usedInAfter {teiid : Teiid} (cache : IntegrationCache) (currentTimeMillis : Int)
    (document : IntegrationsDocument) (events : List CacheEvent) (table : SharedTable teiid)
    (virtualizationName : String) : Option (List String) := do
  let refreshed ← cache.refresh currentTimeMillis document
  let last ← events.foldlM next refreshed
  let integrationsInUse ← last.integrationsInUse
  return findIntegrationUsedIn integrationsInUse table virtualizationName

end IntegrationCache

/-! ## The integrations that use a connection -/

/-- The connection of a step. -/
def IntegrationStep.connectionId (step : IntegrationStep) : Option String :=
  step.connection.bind (·.id)

/-- The connections of a flow, once for each step that uses them. -/
def Flow.connectionIds (flow : Flow) : List String :=
  (flow.steps.getD []).filterMap (·.connectionId)

/-- The ids of the connections in the steps of an integration, one for each step that has one. -/
def Integration.connectionIds (item : Integration) : List String :=
  (item.flows.getD []).flatMap (·.connectionIds)

/-- The integrations of an answer. -/
def IntegrationsDocument.integrations (document : IntegrationsDocument) : List Integration :=
  document.items.getD []

/-- The names of the integrations that have a step with the connection, each integration once. -/
def IntegrationsDocument.usedBy (document : IntegrationsDocument) (id : String) : List String :=
  (document.integrations.filter fun item => decide (id ∈ item.connectionIds)).filterMap (·.name)

/-- An integration uses the connections of its steps. -/
theorem uses_iff_mem_connectionIds {item : Integration} {id : String} :
    item.Uses id ↔ id ∈ item.connectionIds := by
  have hstep (step : IntegrationStep) : step.Uses id ↔ step.connectionId = some id := by
    unfold IntegrationStep.Uses IntegrationStep.connectionId
    rw [Option.bind_eq_some_iff]
  have hflow (flow : Flow) : flow.Uses id ↔ id ∈ flow.connectionIds := by
    unfold Flow.Uses Flow.connectionIds
    rw [List.mem_filterMap]
    cases flow.steps with
    | none => simp
    | some steps => simp [hstep]
  unfold Integration.Uses Integration.connectionIds
  rw [List.mem_flatMap]
  cases item.flows with
  | none => simp
  | some flows => simp [hflow]

/-! ## What the index holds -/

/-- The integrations in the index under a connection. -/
def namesFor (usedIn : IntegrationsInUse) (id : String) : List String :=
  (usedIn.lookup id).getD []

/-- A step adds the name of its integration under its own connection. -/
theorem namesFor_addStep (integrationName id : String) (usedIn : IntegrationsInUse)
    (step : IntegrationStep) :
    namesFor (addStep integrationName usedIn step) id =
      namesFor usedIn id ++ List.replicate (step.connectionId.toList.count id) integrationName := by
  unfold addStep IntegrationStep.connectionId
  cases step.connection with
  | none => exact (List.append_nil _).symm
  | some connection =>
      simp only [Option.bind_some]
      cases connection.id with
      | none => exact (List.append_nil _).symm
      | some other =>
          unfold namesFor
          by_cases hid : id = other
          · subst hid
            simp
          · simp only [List.lookup_cons, beq_eq_false_iff_ne.mpr hid, lookup_filter_ne hid]
            simp [Ne.symm hid]

/-- The steps of a flow add it once for each that uses the connection. -/
theorem namesFor_steps (integrationName id : String) (usedIn : IntegrationsInUse)
    (steps : List IntegrationStep) :
    namesFor (steps.foldl (addStep integrationName) usedIn) id =
      namesFor usedIn id ++
        List.replicate ((steps.filterMap (·.connectionId)).count id) integrationName := by
  induction steps generalizing usedIn with
  | nil => exact (List.append_nil _).symm
  | cons step steps ih =>
      rw [List.foldl_cons, ih, namesFor_addStep, List.append_assoc, List.replicate_append_replicate]
      congr 2
      cases hid : step.connectionId with
      | none => simp [hid]
      | some other => simp [hid, List.count_cons, Nat.add_comm]

theorem namesFor_addFlow (integrationName id : String) (usedIn : IntegrationsInUse) (flow : Flow) :
    namesFor (addFlow integrationName usedIn flow) id =
      namesFor usedIn id ++ List.replicate (flow.connectionIds.count id) integrationName := by
  unfold addFlow Flow.connectionIds
  cases flow.steps with
  | none => exact (List.append_nil _).symm
  | some steps => exact namesFor_steps integrationName id usedIn steps

theorem namesFor_flows (integrationName id : String) (usedIn : IntegrationsInUse)
    (flows : List Flow) :
    namesFor (flows.foldl (addFlow integrationName) usedIn) id =
      namesFor usedIn id ++
        List.replicate ((flows.flatMap (·.connectionIds)).count id) integrationName := by
  induction flows generalizing usedIn with
  | nil => exact (List.append_nil _).symm
  | cons flow flows ih =>
      rw [List.foldl_cons, ih, namesFor_addFlow, List.append_assoc, List.replicate_append_replicate,
        List.flatMap_cons, List.count_append]

/-- An integration adds its name as often as it uses the connection. -/
theorem namesFor_addIntegration (id : String) (usedIn : IntegrationsInUse) {item : Integration}
    {integrationName : String} (hname : item.name = some integrationName) :
    ∃ usedIn', addIntegration usedIn item = some usedIn' ∧
      namesFor usedIn' id =
        namesFor usedIn id ++ List.replicate (item.connectionIds.count id) integrationName := by
  unfold addIntegration Integration.connectionIds
  simp only [hname]
  cases item.flows with
  | none => exact ⟨usedIn, rfl, (List.append_nil _).symm⟩
  | some flows => exact ⟨_, rfl, namesFor_flows integrationName id usedIn flows⟩

/-- The name of an integration, once for each of its steps that uses the connection. -/
def namesOf (id : String) (item : Integration) : List String :=
  List.replicate (item.connectionIds.count id) (item.name.getD "")

/-- The index is made exactly if all integrations have names. -/
theorem namesFor_items (id : String) (usedIn : IntegrationsInUse) {items : List Integration}
    (hnamed : ∀ item ∈ items, item.name ≠ none) :
    ∃ usedIn', items.foldlM addIntegration usedIn = some usedIn' ∧
      namesFor usedIn' id = namesFor usedIn id ++ items.flatMap (namesOf id) := by
  induction items generalizing usedIn with
  | nil => exact ⟨usedIn, rfl, (List.append_nil _).symm⟩
  | cons item items ih =>
      obtain ⟨hitem, hitems⟩ := List.forall_mem_cons.mp hnamed
      obtain ⟨integrationName, hname⟩ := Option.ne_none_iff_exists'.mp hitem
      obtain ⟨usedIn₁, hadd, hnames⟩ := namesFor_addIntegration id usedIn hname
      obtain ⟨usedIn₂, hrest, hmore⟩ := ih usedIn₁ hitems
      refine ⟨usedIn₂, ?_, ?_⟩
      · rw [List.foldlM_cons, hadd]
        exact hrest
      · rw [hmore, hnames, List.append_assoc, List.flatMap_cons]
        simp [namesOf, hname]

/-- One without a name ends the indexing. -/
theorem foldlM_of_unnamed {usedIn : IntegrationsInUse} {items : List Integration}
    {item : Integration} (hmem : item ∈ items) (hname : item.name = none) :
    items.foldlM addIntegration usedIn = none := by
  induction items generalizing usedIn with
  | nil => cases hmem
  | cons first items ih =>
      rw [List.foldlM_cons]
      rcases List.mem_cons.mp hmem with rfl | hrest
      · simp [addIntegration, hname]
      · cases hadd : addIntegration usedIn first with
        | none => rfl
        | some usedIn' => exact ih hrest

/-! ## The names of the integrations, each once -/

/-- A named integration gives its name as often as it uses the connection, so once exactly if it has one
step that uses it. -/
theorem usedBy_cons (id : String) (item : Integration) (items : List Integration)
    (hname : item.name ≠ none) :
    IntegrationsDocument.usedBy ⟨some (item :: items)⟩ id =
      List.replicate (min 1 (item.connectionIds.count id)) (item.name.getD "") ++
        IntegrationsDocument.usedBy ⟨some items⟩ id := by
  obtain ⟨integrationName, hname⟩ := Option.ne_none_iff_exists'.mp hname
  unfold IntegrationsDocument.usedBy IntegrationsDocument.integrations
  by_cases hid : id ∈ item.connectionIds
  · have hcount : min 1 (item.connectionIds.count id) = 1 :=
      Nat.min_eq_left (List.count_pos_iff.mpr hid)
    simp [hid, hname]
  · simp [hid, List.count_eq_zero_of_not_mem hid]

/-- Where no integration uses the connection twice the index has each name once. -/
theorem namesOf_eq_usedBy (id : String) {items : List Integration}
    (hnamed : ∀ item ∈ items, item.name ≠ none)
    (h : ∀ item ∈ items, item.connectionIds.count id ≤ 1) :
    items.flatMap (namesOf id) = IntegrationsDocument.usedBy ⟨some items⟩ id := by
  induction items with
  | nil => rfl
  | cons item items ih =>
      obtain ⟨hitem, hitems⟩ := List.forall_mem_cons.mp hnamed
      obtain ⟨hcount, hcounts⟩ := List.forall_mem_cons.mp h
      rw [usedBy_cons id item items hitem, Nat.min_eq_right hcount, List.flatMap_cons,
        ih hitems hcounts]
      rfl

/-- It never has fewer. -/
theorem length_usedBy_le (id : String) {items : List Integration}
    (hnamed : ∀ item ∈ items, item.name ≠ none) :
    (IntegrationsDocument.usedBy ⟨some items⟩ id).length ≤ (items.flatMap (namesOf id)).length := by
  induction items with
  | nil => exact le_rfl
  | cons item items ih =>
      obtain ⟨hitem, hitems⟩ := List.forall_mem_cons.mp hnamed
      have hle := ih hitems
      rw [usedBy_cons id item items hitem, List.flatMap_cons, List.length_append,
        List.length_append, namesOf, List.length_replicate, List.length_replicate]
      omega

/-- An integration that is in the index twice makes it longer. -/
theorem count_le_one_of_length (id : String) {items : List Integration}
    (hnamed : ∀ item ∈ items, item.name ≠ none)
    (h : (items.flatMap (namesOf id)).length = (IntegrationsDocument.usedBy ⟨some items⟩ id).length) :
    ∀ item ∈ items, item.connectionIds.count id ≤ 1 := by
  induction items with
  | nil => exact nofun
  | cons item items ih =>
      obtain ⟨hitem, hitems⟩ := List.forall_mem_cons.mp hnamed
      have hle := length_usedBy_le id hitems
      rw [usedBy_cons id item items hitem, List.flatMap_cons, List.length_append,
        List.length_append, namesOf, List.length_replicate, List.length_replicate] at h
      exact List.forall_mem_cons.mpr ⟨by omega, ih hitems (by omega)⟩

/-- The names in the index are those of the integrations, each once, exactly if no integration uses the
connection in two steps. -/
theorem perm_usedBy_iff (id : String) {items : List Integration}
    (hnamed : ∀ item ∈ items, item.name ≠ none) :
    (items.flatMap (namesOf id)).Perm (IntegrationsDocument.usedBy ⟨some items⟩ id) ↔
      ∀ item ∈ items, item.connectionIds.count id ≤ 1 :=
  ⟨fun hperm => count_le_one_of_length id hnamed hperm.length_eq,
    fun hcounts => .of_eq (namesOf_eq_usedBy id hnamed hcounts)⟩

/-- No name is found exactly if no integration uses the connection. -/
theorem usedBy_eq_nil_iff (id : String) {items : List Integration}
    (hnamed : ∀ item ∈ items, item.name ≠ none) :
    IntegrationsDocument.usedBy ⟨some items⟩ id = [] ↔
      ∀ item ∈ items, id ∉ item.connectionIds := by
  unfold IntegrationsDocument.usedBy IntegrationsDocument.integrations
  rw [List.filterMap_eq_nil_iff]
  constructor
  · intro h item hmem hid
    have hname := h item (List.mem_filter.mpr ⟨hmem, decide_eq_true hid⟩)
    exact hnamed item hmem hname
  · intro h item hmem
    obtain ⟨hitem, hid⟩ := List.mem_filter.mp hmem
    exact absurd (of_decide_eq_true hid) (h item hitem)

/-! ## Look-ups -/

namespace IntegrationCache

/-- The calls in between come within the minute. -/
def WithinMinute (refreshTime : Int) (events : List CacheEvent) : Prop :=
  ∀ currentTimeMillis response, .refresh currentTimeMillis response ∈ events →
    currentTimeMillis - refreshTime ≤ 60000

/-- Until the minute is over the index only loses what the collector drops. -/
theorem foldlM_next {refreshTime : Int} {events : List CacheEvent}
    (h : WithinMinute refreshTime events) (index : IntegrationsInUse) :
    events.foldlM next ⟨some index, refreshTime⟩ =
      some ⟨some (index.filter fun entry => decide (.collect entry.1 ∉ events)), refreshTime⟩ := by
  induction events generalizing index with
  | nil => simp
  | cons event events ih =>
      have hrest : WithinMinute refreshTime events := fun currentTimeMillis response hmem =>
        h currentTimeMillis response (List.mem_cons_of_mem _ hmem)
      rw [List.foldlM_cons]
      cases event with
      | refresh currentTimeMillis response =>
          have hnow := h currentTimeMillis response List.mem_cons_self
          have hkept : next ⟨some index, refreshTime⟩ (.refresh currentTimeMillis response) =
              some ⟨some index, refreshTime⟩ := by
            show refresh _ _ _ = _
            unfold refresh mustRefresh
            rw [if_neg]
            simpa using hnow
          rw [hkept]
          simpa using ih hrest index
      | collect id =>
          have hdrop : next ⟨some index, refreshTime⟩ (.collect id) =
              some ⟨some (index.filter (·.1 ≠ id)), refreshTime⟩ := rfl
          rw [hdrop]
          refine (ih hrest _).trans ?_
          rw [List.filter_filter]
          simp [Bool.and_comm, not_or]

/-- The look-up answers with the names of the integrations that use the connection, each once. -/
def Answers (answer : Option (List String)) (document : IntegrationsDocument) (id : String) : Prop :=
  ∃ usedIn, answer = some usedIn ∧ usedIn.Perm (document.usedBy id)

/-- All integrations have names, none uses the connection in two steps, and if the entry of the connection
has been dropped, none uses it. -/
def Exact (document : IntegrationsDocument) (events : List CacheEvent) (id : String) : Prop :=
  (∀ item ∈ document.integrations, item.name ≠ none) ∧
    (∀ item ∈ document.integrations, item.connectionIds.count id ≤ 1) ∧
    (.collect id ∈ events → ∀ item ∈ document.integrations, id ∉ item.connectionIds)

instance (document : IntegrationsDocument) (events : List CacheEvent) (id : String) :
    Decidable (Exact document events id) :=
  inferInstanceAs (Decidable (_ ∧ _ ∧ _))

/-- The index is made if all integrations have names. -/
theorem index_of_named (id : String) {document : IntegrationsDocument}
    (hnamed : ∀ item ∈ document.integrations, item.name ≠ none) :
    ∃ index, findIntegrationByConnectionId document = some index ∧
      namesFor index id = document.integrations.flatMap (namesOf id) := by
  obtain ⟨items⟩ := document
  cases items with
  | none => exact ⟨[], rfl, rfl⟩
  | some items => exact namesFor_items id [] hnamed

/-- One integration without a name leaves no index. -/
theorem index_of_unnamed {document : IntegrationsDocument} {item : Integration}
    (hmem : item ∈ document.integrations) (hname : item.name = none) :
    findIntegrationByConnectionId document = none := by
  obtain ⟨items⟩ := document
  cases items with
  | none => cases hmem
  | some items => exact foldlM_of_unnamed hmem hname

/-- A look-up finds what was put into the index, unless the entry has been dropped. -/
theorem usedInAfter_eq {teiid : Teiid} {cache : IntegrationCache} {refreshTime : Int}
    {document : IntegrationsDocument} {events : List CacheEvent} {table : SharedTable teiid}
    {virtualizationName : String} {dv : Row} {sourceId : String} {index : IntegrationsInUse}
    (hrefresh : cache.mustRefresh refreshTime = true) (hwithin : WithinMinute refreshTime events)
    (hdv : table.findDataVirtualization virtualizationName = some dv)
    (hsource : dv.sourceId = some sourceId)
    (hindex : findIntegrationByConnectionId document = some index) :
    cache.usedInAfter refreshTime document events table virtualizationName =
      some (if .collect sourceId ∈ events then [] else namesFor index sourceId) := by
  have hrefreshed : cache.refresh refreshTime document = some ⟨some index, refreshTime⟩ := by
    unfold refresh
    rw [if_pos hrefresh, hindex]
  have hfound : findIntegrationUsedIn
      (index.filter fun entry => decide (.collect entry.1 ∉ events)) table virtualizationName =
        if .collect sourceId ∈ events then [] else namesFor index sourceId := by
    simp only [findIntegrationUsedIn, hdv, hsource]
    rw [lookup_filter fun id => decide (CacheEvent.collect id ∉ events)]
    unfold namesFor
    by_cases hcollect : .collect sourceId ∈ events
    · simp [hcollect]
    · simp [hcollect]
  simp only [usedInAfter, hrefreshed, foldlM_next hwithin, Option.bind_eq_bind, Option.bind_some,
    hfound]
  rfl

/-- Within the minute after a refresh a look-up answers with the integrations that use the connection
exactly if the document has their names, in no integration twice, and their entry has not been dropped. -/
theorem answers_iff {teiid : Teiid} {cache : IntegrationCache} {refreshTime : Int}
    {document : IntegrationsDocument} {events : List CacheEvent} {table : SharedTable teiid}
    {virtualizationName : String} {dv : Row} {sourceId : String}
    (hrefresh : cache.mustRefresh refreshTime = true) (hwithin : WithinMinute refreshTime events)
    (hdv : table.findDataVirtualization virtualizationName = some dv)
    (hsource : dv.sourceId = some sourceId) :
    Answers (cache.usedInAfter refreshTime document events table virtualizationName) document
        sourceId ↔
      Exact document events sourceId := by
  unfold Exact
  by_cases hnamed : ∀ item ∈ document.integrations, item.name ≠ none
  -- every integration has a name, so the index is built and read as the document says
  · rw [and_iff_right hnamed]
    obtain ⟨index, hindex, hnames⟩ := index_of_named sourceId hnamed
    have hanswers : Answers (cache.usedInAfter refreshTime document events table virtualizationName)
        document sourceId ↔
          (if .collect sourceId ∈ events then [] else namesFor index sourceId).Perm
            (document.usedBy sourceId) := by
      unfold Answers
      rw [usedInAfter_eq hrefresh hwithin hdv hsource hindex]
      simp
    have hused : document.usedBy sourceId =
        IntegrationsDocument.usedBy ⟨some document.integrations⟩ sourceId := rfl
    rw [hanswers, hnames, hused]
    split
    -- the connection was deleted within the minute: its entry is gone from the cache
    · rename_i hcollect
      rw [List.nil_perm, usedBy_eq_nil_iff sourceId hnamed, imp_iff_right hcollect]
      refine (and_iff_right_of_imp fun hunused item hmem => ?_).symm
      rw [List.count_eq_zero_of_not_mem (hunused item hmem)]
      exact Nat.zero_le 1
    · rename_i hkept
      rw [perm_usedBy_iff sourceId hnamed]
      exact (and_iff_left fun hcollect => absurd hcollect hkept).symm
  -- the index cannot be built over an integration without a name
  · refine iff_of_false ?_ fun h => hnamed h.1
    rintro ⟨usedIn, hanswer, -⟩
    obtain ⟨item, hmem, hname⟩ : ∃ item ∈ document.integrations, item.name = none := by
      simpa using hnamed
    have hraises : cache.refresh refreshTime document = none := by
      unfold refresh
      rw [if_pos hrefresh, index_of_unnamed hmem hname]
    simp [usedInAfter, hraises] at hanswer

/-- One row is distinct from itself and all others. -/
theorem distinct_storedRow : [{ type := .virtualization, name := "v", sourceId := some "c1" }].Pairwise
    (Row.Distinct (.ascii fun _ => { schema := { name := "v" } })) :=
  List.pairwise_singleton _ _

/-- One virtualization, with its connection stored. -/
def storedTable : SharedTable (.ascii fun _ => { schema := { name := "v" } }) where
  rows := [{ type := .virtualization, name := "v", sourceId := some "c1" }]
  consistent := distinct_storedRow

/-- One integration with these steps. -/
def oneIntegration (steps : List IntegrationStep) : IntegrationsDocument :=
  { items := some [{ name := some "orders", flows := some [{ steps := some steps }] }] }

/-- A step that uses the connection. -/
def stepOn (id : String) : IntegrationStep := { connection := some { id := some id } }

theorem answers_iff_one :
    Answers
      (usedInAfter {} 0 (oneIntegration [stepOn "c1", stepOn "c2"]) [.collect "c2"] storedTable "v")
      (oneIntegration [stepOn "c1", stepOn "c2"]) "c1" :=
  (answers_iff rfl (by simp [WithinMinute]) rfl rfl).mpr (by decide)

/-- An integration with two steps that use the connection is listed twice. -/
theorem listed_twice :
    ¬∀ (teiid : Teiid) (cache : IntegrationCache) (refreshTime : Int)
      (document : IntegrationsDocument) (events : List CacheEvent) (table : SharedTable teiid)
      (virtualizationName : String) (dv : Row) (sourceId : String),
      cache.mustRefresh refreshTime = true → WithinMinute refreshTime events →
        table.findDataVirtualization virtualizationName = some dv → dv.sourceId = some sourceId →
          Answers (cache.usedInAfter refreshTime document events table virtualizationName) document
            sourceId := by
  intro h
  have hanswers := h _ {} 0 (oneIntegration [stepOn "c1", stepOn "c1"]) [] storedTable "v" _ "c1" rfl
    nofun rfl rfl
  obtain ⟨usedIn, hanswer, hperm⟩ := hanswers
  cases hanswer
  exact absurd hperm (by decide)

end IntegrationCache

end TeiidSyndesis.OpenShift
