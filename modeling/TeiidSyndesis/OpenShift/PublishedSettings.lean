/-
# TeiidSyndesis.OpenShift.PublishedSettings — the variables a published image reads its settings from.

The generated class of a source is bound to the properties below a prefix, which stands in the
template with the JNDI name of the source behind it.  Spring reads a property from the variable that is
its name in upper case, with underscores for dots and without hyphens.  The variables that are set are
named after the source itself; they are those that are read, whatever becomes of the name on the two
ways.

Main results:
* `fill_of_configurationPrefix` — a prefix that is read off a template stands in the filled template;
* `configurationPrefix_templates`, `configurationPrefix_templateOf` — the prefixes of the three templates;
* `springVariable_eq`, `envName_normalizedName` — the two ways a name takes to a variable;
* `readVariables_eq`, `secretVariables_environment` — the variables that are read, and those that are set;
* `settings_found` — they are the same, for every source of a published image.
-/
import Mathlib.Data.Bool.AllAny
import Mathlib.Data.List.TakeWhile
import TeiidSyndesis.OpenShift.GeneratedJava
import TeiidSyndesis.OpenShift.PublishedNames

namespace TeiidSyndesis.OpenShift

open TeiidSyndesis.Datasources TeiidSyndesis.Library TeiidSyndesis.Model

/-! ## The prefix in a template -/

/-- What stands before a prefix. -/
def configurationAnnotation : String := "@ConfigurationProperties("

/-- What follows the annotation, where it is. -/
def afterProperties : List Char → Option (List Char)
  | [] => none
  | c :: cs =>
      if configurationAnnotation.toList.isPrefixOf (c :: cs) then
        some ((c :: cs).drop configurationAnnotation.toList.length)
      else afterProperties cs

/-- The pieces up to the next quote of a text. -/
def literalOf (replacement : String) : Template → Option String
  | [] => none
  | .text text :: pieces =>
      if '"' ∈ text.toList then some (String.ofList (text.toList.takeWhile (· ≠ '"')))
      else (literalOf replacement pieces).map (text ++ ·)
  | .packageName :: pieces => (literalOf replacement pieces).map ("io.integration" ++ ·)
  | .dsName :: pieces => (literalOf replacement pieces).map (replacement ++ ·)

/-- The first literal behind the annotation. -/
def configurationPrefix (replacement : String) : Template → Option String
  | [] => none
  | .text text :: pieces =>
      match afterProperties text.toList with
      | none => configurationPrefix replacement pieces
      | some rest =>
          match rest.dropWhile (· ≠ '"') with
          | [] => none
          | _ :: opened => literalOf replacement (.text (String.ofList opened) :: pieces)
  | .packageName :: pieces => configurationPrefix replacement pieces
  | .dsName :: pieces => configurationPrefix replacement pieces

/-- What comes behind that annotation. -/
theorem afterProperties_eq_some {cs rest : List Char} (h : afterProperties cs = some rest) :
    ∃ front, cs = front ++ configurationAnnotation.toList ++ rest := by
  induction cs with
  | nil => cases h
  | cons c cs ih =>
      rw [afterProperties] at h
      split at h
      · rename_i hstarts
        obtain ⟨back, hback⟩ := List.isPrefixOf_iff_prefix.mp hstarts
        rw [← hback, List.drop_left] at h
        obtain rfl := Option.some.inj h
        exact ⟨[], hback.symm⟩
      · obtain ⟨front, rfl⟩ := ih h
        exact ⟨c :: front, rfl⟩

/-- A literal ends at the next quote. -/
theorem takeWhile_quote {front back : List Char} (h : '"' ∉ front) :
    (front ++ '"' :: back).takeWhile (· ≠ '"') = front := by
  have hfront : ∀ c ∈ front, decide (c ≠ '"') = true := by
    intro c hc
    rw [decide_eq_true_eq]
    rintro rfl
    exact h hc
  rw [List.takeWhile_append_of_pos hfront, List.takeWhile_cons, if_neg (by decide), List.append_nil]

theorem quote_of_dropWhile {cs rest : List Char} {c : Char}
    (h : cs.dropWhile (· ≠ '"') = c :: rest) : c = '"' := by
  induction cs with
  | nil => cases h
  | cons d cs ih =>
      rw [List.dropWhile_cons] at h
      split at h
      · exact ih h
      · rename_i hd
        obtain ⟨rfl, -⟩ := List.cons_eq_cons.mp h
        simpa using hd

/-- The literal stands in the text, with a quote behind it. -/
theorem fill_of_literalOf {replacement literal : String} {template : Template}
    (h : literalOf replacement template = some literal) :
    ∃ back, fill replacement template = literal ++ "\"" ++ back := by
  induction template generalizing literal with
  | nil => cases h
  | cons piece pieces ih =>
      have hgoesOn : ∀ text, (literalOf replacement pieces).map (text ++ ·) = some literal →
          ∃ back, text ++ fill replacement pieces = literal ++ "\"" ++ back := by
        intro text hmap
        obtain ⟨rest, hrest, rfl⟩ := Option.map_eq_some_iff.mp hmap
        obtain ⟨back, hback⟩ := ih hrest
        exact ⟨back, by rw [hback]; simp only [String.append_assoc]⟩
      cases piece with
      | text text =>
          rw [literalOf] at h
          split at h
          · rename_i hquote
            obtain ⟨front, back, hsplit, hfirst⟩ := List.eq_append_cons_of_mem hquote
            rw [hsplit, takeWhile_quote hfirst] at h
            obtain rfl := Option.some.inj h
            have htext : text = String.ofList front ++ "\"" ++ String.ofList back := by
              rw [← String.toList_inj, hsplit]
              simp
            refine ⟨String.ofList back ++ fill replacement pieces, ?_⟩
            show text ++ fill replacement pieces = _
            conv_lhs => rw [htext]
            simp only [String.append_assoc]
          · exact hgoesOn text h
      | packageName => exact hgoesOn _ h
      | dsName => exact hgoesOn _ h

/-- The generated text has the annotation, with the prefix as its literal. -/
theorem fill_of_configurationPrefix {replacement start : String} {template : Template}
    (h : configurationPrefix replacement template = some start) :
    ∃ front between back, '"' ∉ between.toList ∧ fill replacement template =
      front ++ configurationAnnotation ++ between ++ "\"" ++ start ++ "\"" ++ back := by
  -- on the pieces: the annotation stands in one literal text, all pieces before it are passed over
  induction template with
  | nil => cases h
  | cons piece pieces ih =>
      have hgoesOn : ∀ text, configurationPrefix replacement pieces = some start →
          ∃ front between back, '"' ∉ between.toList ∧ text ++ fill replacement pieces =
            front ++ configurationAnnotation ++ between ++ "\"" ++ start ++ "\"" ++ back := by
        intro text hrest
        obtain ⟨front, between, back, hbetween, hfill⟩ := ih hrest
        exact ⟨text ++ front, between, back, hbetween, by rw [hfill]; simp only [String.append_assoc]⟩
      cases piece with
      | text text =>
          rw [configurationPrefix] at h
          split at h
          · exact hgoesOn text h
          · rename_i rest hrest
            obtain ⟨front, hfront⟩ := afterProperties_eq_some hrest
            split at h
            · cases h
            · rename_i quote opened hopened
              obtain ⟨back, hback⟩ := fill_of_literalOf h
              obtain rfl := quote_of_dropWhile hopened
              have hsplit : rest = rest.takeWhile (· ≠ '"') ++ '"' :: opened := by
                rw [← hopened, List.takeWhile_append_dropWhile]
              have htext : text = String.ofList front ++ configurationAnnotation ++
                  String.ofList (rest.takeWhile (· ≠ '"')) ++ "\"" ++ String.ofList opened := by
                rw [← String.toList_inj, hfront]
                conv_lhs => rw [hsplit]
                simp
              refine ⟨String.ofList front, String.ofList (rest.takeWhile (· ≠ '"')), back, ?_, ?_⟩
              · rw [String.toList_ofList]
                intro hmem
                exact absurd (List.mem_takeWhile_imp hmem) (by decide)
              · show text ++ fill replacement pieces = _
                have hopenedFill : String.ofList opened ++ fill replacement pieces =
                    start ++ "\"" ++ back := hback
                conv_lhs => rw [htext]
                simp only [String.append_assoc] at hopenedFill ⊢
                rw [hopenedFill]
      | packageName => exact hgoesOn _ h
      | dsName => exact hgoesOn _ h

/-! ## The prefixes of the templates -/

/-- A piece without the annotation is passed over. -/
theorem configurationPrefix_packageName {replacement text : String} {pieces : Template}
    (h : afterProperties text.toList = none) :
    configurationPrefix replacement (.text text :: .packageName :: pieces) =
      configurationPrefix replacement pieces := by
  rw [configurationPrefix, h, configurationPrefix]

/-- A piece without the annotation is passed over, also before a name. -/
theorem configurationPrefix_dsName {replacement text : String} {pieces : Template}
    (h : afterProperties text.toList = none) :
    configurationPrefix replacement (.text text :: .dsName :: pieces) =
      configurationPrefix replacement pieces := by
  rw [configurationPrefix, h, configurationPrefix]

/-- The text ends in the literal of the annotation, which goes on with the name. -/
theorem configurationPrefix_of_some {replacement text text' start : String} {pieces : Template}
    (h : (afterProperties text.toList).map (·.dropWhile (· ≠ '"')) = some ('"' :: start.toList))
    (hstart : '"' ∉ start.toList) (hclosed : text'.toList.head? = some '"') :
    configurationPrefix replacement (.text text :: .dsName :: .text text' :: pieces) =
      some (start ++ replacement) := by
  obtain ⟨rest, hrest, hopened⟩ := Option.map_eq_some_iff.mp h
  obtain ⟨back, hback⟩ := List.head?_eq_some_iff.mp hclosed
  rw [configurationPrefix, hrest]
  dsimp only
  rw [hopened]
  dsimp only
  rw [String.ofList_toList, literalOf, if_neg hstart, literalOf, literalOf,
    if_pos (by rw [hback]; exact List.mem_cons_self), hback, List.takeWhile_cons, if_neg (by decide)]
  simp

/-- A template that names the source five times before the annotation. -/
theorem configurationPrefix_of_bean {replacement t₀ t₁ t₂ t₃ t₄ t₅ text text' start : String}
    {pieces : Template} (h₀ : afterProperties t₀.toList = none) (h₁ : afterProperties t₁.toList = none)
    (h₂ : afterProperties t₂.toList = none) (h₃ : afterProperties t₃.toList = none)
    (h₄ : afterProperties t₄.toList = none) (h₅ : afterProperties t₅.toList = none)
    (h : (afterProperties text.toList).map (·.dropWhile (· ≠ '"')) = some ('"' :: start.toList))
    (hstart : '"' ∉ start.toList) (hclosed : text'.toList.head? = some '"') :
    configurationPrefix replacement
        (.text t₀ :: .packageName :: .text t₁ :: .dsName :: .text t₂ :: .dsName :: .text t₃ :: .dsName ::
          .text t₄ :: .dsName :: .text t₅ :: .dsName :: .text text :: .dsName :: .text text' :: pieces) =
      some (start ++ replacement) :=
  calc
    _ = _ := configurationPrefix_packageName h₀
    _ = _ := configurationPrefix_dsName h₁
    _ = _ := configurationPrefix_dsName h₂
    _ = _ := configurationPrefix_dsName h₃
    _ = _ := configurationPrefix_dsName h₄
    _ = _ := configurationPrefix_dsName h₅
    _ = some (start ++ replacement) := configurationPrefix_of_some h hstart hclosed

/-- The prefixes, read off the three templates. -/
theorem configurationPrefix_templates (replacement : String) :
    configurationPrefix replacement jdbcTemplate = some ("spring.datasource." ++ replacement) ∧
      configurationPrefix replacement mongoDBTemplate =
        some ("spring.teiid.data.mongodb." ++ replacement) ∧
      configurationPrefix replacement salesforceTemplate =
        some ("spring.teiid.data.salesforce." ++ replacement) := by
  unfold jdbcTemplate mongoDBTemplate salesforceTemplate
  refine ⟨(configurationPrefix_packageName ?_).trans ((configurationPrefix_dsName ?_).trans
      (configurationPrefix_of_some ?_ ?_ ?_)),
    configurationPrefix_of_bean ?_ ?_ ?_ ?_ ?_ ?_ ?_ ?_ ?_,
    configurationPrefix_of_bean ?_ ?_ ?_ ?_ ?_ ?_ ?_ ?_ ?_⟩
  -- no text has the annotation but that before the last name, and it ends in the literal
  all_goals
    repeat rw [String.toList_append]
    repeat rw [String.toList_ofList]
    decide +kernel

/-- The template a translator is given has the prefix of its definition. -/
theorem configurationPrefix_templateOf (definition : DataSourceDefinition) (replacement : String) :
    configurationPrefix replacement (templateOf definition.getTranslatorName) =
      some (definition.keyStart ++ replacement) := by
  obtain ⟨hjdbc, hmongoDB, hsalesforce⟩ := configurationPrefix_templates replacement
  cases definition with
  | mongoDB => exact hmongoDB
  | salesforce => exact hsalesforce
  | _ => exact hjdbc

/-! ## Two ways of a name -/

variable {java : JavaText}

/-- The variable Spring reads a property from. -/
def springVariable (java : JavaText) (property : String) : String :=
  java.toUpperCase
    (removeHyphens (String.ofList (property.toList.map fun c => if c = '.' then '_' else c)))

/-- What the tables of characters say of case besides. -/
structure NameCase (java : JavaText) : Prop extends java.Unicode where
  lower_dot : ∀ c, '.' ∈ java.lowerCase c → c = '.'
  /-- both small sigmas have one upper case -/
  upper_sigma : java.upperCase JavaText.finalSigma = java.upperCase JavaText.capitalSigma

/-- `upper(lower(c)) = upper(c)` -/
def KeepsUpper (java : JavaText) (c : Char) : Prop :=
  (java.lowerCase c).flatMap java.upperCase = java.upperCase c

instance (java : JavaText) (c : Char) : Decidable (KeepsUpper java c) :=
  inferInstanceAs (Decidable (_ = _))

/-- It does not matter whether the dots or the hyphens go first. -/
theorem springVariable_eq (java : JavaText) (property : String) :
    springVariable java property = envName java property := by
  unfold springVariable envName envText removeHyphens
  rw [String.toList_ofList, String.toList_ofList, List.filter_map]
  refine congrArg (fun cs => java.toUpperCase (String.ofList (List.map _ cs))) ?_
  refine List.filter_congr fun c _ => ?_
  by_cases hc : c = '.'
  · rw [hc]
    decide
  · rw [Function.comp_apply, if_neg hc]

/-- Where no dot has been, none is afterwards. -/
theorem dot_not_mem_normalized (hjava : NameCase java) (before cs : List Char) (h : '.' ∉ cs) :
    '.' ∉ normalizedChars java before cs := by
  induction cs generalizing before with
  | nil => exact List.not_mem_nil
  | cons c cs ih =>
      rw [List.mem_cons, not_or] at h
      rw [normalizedChars_cons hjava.toUnicode, List.mem_append, not_or]
      refine ⟨?_, ih _ h.2⟩
      split
      · exact List.not_mem_nil
      · unfold JavaText.lowerAt
        split
        · decide
        · exact fun hmem => h.1 (hjava.lower_dot c hmem).symm

/-- In upper case the normalized name is the name without hyphens. -/
theorem upper_normalizedChars (hjava : NameCase java) (before cs : List Char)
    (h : ∀ c ∈ cs, KeepsUpper java c) :
    (normalizedChars java before cs).flatMap java.upperCase =
      (withoutHyphens cs).flatMap java.upperCase := by
  induction cs generalizing before with
  | nil => rfl
  | cons c cs ih =>
      rw [List.forall_mem_cons] at h
      rw [normalizedChars_cons hjava.toUnicode, List.flatMap_append, ih _ h.2]
      unfold withoutHyphens
      by_cases hc : c = '-'
      · rw [if_pos hc, List.filter_cons_of_neg (by simp [hc])]
        rfl
      · rw [if_neg hc, List.filter_cons_of_pos (by simp [hc]), List.flatMap_cons]
        congr 1
        unfold JavaText.lowerAt
        split
        · rename_i hsigma
          rw [hsigma.1, List.flatMap_singleton, hjava.upper_sigma]
        · exact h.1

/-- A name is mapped to the same variable before and after it is normalized. -/
theorem envName_normalizedName (hjava : NameCase java) {name : String} (hdot : '.' ∉ name.toList)
    (h : ∀ c ∈ name.toList, KeepsUpper java c) :
    envName java (normalizedName java name) = envName java name := by
  have hnormalized : '.' ∉ (normalizedName java name).toList := by
    rw [toList_normalizedName]
    exact dot_not_mem_normalized hjava [] _ hdot
  have hhyphens : removeHyphens (normalizedName java name) = normalizedName java name := by
    apply removeHyphens_of_not_mem
    unfold normalizedName removeHyphens
    rw [String.toList_ofList, List.mem_filter]
    simp
  rw [envName_of_no_dot hnormalized, envName_of_no_dot hdot, hhyphens]
  unfold JavaText.toUpperCase
  rw [toList_normalizedName, upper_normalizedChars hjava _ _ h]
  unfold removeHyphens
  rw [String.toList_ofList]
  rfl

/-! ## The variables of an image -/

/-- The source of a mapping is that of a data source, whose definition has the translator. -/
structure MappedTo (getSyndesisDataSource : Lookup) (mapping : String × String × String)
    (definition : DataSourceDefinition) (ds : DefaultSyndesisDataSource) : Prop
    extends Resolved getSyndesisDataSource mapping.1 definition ds where
  named : ds.teiidName = some mapping.1
  translator : mapping.2.1 = definition.getTranslatorName

/-- The source mappings of a VDB. -/
def sourceMappings (vdb : VDBMetaData) : List (String × String × String) :=
  vdb.models.flatMap (·.sourceMappings)

/-- Every source has a data source with a definition, and a name without dots whose characters keep
their upper case in lower case. -/
def Mapped (java : JavaText) (getSyndesisDataSource : Lookup)
    (mappings : List (String × String × String)) : Prop :=
  ∀ mapping ∈ mappings,
    (∃ definition ds, MappedTo getSyndesisDataSource mapping definition ds) ∧
      '.' ∉ mapping.1.toList ∧ ∀ c ∈ mapping.1.toList, KeepsUpper java c

/-- The variables from which the class of a source reads the properties of its data source. -/
def readVariables (java : JavaText) (getSyndesisDataSource : Lookup) (vdb : VDBMetaData)
    (mapping : String × String × String) : List String :=
  match configurationPrefix mapping.2.2 (templateOf mapping.2.1),
      definedSource getSyndesisDataSource vdb mapping.1 with
  | some start, .ok (definition, ds) =>
      (definition.properties ds).map fun property => springVariable java (start ++ "." ++ property.1)
  | _, _ => []

/-- The variables that take their values from the secret. -/
def secretVariables (envs : List EnvVar) : List String :=
  (envs.filter (·.secretKeyRef.isSome)).map (·.name)

/-- What `normalizeDataSourceNames` makes of a mapping. -/
def normalizedMapping (java : JavaText) (mapping : String × String × String) :
    String × String × String :=
  (mapping.1, mapping.2.1, normalizedName java mapping.1)

section Variables

variable {getSyndesisDataSource : Lookup} {vdb : VDBMetaData}

/-- Normalizing a VDB normalizes its mappings. -/
theorem sourceMappings_normalized (java : JavaText) (vdb : VDBMetaData) :
    sourceMappings (normalizeDataSourceNames java vdb) =
      (sourceMappings vdb).map (normalizedMapping java) := by
  unfold sourceMappings normalizeDataSourceNames
  rw [List.flatMap_map, List.map_flatMap]
  rfl

/-- The variables of a data source are those its class reads. -/
theorem readVariables_eq (hjava : NameCase java) {mapping : String × String × String}
    {definition : DataSourceDefinition} {ds : DefaultSyndesisDataSource}
    (h : MappedTo getSyndesisDataSource mapping definition ds) (hdot : '.' ∉ mapping.1.toList)
    (hupper : ∀ c ∈ mapping.1.toList, KeepsUpper java c) :
    readVariables java getSyndesisDataSource vdb (normalizedMapping java mapping) =
      variableNames java (definition, ds) := by
  have hname : envName java (normalizedName java mapping.1) = envName java mapping.1 :=
    envName_normalizedName hjava hdot hupper
  unfold readVariables normalizedMapping
  dsimp only
  rw [h.translator, configurationPrefix_templateOf, definedSource_of_resolved h.toResolved]
  unfold variableNames DataSourceDefinition.getPublishedImageDataSourceProperties
  rw [List.map_map]
  refine List.map_congr_left fun property _ => ?_
  show springVariable java _ = envName java (definition.propertyKey ds property.1)
  unfold DataSourceDefinition.propertyKey
  rw [springVariable_eq, h.named]
  simp only [envName_append, Option.getD_some, hname]

/-- Only the variables of the data sources take their values from the secret. -/
theorem secretVariables_environment (hresolves : Resolves getSyndesisDataSource (sourceNames vdb))
    (publishConfig : PublishConfiguration) (openShiftName : String) :
    ∃ envs, getEnvironmentVariablesForVDBDataSources java getSyndesisDataSource vdb publishConfig
        openShiftName = .ok envs ∧
      secretVariables envs =
        (definedSources getSyndesisDataSource vdb (sourceNames vdb)).flatMap (variableNames java) := by
  have hloop := @variables_eq java _ vdb _ hresolves (secretName openShiftName) []
  unfold getEnvironmentVariablesForVDBDataSources
  refine ⟨_, bind_eq_ok.mpr ⟨_, hloop, rfl⟩, ?_⟩
  have hothers : (PublishConfiguration.getUserEnvironmentVariables.map
        (fun entry => env entry.1 entry.2) ++
      [env "VDB_FILE" (vdb.name ++ "-vdb.xml"),
        env "JAVA_OPTIONS" publishConfig.getUserJavaOptions]).filter
          (·.secretKeyRef.isSome) = [] := rfl
  unfold secretVariables
  rw [List.append_assoc, List.filter_append, hothers, List.append_nil, List.nil_append,
    List.filter_eq_self.mpr, List.map_map, publishedEntries, List.map_flatMap]
  · rfl
  · intro envVar henvVar
    obtain ⟨entry, -, rfl⟩ := List.mem_map.mp henvVar
    rfl

/-- The variables that are read, source by source. -/
theorem flatMap_readVariables (hjava : NameCase java) {mappings : List (String × String × String)}
    (h : Mapped java getSyndesisDataSource mappings) :
    (definedSources getSyndesisDataSource vdb (mappings.map (·.1))).flatMap (variableNames java) =
      (mappings.map (normalizedMapping java)).flatMap (readVariables java getSyndesisDataSource vdb) := by
  induction mappings with
  | nil => rfl
  | cons mapping mappings ih =>
      rw [Mapped, List.forall_mem_cons] at h
      obtain ⟨⟨⟨definition, ds, hmapped⟩, hdot, hupper⟩, hrest⟩ := h
      rw [List.map_cons, definedSources_cons hmapped.toResolved, List.flatMap_cons, ih hrest,
        List.map_cons, List.flatMap_cons, readVariables_eq hjava hmapped hdot hupper]

/-- The names of the sources, in the order of their mappings. -/
theorem sourceNames_eq (vdb : VDBMetaData) : sourceNames vdb = (sourceMappings vdb).map (·.1) := by
  unfold sourceNames sourceMappings
  rw [List.map_flatMap]

/-- The classes that are generated are bound to the prefixes of their definitions, and read their
settings from exactly the variables that are set.  These classes are what the archive holds at the paths of
the sources, as long as the paths differ. -/
theorem settings_found (hjava : NameCase java)
    (h : Mapped java getSyndesisDataSource (sourceMappings vdb)) (publishConfig : PublishConfiguration)
    (openShiftName : String) :
    (∀ mapping ∈ sourceMappings vdb, ∃ definition ds,
      MappedTo getSyndesisDataSource mapping definition ds ∧
        (∃ front between back, '"' ∉ between.toList ∧
          fill (normalizedName java mapping.1) (templateOf mapping.2.1) =
            front ++ configurationAnnotation ++ between ++ "\"" ++
              (definition.keyStart ++ normalizedName java mapping.1) ++ "\"" ++ back) ∧
        readVariables java getSyndesisDataSource vdb (normalizedMapping java mapping) =
          variableNames java (definition, ds)) ∧
    ((builderPaths java vdb).Nodup → ∀ model ∈ vdb.models, model.physical = true →
      ∀ mapping ∈ model.sourceMappings,
        (builderPath (normalizedName java mapping.1),
            fill (normalizedName java mapping.1) (templateOf mapping.2.1)) ∈
          (builderClasses java vdb).values) ∧
    ∃ envs, getEnvironmentVariablesForVDBDataSources java getSyndesisDataSource vdb publishConfig
        openShiftName = .ok envs ∧
      secretVariables envs = (sourceMappings (normalizeDataSourceNames java vdb)).flatMap
        (readVariables java getSyndesisDataSource vdb) := by
  have hresolves : Resolves getSyndesisDataSource (sourceNames vdb) := by
    rw [sourceNames_eq]
    intro source hsource
    obtain ⟨mapping, hmapping, rfl⟩ := List.mem_map.mp hsource
    obtain ⟨⟨definition, ds, hmapped⟩, -⟩ := h mapping hmapping
    exact ⟨definition, ds, hmapped.toResolved⟩
  refine ⟨?_, fun hpaths model hmodel hphysical mapping hmapping =>
    class_of_source hpaths hmodel hphysical hmapping, ?_⟩
  · intro mapping hmapping
    obtain ⟨⟨definition, ds, hmapped⟩, hdot, hupper⟩ := h mapping hmapping
    refine ⟨definition, ds, hmapped, ?_, readVariables_eq hjava hmapped hdot hupper⟩
    -- the template is the one of the definition that resolved the name
    rw [hmapped.translator]
    exact fill_of_configurationPrefix (configurationPrefix_templateOf definition _)
  · obtain ⟨envs, henvs, hnames⟩ :=
      @secretVariables_environment java _ _ hresolves publishConfig openShiftName
    refine ⟨envs, henvs, hnames.trans ?_⟩
    rw [sourceNames_eq, sourceMappings_normalized, flatMap_readVariables hjava h]

end Variables

/-- Java as it is on ASCII texts and on sigmas. -/
def sigmaJava : JavaText :=
  { JavaText.ascii with
    upperCase := fun c =>
      if c = JavaText.finalSigma then [JavaText.capitalSigma] else [asciiUpper c] }

/-- Its case mappings are those that are assumed. -/
theorem nameCase_sigmaJava : NameCase sigmaJava where
  start_part := JavaText.unicode_ascii.start_part
  literal := JavaText.unicode_ascii.literal
  sigma := JavaText.unicode_ascii.sigma
  underscore := JavaText.unicode_ascii.underscore
  letterOrDigit := JavaText.unicode_ascii.letterOrDigit
  lower_start := JavaText.unicode_ascii.lower_start
  lower_part := JavaText.unicode_ascii.lower_part
  lower_ascii := JavaText.unicode_ascii.lower_ascii
  lower_hyphen := JavaText.unicode_ascii.lower_hyphen
  lower_dot c h := by
    have hc : asciiLower c = '.' := (List.mem_singleton.mp h).symm
    rcases JavaText.asciiLower_cases c with h | ⟨-, hlower, -⟩
    · rw [← h, hc]
    · rw [hc] at hlower
      exact absurd hlower (by decide)
  upper_sigma := by decide

theorem settings_found_orders :
    (builderPath "myorders", fill "myorders" (templateOf "postgresql")) ∈
        (builderClasses sigmaJava (twoSources "My-Orders" "billing")).values ∧
      ∃ envs, getEnvironmentVariablesForVDBDataSources sigmaJava namedLookup
          (twoSources "My-Orders" "billing") {} "dv" = .ok envs ∧
        secretVariables envs =
          (sourceMappings (normalizeDataSourceNames sigmaJava (twoSources "My-Orders" "billing"))).flatMap
            (readVariables sigmaJava namedLookup (twoSources "My-Orders" "billing")) := by
  have hmapped : Mapped sigmaJava namedLookup
      [("My-Orders", "postgresql", ""), ("billing", "postgresql", "")] := by
    rw [Mapped, List.forall_mem_cons, List.forall_mem_singleton]
    refine ⟨⟨⟨.postgreSQL, _, ⟨⟨rfl, rfl⟩, rfl, rfl⟩⟩, ?_, ?_⟩,
      ⟨.postgreSQL, _, ⟨⟨rfl, rfl⟩, rfl, rfl⟩⟩, ?_, ?_⟩
    · decide
    · exact List.all_iff_forall_prop.mp (by decide)
    · decide
    · exact List.all_iff_forall_prop.mp (by decide)
  obtain ⟨-, hclasses, henvs⟩ := @settings_found sigmaJava namedLookup
    (twoSources "My-Orders" "billing") nameCase_sigmaJava hmapped {} "dv"
  refine ⟨?_, henvs⟩
  exact hclasses (by decide) ((twoSources "My-Orders" "billing").models.head (by decide)) (by decide)
    rfl ("My-Orders", "postgresql", "") (by decide)

end TeiidSyndesis.OpenShift
