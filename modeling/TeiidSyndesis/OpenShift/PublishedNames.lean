/-
# TeiidSyndesis.OpenShift.PublishedNames — what the sources of an image are called.

The name of a source becomes a JNDI name and part of a path in lower case, and part of the names of
environment variables in upper case; each time its hyphens are removed.  The names of sources differ
when their case is ignored, but not always when their hyphens are: exactly then one source takes the
place of another.

Main results:
* `nodup_builderPaths`, `values_builderClasses` — paths are apart exactly if JNDI names are, and then every
  source has its class;
* `envName_propertyKey`, `variables_disjoint_iff` — variables are apart exactly if names in upper case are;
* `namesApart_iff` — so of all names of the sources of an image;
* `apart_of_no_hyphen` — names without hyphens are apart;
* `hyphens_collide` — and two names that are not.
-/
import Mathlib.Data.List.Flatten
import TeiidSyndesis.OpenShift.KomodoNames
import TeiidSyndesis.OpenShift.PublishedVariables

namespace TeiidSyndesis.OpenShift

open TeiidSyndesis.Datasources TeiidSyndesis.Library TeiidSyndesis.Model

/-! ## Names of the sources of a VDB -/

/-- The source is found, with a definition, under a name `getUniqueKomodoName` has made. -/
structure PublishedAs (getSyndesisDataSource : Lookup) (source : String)
    (definition : DataSourceDefinition) (ds : DefaultSyndesisDataSource) : Prop
    extends Resolved getSyndesisDataSource source definition ds where
  named : ds.teiidName = some source
  made : ∃ syndesisName, Synchronizer.KomodoName syndesisName source

/-- Every source of the VDB is published. -/
def Publishes (getSyndesisDataSource : Lookup) (vdb : VDBMetaData) : Prop :=
  ∀ source ∈ sourceNames vdb, ∃ definition ds, PublishedAs getSyndesisDataSource source definition ds

/-- The JNDI names after `normalizeDataSourceNames`. -/
def jndiNames (java : JavaText) (vdb : VDBMetaData) : List String :=
  (normalizeDataSourceNames java vdb).models.flatMap fun model => model.sourceMappings.map (·.2.2)

/-- The paths of the classes `buildDataSourceBuilders` generates for the source models. -/
def builderPaths (java : JavaText) (vdb : VDBMetaData) : List String :=
  ((normalizeDataSourceNames java vdb).models.filter (·.physical)).flatMap fun model =>
    (dataSourceBuilders model).map (·.1)

/-- The environment variables of a data source. -/
def variableNames (java : JavaText) (source : DataSourceDefinition × DefaultSyndesisDataSource) :
    List String :=
  (source.1.getPublishedImageDataSourceProperties source.2).map fun entry => envName java entry.1

/-- No source takes anything from another one. -/
structure NamesApart (java : JavaText) (getSyndesisDataSource : Lookup) (vdb : VDBMetaData) : Prop where
  jndiNames : (jndiNames java vdb).Nodup
  builderPaths : (builderPaths java vdb).Nodup
  variableNames :
    (definedSources getSyndesisDataSource vdb (sourceNames vdb)).Pairwise fun source source' =>
      ∀ name ∈ variableNames java source, name ∉ variableNames java source'

variable {java : JavaText}

/-! ## JNDI names and paths -/

/-- JNDI names are the normalized names. -/
theorem jndiNames_eq (java : JavaText) (vdb : VDBMetaData) :
    jndiNames java vdb = (sourceNames vdb).map (normalizedName java) := by
  unfold jndiNames normalizeDataSourceNames sourceNames
  rw [List.flatMap_map, List.map_flatMap]
  simp [List.map_map, Function.comp_def]

/-- Different names have different paths. -/
theorem builderPath_injective : Function.Injective builderPath := by
  intro name name' h
  unfold builderPath at h
  rw [String.append_assoc, String.append_assoc, String.append_right_inj, String.append_left_inj] at h
  exact h

/-- Different JNDI names make different paths. -/
theorem nodup_builderPaths {vdb : VDBMetaData} (h : (jndiNames java vdb).Nodup) :
    (builderPaths java vdb).Nodup := by
  have hpaths : builderPaths java vdb =
      (((normalizeDataSourceNames java vdb).models.filter (·.physical)).flatMap fun model =>
        model.sourceMappings.map (·.2.2)).map builderPath := by
    unfold builderPaths dataSourceBuilders
    rw [List.map_flatMap]
    simp [List.map_map, Function.comp_def]
  have hsublist : List.Sublist
      (((normalizeDataSourceNames java vdb).models.filter (·.physical)).flatMap fun model =>
        model.sourceMappings.map (·.2.2))
      (jndiNames java vdb) :=
    List.filter_sublist.flatMap _
  rw [hpaths]
  exact (h.sublist hsublist).map builderPath_injective

/-- The classes that the loop over the source models adds to the archive. -/
def builderClasses (java : JavaText) (vdb : VDBMetaData) : Archive :=
  ((normalizeDataSourceNames java vdb).models.filter (·.physical)).foldl
    (fun archive model => buildDataSourceBuilders model archive) LinkedMap.empty

/-- Where the paths differ, the archive has the class of every source. -/
theorem values_builderClasses {vdb : VDBMetaData} (h : (builderPaths java vdb).Nodup) :
    (builderClasses java vdb).values =
      ((normalizeDataSourceNames java vdb).models.filter (·.physical)).flatMap dataSourceBuilders := by
  unfold builderClasses buildDataSourceBuilders
  rw [← List.foldl_flatMap]
  refine (LinkedMap.values_foldl_put ?_).trans (List.nil_append _)
  show ([] ++ (List.flatMap _ _).map Prod.fst).Nodup
  rw [List.nil_append, List.map_flatMap]
  exact h

/-- Then the class of a source is its template, filled with the normalized name. -/
theorem class_of_source {vdb : VDBMetaData} (h : (builderPaths java vdb).Nodup) {model : ModelMetaData}
    (hmodel : model ∈ vdb.models) (hphysical : model.physical = true)
    {mapping : String × String × String} (hmapping : mapping ∈ model.sourceMappings) :
    (builderPath (normalizedName java mapping.1),
        fill (normalizedName java mapping.1) (templateOf mapping.2.1)) ∈
      (builderClasses java vdb).values := by
  rw [values_builderClasses h, List.mem_flatMap]
  refine ⟨_, List.mem_filter.mpr ⟨List.mem_map_of_mem hmodel, hphysical⟩, ?_⟩
  unfold dataSourceBuilders
  rw [List.map_map]
  exact List.mem_map_of_mem hmapping

/-! ## Environment variables -/

/-- Characters become those of a variable one by one. -/
theorem envText_append (a b : String) : envText (a ++ b) = envText a ++ envText b := by
  unfold envText removeHyphens
  simp [String.toList_append, List.filter_append, List.map_append, String.ofList_append]

theorem envName_append (java : JavaText) (a b : String) :
    envName java (a ++ b) = envName java a ++ envName java b := by
  unfold envName
  rw [envText_append, JavaText.toUpperCase_append]

/-- The variable of a text of ASCII. -/
def asciiEnvName (text : String) : String := String.ofList ((envText text).toList.map asciiUpper)

/-- For ASCII it does not matter where the name is put in upper case. -/
theorem envName_of_ascii (hjava : java.UpperAscii) {text : String}
    (h : ∀ c ∈ text.toList, c.toNat < 128) : envName java text = asciiEnvName text := by
  have hchars : ∀ c ∈ (envText text).toList, c.toNat < 128 := by
    intro c hc
    unfold envText removeHyphens at hc
    simp only [String.toList_ofList, List.mem_map, List.mem_filter] at hc
    obtain ⟨d, ⟨hd, -⟩, rfl⟩ := hc
    split
    · decide
    · exact h d hd
  exact JavaText.toUpperCase_of_ascii hjava hchars

/-! ### Keys -/

/-- How the variables of the definitions begin. -/
def variableStarts : List (List Char) :=
  DataSourceDefinition.all.map fun definition => (asciiEnvName definition.keyStart).toList

/-- How those of a definition end. -/
def variableEnds (definition : DataSourceDefinition) : List (List Char) :=
  definition.keys.map fun key => (asciiEnvName ("." ++ key)).toList

/-- No beginning begins another. -/
theorem prefixFree_variableStarts : PrefixFree variableStarts := by decide

/-- No ending ends another. -/
theorem suffixFree_variableEnds (definition : DataSourceDefinition) :
    SuffixFree (variableEnds definition) := by
  cases definition <;> decide

/-- The starts of the variables are as different as those of the keys. -/
theorem keyStart_of_variableStart {definition definition' : DataSourceDefinition}
    (h : (asciiEnvName definition.keyStart).toList = (asciiEnvName definition'.keyStart).toList) :
    definition.keyStart = definition'.keyStart := by
  have hstarts : ∀ d ∈ DataSourceDefinition.all, ∀ d' ∈ DataSourceDefinition.all,
      (asciiEnvName d.keyStart).toList = (asciiEnvName d'.keyStart).toList →
        d.keyStart = d'.keyStart := by decide
  exact hstarts definition (mem_all definition) definition' (mem_all definition') h

/-- Keys are ASCII but for the name of the source. -/
theorem keys_ascii (definition : DataSourceDefinition) :
    (∀ c ∈ definition.keyStart.toList, c.toNat < 128) ∧
      ∀ key ∈ definition.keys, ∀ c ∈ ("." ++ key).toList, c.toNat < 128 := by
  have hall : (definition.keyStart.toList.all fun c => decide (c.toNat < 128)) = true ∧
      (definition.keys.all fun key => ("." ++ key).toList.all fun c => decide (c.toNat < 128)) = true := by
    cases definition <;> decide
  constructor
  · intro c hc
    exact of_decide_eq_true (List.all_eq_true.mp hall.1 c hc)
  · intro key hkey c hc
    exact of_decide_eq_true (List.all_eq_true.mp (List.all_eq_true.mp hall.2 key hkey) c hc)

/-- The name of a variable is the start, the name of the source and the property, in upper case. -/
theorem envName_propertyKey (hjava : java.UpperAscii) (definition : DataSourceDefinition)
    (ds : DefaultSyndesisDataSource) {key : String} (hkey : key ∈ definition.keys) :
    envName java (definition.propertyKey ds key) =
      asciiEnvName definition.keyStart ++ (envName java (keyName ds) ++ asciiEnvName ("." ++ key)) := by
  obtain ⟨hstart, hends⟩ := keys_ascii definition
  have hsplit : definition.propertyKey ds key =
      definition.keyStart ++ (keyName ds ++ ("." ++ key)) := by
    unfold DataSourceDefinition.propertyKey keyName
    simp only [String.append_assoc]
  rw [hsplit, envName_append, envName_append, envName_of_ascii hjava hstart,
    envName_of_ascii hjava (hends key hkey)]

/-- The variables of a source are those of its properties. -/
theorem mem_variableNames {source : DataSourceDefinition × DefaultSyndesisDataSource} {name : String} :
    name ∈ variableNames java source ↔
      ∃ property ∈ source.1.properties source.2, property.1 ∈ source.1.keys ∧
        name = envName java (source.1.propertyKey source.2 property.1) := by
  unfold variableNames
  constructor
  · intro h
    obtain ⟨entry, hentry, rfl⟩ := List.mem_map.mp h
    obtain ⟨property, hproperty, hkey, rfl⟩ := mem_published hentry
    exact ⟨property, hproperty, hkey, rfl⟩
  · rintro ⟨property, hproperty, -, rfl⟩
    exact List.mem_map.mpr ⟨_, List.mem_map_of_mem hproperty, rfl⟩

/-- Every definition publishes a property of each connection. -/
theorem publishes_first (definition : DataSourceDefinition) :
    ∃ property ∈ readProperties definition, property.1 ≠ "schema" ∧ property.2 ∈ definition.keys := by
  cases definition <;> decide

/-- A property that is read has its variable. -/
theorem mem_variableNames_of_read {source : DataSourceDefinition × DefaultSyndesisDataSource}
    {property : String × String} (hread : property ∈ readProperties source.1)
    (hschema : property.1 ≠ "schema") (hkey : property.2 ∈ source.1.keys) :
    envName java (source.1.propertyKey source.2 property.2) ∈ variableNames java source := by
  have hmem : (property.2, source.2.getProperty property.1) ∈ source.1.properties source.2 :=
    mem_properties.mpr (.inl ⟨property, hread, rfl, fun h => absurd h hschema⟩)
  exact mem_variableNames.mpr ⟨_, hmem, hkey, rfl⟩

/-- Sources have no variable in common exactly if their keys have different starts or their names
differ in upper case and without hyphens. -/
theorem variables_disjoint_iff (hjava : java.UpperAscii)
    {source source' : DataSourceDefinition × DefaultSyndesisDataSource} :
    (∀ name ∈ variableNames java source, name ∉ variableNames java source') ↔
      (source.1.keyStart = source'.1.keyStart →
        envName java (keyName source.2) ≠ envName java (keyName source'.2)) := by
  constructor
  · intro h hstart hname
    obtain ⟨property, hproperty, hschema, hkey⟩ := publishes_first source.1
    obtain ⟨hkeys, hread, -⟩ := same_of_keyStart hstart
    have hkey' : property.2 ∈ source'.1.keys := hkeys ▸ hkey
    have hmem' := @mem_variableNames_of_read java source' _ (hread ▸ hproperty) hschema hkey'
    refine h _ (mem_variableNames_of_read hproperty hschema hkey) ?_
    rw [envName_propertyKey hjava _ _ hkey, hstart, hname, ← envName_propertyKey hjava _ _ hkey']
    exact hmem'
  · intro h name hname hname'
    obtain ⟨property, -, hkey, rfl⟩ := mem_variableNames.mp hname
    obtain ⟨property', -, hkey', heq⟩ := mem_variableNames.mp hname'
    rw [envName_propertyKey hjava _ _ hkey, envName_propertyKey hjava _ _ hkey'] at heq
    have hchars := congrArg String.toList heq
    simp only [String.toList_append] at hchars
    obtain ⟨hstart, hrest⟩ := prefixFree_variableStarts.append_inj
      (List.mem_map_of_mem (mem_all source.1)) (List.mem_map_of_mem (mem_all source'.1)) hchars
    have hstarts := keyStart_of_variableStart hstart
    -- definitions with one start have the same keys
    have hend : (asciiEnvName ("." ++ property'.1)).toList ∈ variableEnds source.1 := by
      unfold variableEnds
      rw [(same_of_keyStart hstarts).1]
      exact List.mem_map_of_mem hkey'
    obtain ⟨hnames, -⟩ :=
      (suffixFree_variableEnds source.1).append_inj (List.mem_map_of_mem hkey) hend hrest
    exact h hstarts (String.toList_inj.mp hnames)

/-! ## Sources that are kept apart -/

/-- The names differ by more than case and hyphens. -/
def Apart (java : JavaText) (source source' : DataSourceDefinition × DefaultSyndesisDataSource) : Prop :=
  removeHyphens (java.toLowerCase (keyName source.2)) ≠
      removeHyphens (java.toLowerCase (keyName source'.2)) ∧
    (source.1.keyStart = source'.1.keyStart →
      java.toUpperCase (removeHyphens (keyName source.2)) ≠
        java.toUpperCase (removeHyphens (keyName source'.2)))

/-- A name without dots loses its hyphens. -/
theorem envName_of_no_dot {name : String} (h : '.' ∉ name.toList) :
    envName java name = java.toUpperCase (removeHyphens name) := by
  have hkept : ∀ c ∈ (removeHyphens name).toList, (if c = '.' then '_' else c) = id c := by
    intro c hc
    refine if_neg ?_
    rintro rfl
    unfold removeHyphens at hc
    rw [String.toList_ofList] at hc
    exact h (List.mem_of_mem_filter hc)
  unfold envName envText
  rw [List.map_congr_left hkept, List.map_id, String.ofList_toList]

/-- A name that has been made has no dot. -/
theorem envName_of_made {name : String} (h : ∃ syndesisName, Synchronizer.KomodoName syndesisName name) :
    envName java name = java.toUpperCase (removeHyphens name) := by
  obtain ⟨syndesisName, hname⟩ := h
  apply envName_of_no_dot
  intro hdot
  exact absurd (hname.clean '.' hdot (by decide)) (by decide)

/-- The sources that are published are those of the VDB. -/
theorem definedSources_names {getSyndesisDataSource : Lookup} {vdb : VDBMetaData} {names : List String}
    (h : ∀ source ∈ names, ∃ definition ds, PublishedAs getSyndesisDataSource source definition ds) :
    (definedSources getSyndesisDataSource vdb names).map (fun source => keyName source.2) = names := by
  induction names with
  | nil => rfl
  | cons name names ih =>
      obtain ⟨⟨definition, ds, hpublished⟩, hrest⟩ := List.forall_mem_cons.mp h
      rw [definedSources_cons hpublished.toResolved, List.map_cons, ih hrest]
      unfold keyName
      rw [hpublished.named]
      rfl

/-- A source that is published has a name `getUniqueKomodoName` gives. -/
theorem made_of_mem {getSyndesisDataSource : Lookup} {vdb : VDBMetaData}
    (h : Publishes getSyndesisDataSource vdb)
    {source : DataSourceDefinition × DefaultSyndesisDataSource}
    (hsource : source ∈ definedSources getSyndesisDataSource vdb (sourceNames vdb)) :
    ∃ syndesisName, Synchronizer.KomodoName syndesisName (keyName source.2) := by
  have hname : keyName source.2 ∈ sourceNames vdb :=
    definedSources_names h ▸ List.mem_map_of_mem hsource
  obtain ⟨definition, ds, hpublished⟩ := h _ hname
  exact hpublished.made

/-- The sources of an image take nothing from each other exactly if their names differ by more than case
and hyphens. -/
theorem namesApart_iff (hjava : java.UpperAscii) {getSyndesisDataSource : Lookup} {vdb : VDBMetaData}
    (h : Publishes getSyndesisDataSource vdb) :
    NamesApart java getSyndesisDataSource vdb ↔
      (definedSources getSyndesisDataSource vdb (sourceNames vdb)).Pairwise (Apart java) := by
  -- the JNDI name of a source is read off its name in lower case
  have hjndi : (TeiidSyndesis.OpenShift.jndiNames java vdb).Nodup ↔
      (definedSources getSyndesisDataSource vdb (sourceNames vdb)).Pairwise fun source source' =>
        removeHyphens (java.toLowerCase (keyName source.2)) ≠
          removeHyphens (java.toLowerCase (keyName source'.2)) := by
    rw [jndiNames_eq]
    conv_lhs => rw [← @definedSources_names _ vdb _ h, List.map_map]
    exact List.pairwise_map
  -- and its variables off the name in upper case, behind the prefix of its definition
  have hvariables : ((definedSources getSyndesisDataSource vdb (sourceNames vdb)).Pairwise
        fun source source' => ∀ name ∈ TeiidSyndesis.OpenShift.variableNames java source,
          name ∉ TeiidSyndesis.OpenShift.variableNames java source') ↔
      (definedSources getSyndesisDataSource vdb (sourceNames vdb)).Pairwise fun source source' =>
        source.1.keyStart = source'.1.keyStart →
          java.toUpperCase (removeHyphens (keyName source.2)) ≠
            java.toUpperCase (removeHyphens (keyName source'.2)) := by
    refine List.Pairwise.iff_of_mem fun {source source'} hsource hsource' => ?_
    rw [variables_disjoint_iff hjava, envName_of_made (made_of_mem h hsource),
      envName_of_made (made_of_mem h hsource')]
  constructor
  · intro hapart
    exact (hjndi.mp hapart.jndiNames).and (hvariables.mp hapart.variableNames)
  · intro hapart
    obtain ⟨hlower, hupper⟩ := List.pairwise_and_iff.mp hapart
    have hnames := hjndi.mpr hlower
    exact ⟨hnames, nodup_builderPaths hnames, hvariables.mpr hupper⟩

/-! ## Names with hyphens -/

/-- Lower case makes no hyphen. -/
theorem hyphen_not_mem_lowerFrom (hjava : java.Unicode) {before cs : List Char} (h : '-' ∉ cs) :
    '-' ∉ java.lowerFrom before cs := by
  induction cs generalizing before with
  | nil => exact List.not_mem_nil
  | cons c cs ih =>
      rw [List.mem_cons, not_or] at h
      rw [JavaText.lowerFrom, List.mem_append, not_or]
      refine ⟨?_, ih h.2⟩
      unfold JavaText.lowerAt
      split
      · decide
      · intro hmem
        exact h.1 (hjava.lower_hyphen c hmem).symm

/-- Without hyphens nothing is removed. -/
theorem removeHyphens_of_not_mem {name : String} (h : '-' ∉ name.toList) : removeHyphens name = name := by
  unfold removeHyphens
  have hkept : ∀ c ∈ name.toList, decide (c ≠ '-') = true := by
    intro c hc
    rw [decide_eq_true_eq]
    rintro rfl
    exact h hc
  rw [List.filter_eq_self.mpr hkept, String.ofList_toList]

/-- Names without hyphens that differ in both cases are kept apart. -/
theorem apart_of_no_hyphen (hjava : java.Unicode)
    {source source' : DataSourceDefinition × DefaultSyndesisDataSource}
    (h : '-' ∉ (keyName source.2).toList) (h' : '-' ∉ (keyName source'.2).toList)
    (hlower : java.toLowerCase (keyName source.2) ≠ java.toLowerCase (keyName source'.2))
    (hupper : java.toUpperCase (keyName source.2) ≠ java.toUpperCase (keyName source'.2)) :
    Apart java source source' := by
  have hlowered : ∀ {name : String}, '-' ∉ name.toList →
      removeHyphens (java.toLowerCase name) = java.toLowerCase name := by
    intro name hname
    apply removeHyphens_of_not_mem
    unfold JavaText.toLowerCase
    rw [String.toList_ofList]
    exact hyphen_not_mem_lowerFrom hjava hname
  constructor
  · rw [hlowered h, hlowered h']
    exact hlower
  · intro _
    rw [removeHyphens_of_not_mem h, removeHyphens_of_not_mem h']
    exact hupper

/-- A VDB with two sources. -/
def twoSources (name name' : String) : VDBMetaData :=
  { name := "shop"
    models :=
      [{ name := name, physical := true, ddl := "", sourceMappings := [(name, "postgresql", "")] },
        { name := name', physical := true, ddl := "", sourceMappings := [(name', "postgresql", "")] }] }

/-- Each source is that of a connection to a PostgreSQL database. -/
def namedLookup : Lookup := fun source =>
  .ok (some { DataSourceDefinition.ordersSource [] with teiidName := some source })

theorem publishes_twoSources {name name' : String}
    (h : ∃ syndesisName, Synchronizer.KomodoName syndesisName name)
    (h' : ∃ syndesisName, Synchronizer.KomodoName syndesisName name') :
    Publishes namedLookup (twoSources name name') := by
  intro source hsource
  have hcases : source = name ∨ source = name' := by simpa [twoSources, sourceNames] using hsource
  refine ⟨.postgreSQL, _, ⟨⟨rfl, rfl⟩, rfl, ?_⟩⟩
  rcases hcases with rfl | rfl
  · exact h
  · exact h'

/-- A clean name is one that is given to itself. -/
theorem made_of_clean {name : String} (h : Synchronizer.komodoName name = name) :
    ∃ syndesisName, Synchronizer.KomodoName syndesisName name := by
  refine ⟨name, ?_⟩
  have hplain := @Synchronizer.KomodoName.plain name
  rwa [h] at hplain

theorem namesApart_iff_orders_billing :
    NamesApart .ascii namedLookup (twoSources "orders" "billing") := by
  refine (namesApart_iff JavaText.upperAscii_ascii
    (publishes_twoSources (made_of_clean (by rfl)) (made_of_clean (by rfl)))).mpr ?_
  refine List.pairwise_pair.mpr (apart_of_no_hyphen JavaText.unicode_ascii ?_ ?_ ?_ ?_)
  all_goals decide

/-- The sources `a-b` and `ab` have one class and one set of variables. -/
theorem hyphens_collide :
    ¬∀ (java : JavaText) (getSyndesisDataSource : Lookup) (vdb : VDBMetaData), java.UpperAscii →
      Publishes getSyndesisDataSource vdb →
      ((sourceNames vdb).Pairwise fun name name' => java.toLowerCase name ≠ java.toLowerCase name' ∧
        java.toUpperCase name ≠ java.toUpperCase name') →
      NamesApart java getSyndesisDataSource vdb := by
  intro h
  have hapart := h .ascii namedLookup (twoSources "a-b" "ab") JavaText.upperAscii_ascii
    (publishes_twoSources (made_of_clean (by rfl)) (made_of_clean (by rfl)))
    (List.pairwise_pair.mpr (by decide))
  exact absurd hapart.jndiNames (by decide)

end TeiidSyndesis.OpenShift
