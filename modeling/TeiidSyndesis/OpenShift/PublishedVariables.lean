/-
# TeiidSyndesis.OpenShift.PublishedVariables — the secret of an image and the variables that refer to it.

The loop that fills the secret and the loop that lists the environment variables go over the same
properties.  The second one only needs their keys; the first one decrypts each value once more and cannot
do without it.  They agree, and the secret holds what is published, exactly if every published property
is there and none looks encrypted.  The bytes of a value are those of the default charset of the JVM,
which is taken to have bytes for every text.

Main results: `secrets_eq`, `variables_eq` — what the two loops go over; `putSecrets_eq_ok` — when the first
one returns; `variablesAgree_iff` — when they agree.
-/
import TeiidSyndesis.Library.Affixes
import TeiidSyndesis.Library.Results
import TeiidSyndesis.OpenShift.ConnectionLink
import TeiidSyndesis.OpenShift.PublishedImage

namespace TeiidSyndesis.OpenShift

open TeiidSyndesis.Datasources TeiidSyndesis.Library TeiidSyndesis.Model

/-! ## The published properties of a VDB -/

/-- The source is found, with a definition. -/
structure Resolved (getSyndesisDataSource : Lookup) (source : String)
    (definition : DataSourceDefinition) (ds : DefaultSyndesisDataSource) : Prop where
  found : getSyndesisDataSource source = .ok (some ds)
  defined : DataSourceDefinition.getDefinition ds = some definition

/-- Every source of the VDB has its definition and its data source. -/
def Resolves (getSyndesisDataSource : Lookup) (names : List String) : Prop :=
  ∀ source ∈ names, ∃ definition ds, Resolved getSyndesisDataSource source definition ds

/-- The data sources of the sources that have one. -/
def definedSources (getSyndesisDataSource : Lookup) (vdb : VDBMetaData) (names : List String) :
    List (DataSourceDefinition × DefaultSyndesisDataSource) :=
  names.filterMap fun source => (definedSource getSyndesisDataSource vdb source).toOption

/-- The properties both loops go over. -/
def publishedEntries (sources : List (DataSourceDefinition × DefaultSyndesisDataSource)) :
    List (String × Option String) :=
  sources.flatMap fun source => source.1.getPublishedImageDataSourceProperties source.2

/-- The properties that are published for a VDB. -/
def publishedProperties (getSyndesisDataSource : Lookup) (vdb : VDBMetaData) :
    List (String × Option String) :=
  publishedEntries (definedSources getSyndesisDataSource vdb (sourceNames vdb))

/-- What the loops must come to: the variables refer to the keys of the secret, and the secret, decoded,
is what is published and not absent. -/
def VariablesAgree (java : JavaText) (charset : Charset) (encryption : EncryptionComponent)
    (getSyndesisDataSource : Lookup) (vdb : VDBMetaData) (publishConfig : PublishConfiguration)
    (openShiftName : String) : Prop :=
  ∃ secrets envs,
    getSecretVariablesForVDBDataSources charset encryption getSyndesisDataSource vdb = .ok secrets ∧
    getEnvironmentVariablesForVDBDataSources java getSyndesisDataSource vdb publishConfig openShiftName =
      .ok envs ∧
    (∀ key, (∃ envVar ∈ envs, envVar.secretKeyRef = some (key, secretName openShiftName)) ↔
      key ∈ secrets.keys) ∧
    ∀ key plain,
      (∃ secret, (key, secret) ∈ secrets.values ∧ decodeSecret charset secret = some plain) ↔
        (key, some plain) ∈ publishedProperties getSyndesisDataSource vdb

/-- No key has two values. -/
def OneValue (entries : List (String × Option String)) : Prop :=
  ∀ entry ∈ entries, ∀ entry' ∈ entries, entry.1 = entry'.1 → entry = entry'

/-- The value is there and does not look encrypted. -/
def IsPlain (value : Option String) : Prop :=
  ∃ plain, value = some plain ∧ startsWith plain encryptedStart = false

section Loops

variable {java : JavaText} {charset : Charset} {encryption : EncryptionComponent}
  {getSyndesisDataSource : Lookup} {vdb : VDBMetaData}

/-- A source that resolves is found. -/
theorem definedSource_of_resolved {source : String} {definition : DataSourceDefinition}
    {ds : DefaultSyndesisDataSource} (h : Resolved getSyndesisDataSource source definition ds) :
    definedSource getSyndesisDataSource vdb source = .ok (definition, ds) := by
  refine bind_eq_ok.mpr ⟨some ds, h.found, ?_⟩
  simp only [h.defined]
  rfl

/-- One source more at the front. -/
theorem definedSources_cons {source : String} {names : List String} {definition : DataSourceDefinition}
    {ds : DefaultSyndesisDataSource} (h : Resolved getSyndesisDataSource source definition ds) :
    definedSources getSyndesisDataSource vdb (source :: names) =
      (definition, ds) :: definedSources getSyndesisDataSource vdb names := by
  unfold definedSources
  rw [List.filterMap_cons, definedSource_of_resolved h]
  rfl

theorem publishedEntries_cons {source : DataSourceDefinition × DefaultSyndesisDataSource}
    {sources : List (DataSourceDefinition × DefaultSyndesisDataSource)} :
    publishedEntries (source :: sources) =
      source.1.getPublishedImageDataSourceProperties source.2 ++ publishedEntries sources :=
  List.flatMap_cons

/-! ## The loop over the secrets -/

/-- The loop, over two lists of properties. -/
theorem putSecrets_append (entries entries' : List (String × Option String)) (properties : Secrets) :
    putSecrets charset encryption (entries ++ entries') properties =
      putSecrets charset encryption entries properties >>= putSecrets charset encryption entries' := by
  induction entries generalizing properties with
  | nil => rfl
  | cons entry entries ih =>
      obtain ⟨key, value⟩ := entry
      rw [List.cons_append, putSecrets, putSecrets]
      cases encryption.decrypt value with
      | error e => rfl
      | ok decrypted =>
          cases decrypted with
          | none => rfl
          | some plain => exact ih _

/-- The loop over sources that are all found goes over their properties. -/
theorem secrets_eq {names : List String} (hresolves : Resolves getSyndesisDataSource names)
    (properties : Secrets) :
    names.foldlM
        (fun properties source => do
          let (definition, ds) ← definedSource getSyndesisDataSource vdb source
          putSecrets charset encryption (definition.getPublishedImageDataSourceProperties ds) properties)
        properties =
      putSecrets charset encryption (publishedEntries (definedSources getSyndesisDataSource vdb names))
        properties := by
  induction names generalizing properties with
  | nil => rfl
  | cons source names ih =>
      obtain ⟨⟨definition, ds, hresolved⟩, hrest⟩ := List.forall_mem_cons.mp hresolves
      rw [List.foldlM_cons, definedSources_cons hresolved, publishedEntries_cons, putSecrets_append,
        definedSource_of_resolved hresolved]
      exact congrArg (_ >>= ·) (funext fun properties => ih hrest properties)

/-- The row of the secret for a property whose value can be decrypted. -/
def secretRow (charset : Charset) (encryption : EncryptionComponent) (entry : String × Option String) :
    Option (String × String) :=
  match encryption.decrypt entry.2 with
  | .ok (some plain) => some (entry.1, encodeSecret charset plain)
  | _ => none

/-- The loop returns exactly if every value is there and can be decrypted. -/
theorem putSecrets_eq_ok {entries : List (String × Option String)} {properties secrets : Secrets} :
    putSecrets charset encryption entries properties = .ok secrets ↔
      (∀ entry ∈ entries, ∃ plain, encryption.decrypt entry.2 = .ok (some plain)) ∧
        secrets = (entries.filterMap (secretRow charset encryption)).foldl LinkedMap.put properties := by
  -- on the entries; the first one that cannot be decrypted ends the loop
  induction entries generalizing properties with
  | nil =>
      constructor
      · intro h
        exact ⟨nofun, (Except.ok.inj h).symm⟩
      · rintro ⟨-, rfl⟩
        rfl
  | cons entry entries ih =>
      obtain ⟨key, value⟩ := entry
      rw [putSecrets, List.forall_mem_cons]
      show (encryption.decrypt value >>= _) = _ ↔ _
      cases hdecrypt : encryption.decrypt value with
      | error e =>
          refine iff_of_false nofun ?_
          rintro ⟨⟨⟨plain, hplain⟩, -⟩, -⟩
          cases hplain
      | ok decrypted =>
          cases decrypted with
          | none =>
              refine iff_of_false nofun ?_
              rintro ⟨⟨⟨plain, hplain⟩, -⟩, -⟩
              cases hplain
          | some plain =>
              have hrow : secretRow charset encryption (key, value) =
                  some (key, encodeSecret charset plain) := by
                unfold secretRow
                rw [hdecrypt]
              rw [List.filterMap_cons_some hrow, List.foldl_cons]
              refine Iff.trans ih (and_congr_left fun _ => ?_)
              rw [and_iff_right ⟨plain, rfl⟩]

/-- What one property puts into the secret. -/
theorem secretRow_eq_some {entry : String × Option String} {row : String × String} :
    secretRow charset encryption entry = some row ↔
      ∃ plain, encryption.decrypt entry.2 = .ok (some plain) ∧
        row = (entry.1, encodeSecret charset plain) := by
  unfold secretRow
  constructor
  · intro h
    split at h
    · rename_i plain hplain
      exact ⟨plain, hplain, (Option.some.inj h).symm⟩
    · cases h
  · rintro ⟨plain, hplain, rfl⟩
    rw [hplain]

/-- The secret the loop fills. -/
def secretRows (charset : Charset) (encryption : EncryptionComponent)
    (entries : List (String × Option String)) : Secrets :=
  (entries.filterMap (secretRow charset encryption)).foldl LinkedMap.put LinkedMap.empty

/-- Where no key has two values, the rows of the secret are those of the properties. -/
theorem mem_secrets {entries : List (String × Option String)} (hone : OneValue entries)
    {row : String × String} :
    row ∈ (secretRows charset encryption entries).values ↔
      ∃ entry ∈ entries, secretRow charset encryption entry = some row := by
  unfold secretRows
  rw [LinkedMap.mem_values_foldl_put]
  · rw [LinkedMap.values_empty, List.nil_append]
    exact List.mem_filterMap
  · rw [LinkedMap.values_empty, List.nil_append]
    intro x hx y hy hxy
    obtain ⟨entry, hentry, hrow⟩ := List.mem_filterMap.mp hx
    obtain ⟨entry', hentry', hrow'⟩ := List.mem_filterMap.mp hy
    obtain ⟨plain, -, rfl⟩ := secretRow_eq_some.mp hrow
    obtain ⟨plain', -, rfl⟩ := secretRow_eq_some.mp hrow'
    obtain rfl := hone entry hentry entry' hentry' hxy
    exact Option.some.inj (hrow.symm.trans hrow')

/-! ## The loop over the environment variables -/

/-- Over sources that are all found, it always returns. -/
theorem variables_eq {names : List String} (hresolves : Resolves getSyndesisDataSource names)
    (secret : String) (envs : List EnvVar) :
    names.foldlM
        (fun envs source => do
          let (definition, ds) ← definedSource getSyndesisDataSource vdb source
          pure (envs ++ (definition.getPublishedImageDataSourceProperties ds).map
            fun entry : String × Option String => envFromSecret java secret entry.1))
        envs =
      .ok (envs ++ (publishedEntries (definedSources getSyndesisDataSource vdb names)).map
        fun entry : String × Option String => envFromSecret java secret entry.1) := by
  induction names generalizing envs with
  | nil => simp [publishedEntries, definedSources, pure, Except.pure]
  | cons source names ih =>
      obtain ⟨⟨definition, ds, hresolved⟩, hrest⟩ := List.forall_mem_cons.mp hresolves
      rw [List.foldlM_cons, definedSource_of_resolved hresolved]
      refine Eq.trans (ih hrest _) ?_
      rw [definedSources_cons hresolved, publishedEntries_cons, List.map_append, List.append_assoc]

/-- The variables that refer to the secret are those of the properties. -/
theorem environment_eq (hresolves : Resolves getSyndesisDataSource (sourceNames vdb))
    (publishConfig : PublishConfiguration) (openShiftName : String) :
    ∃ envs, getEnvironmentVariablesForVDBDataSources java getSyndesisDataSource vdb publishConfig
        openShiftName = .ok envs ∧
      ∀ key, (∃ envVar ∈ envs, envVar.secretKeyRef = some (key, secretName openShiftName)) ↔
        key ∈ (publishedProperties getSyndesisDataSource vdb).map (·.1) := by
  have hloop := @variables_eq java _ vdb _ hresolves (secretName openShiftName) []
  unfold getEnvironmentVariablesForVDBDataSources
  refine ⟨_, bind_eq_ok.mpr ⟨_, hloop, rfl⟩, fun key => ?_⟩
  constructor
  · rintro ⟨envVar, hmem, hkey⟩
    rw [List.append_assoc, List.nil_append] at hmem
    rcases List.mem_append.mp hmem with hsource | hother
    · obtain ⟨entry, hentry, rfl⟩ := List.mem_map.mp hsource
      exact List.mem_map.mpr ⟨entry, hentry, (Prod.mk.inj (Option.some.inj hkey)).1⟩
    · -- the other variables take their values from no secret
      have hnone : ∀ v ∈ PublishConfiguration.getUserEnvironmentVariables.map
            (fun entry => env entry.1 entry.2) ++
          [env "VDB_FILE" (vdb.name ++ "-vdb.xml"),
            env "JAVA_OPTIONS" publishConfig.getUserJavaOptions], v.secretKeyRef = none := by
        intro v hv
        simp only [PublishConfiguration.getUserEnvironmentVariables, List.map_cons, List.map_nil,
          List.cons_append, List.nil_append, List.mem_cons, List.not_mem_nil, or_false] at hv
        rcases hv with rfl | rfl | rfl <;> rfl
      rw [hnone _ hother] at hkey
      cases hkey
  · intro hkey
    obtain ⟨entry, hentry, rfl⟩ := List.mem_map.mp hkey
    refine ⟨envFromSecret java (secretName openShiftName) entry.1, ?_, rfl⟩
    rw [List.append_assoc, List.nil_append]
    exact List.mem_append_left _ (List.mem_map.mpr ⟨entry, hentry, rfl⟩)

/-! ## What the loops agree on -/

/-- A value is read back from its secret. -/
theorem decodeSecret_encodeSecret (hlossless : charset.Lossless) (plain : String) :
    decodeSecret charset (encodeSecret charset plain) = some plain := by
  unfold decodeSecret encodeSecret
  rw [String.toList_ofList, Base64.decode_encode]
  exact hlossless plain

/-- A value that does not look encrypted is decrypted to itself. -/
theorem decrypt_of_plain {value : String}
    (h : startsWith value encryptedStart = false) :
    encryption.decrypt (some value) = .ok (some value) := by
  unfold EncryptionComponent.decrypt
  simp [h]

/-- The plain text is shorter than the encrypted one. -/
def Shortens (encryption : EncryptionComponent) : Prop :=
  ∀ enc ∈ encryption.textEncryptor, ∀ text plain, enc text = some plain → plain.length < text.length

/-- An encrypted value is not its own plain text. -/
theorem plain_of_decrypt (hshorter : Shortens encryption)
    {value : String} (h : encryption.decrypt (some value) = .ok (some value)) :
    startsWith value encryptedStart = false := by
  by_contra hstart
  rw [Bool.not_eq_false] at hstart
  unfold EncryptionComponent.decrypt at h
  simp only [hstart, if_true] at h
  cases henc : encryption.textEncryptor with
  | none =>
      rw [henc] at h
      cases h
  | some enc =>
      rw [henc] at h
      cases hplain : enc (strip value encryptedStart) with
      | none =>
          simp only [hplain] at h
          cases h
      | some plain =>
          simp only [hplain] at h
          obtain rfl := Option.some.inj (Except.ok.inj h)
          have hlength := hshorter enc henc _ _ hplain
          unfold strip at hlength
          rw [if_pos hstart, String.length_ofList, List.length_drop, ← String.length_toList] at hlength
          omega

/-- The loops agree on properties that are there, do not look encrypted and have one value each. -/
theorem variablesAgree_of_plain (hlossless : charset.Lossless)
    (hresolves : Resolves getSyndesisDataSource (sourceNames vdb))
    {publishConfig : PublishConfiguration} {openShiftName : String}
    (hplain : ∀ entry ∈ publishedProperties getSyndesisDataSource vdb,
      IsPlain entry.2)
    (hone : OneValue (publishedProperties getSyndesisDataSource vdb)) :
    VariablesAgree java charset encryption getSyndesisDataSource vdb publishConfig openShiftName := by
  obtain ⟨envs, henvs, hrefs⟩ := @environment_eq java _ _ hresolves publishConfig openShiftName
  -- what does not look encrypted is decrypted to itself
  have hdecrypt : ∀ {entry : String × Option String}, IsPlain entry.2 →
      ∃ plain, encryption.decrypt entry.2 = .ok (some plain) ∧ entry.2 = some plain := by
    rintro ⟨key, value⟩ ⟨plain, hvalue, hstart⟩
    obtain rfl : value = some plain := hvalue
    exact ⟨plain, decrypt_of_plain hstart, rfl⟩
  -- the secret has the keys of all properties, and for each the one value it has
  refine ⟨secretRows charset encryption (publishedProperties getSyndesisDataSource vdb), envs, ?_, henvs, ?_, ?_⟩
  · refine (secrets_eq hresolves _).trans (putSecrets_eq_ok.mpr ⟨fun entry hentry => ?_, rfl⟩)
    obtain ⟨plain, hvalue, -⟩ := hdecrypt (hplain entry hentry)
    exact ⟨plain, hvalue⟩
  · intro key
    rw [hrefs]
    constructor
    · intro hkey
      obtain ⟨entry, hentry, rfl⟩ := List.mem_map.mp hkey
      obtain ⟨plain, hvalue, -⟩ := hdecrypt (hplain entry hentry)
      have hrow : (entry.1, encodeSecret charset plain) ∈
          (secretRows charset encryption (publishedProperties getSyndesisDataSource vdb)).values :=
        (mem_secrets hone).mpr ⟨entry, hentry, secretRow_eq_some.mpr ⟨plain, hvalue, rfl⟩⟩
      exact List.mem_map_of_mem (f := Prod.fst) hrow
    · intro hkey
      obtain ⟨row, hrow, rfl⟩ := List.mem_map.mp hkey
      obtain ⟨entry, hentry, hsecret⟩ := (mem_secrets hone).mp hrow
      obtain ⟨plain, -, rfl⟩ := secretRow_eq_some.mp hsecret
      exact List.mem_map_of_mem hentry
  · intro key plain
    constructor
    · rintro ⟨secret, hrow, hdecode⟩
      obtain ⟨entry, hentry, hsecret⟩ := (mem_secrets hone).mp hrow
      obtain ⟨plain', hvalue, heq⟩ := secretRow_eq_some.mp hsecret
      -- the row is that of a property, so decoding gives its value back
      obtain ⟨rfl, rfl⟩ := Prod.mk.inj heq
      obtain ⟨plain'', hvalue', hentry'⟩ := hdecrypt (hplain entry hentry)
      rw [decodeSecret_encodeSecret hlossless, Option.some.injEq] at hdecode
      rw [hvalue, Except.ok.injEq, Option.some.injEq] at hvalue'
      rw [← hdecode, hvalue', ← hentry']
      exact hentry
    · intro hentry
      obtain ⟨plain', hvalue, heq⟩ := hdecrypt (hplain _ hentry)
      obtain rfl : plain = plain' := Option.some.inj heq
      exact ⟨_, (mem_secrets hone).mpr ⟨_, hentry, secretRow_eq_some.mpr ⟨plain, hvalue, rfl⟩⟩,
        decodeSecret_encodeSecret hlossless plain⟩

/-- Only such properties are what the loops agree on. -/
theorem plain_of_variablesAgree (hlossless : charset.Lossless)
    (hresolves : Resolves getSyndesisDataSource (sourceNames vdb))
    (hshorter : Shortens encryption) {publishConfig : PublishConfiguration} {openShiftName : String}
    (h : VariablesAgree java charset encryption getSyndesisDataSource vdb publishConfig openShiftName) :
    (∀ entry ∈ publishedProperties getSyndesisDataSource vdb,
        IsPlain entry.2) ∧
      OneValue (publishedProperties getSyndesisDataSource vdb) := by
  obtain ⟨secrets, envs, hsecrets, -, -, hvalues⟩ := h
  obtain ⟨hdecrypt, hrows⟩ := putSecrets_eq_ok.mp ((secrets_eq hresolves _).symm.trans hsecrets)
  -- a value that is absent cannot be encoded
  have hthere : ∀ entry ∈ publishedProperties getSyndesisDataSource vdb,
      ∃ plain, entry.2 = some plain := by
    rintro ⟨key, value⟩ hentry
    obtain ⟨plain, hplain⟩ := hdecrypt _ hentry
    cases value with
    | none => cases hplain
    | some value => exact ⟨value, rfl⟩
  have hone : OneValue
      (publishedProperties getSyndesisDataSource vdb) := by
    rintro ⟨key, value⟩ hentry ⟨key', value'⟩ hentry' (rfl : key = key')
    obtain ⟨plain, rfl⟩ : ∃ plain, value = some plain := hthere _ hentry
    obtain ⟨plain', rfl⟩ : ∃ plain, value' = some plain := hthere _ hentry'
    obtain ⟨secret, hsecret, hdecode⟩ := (hvalues key plain).mpr hentry
    obtain ⟨secret', hsecret', hdecode'⟩ := (hvalues key plain').mpr hentry'
    obtain rfl : secret = secret' :=
      (Prod.mk.inj (List.inj_on_of_nodup_map secrets.nodup hsecret hsecret' rfl)).2
    rw [← hdecode, ← hdecode']
  refine ⟨?_, hone⟩
  intro entry hentry
  obtain ⟨value, hvalue⟩ := hthere entry hentry
  obtain ⟨plain, hplain⟩ := hdecrypt entry hentry
  -- the secret decodes to the value itself, so its decryption has not changed it
  have hrow : (entry.1, encodeSecret charset plain) ∈ secrets.values := by
    rw [hrows]
    exact (mem_secrets hone).mpr ⟨entry, hentry, secretRow_eq_some.mpr ⟨plain, hplain, rfl⟩⟩
  have hpublished := (hvalues entry.1 plain).mp ⟨_, hrow, decodeSecret_encodeSecret hlossless plain⟩
  have hsame : some plain = entry.2 :=
    congrArg Prod.snd (hone _ hpublished entry hentry rfl)
  rw [← hsame] at hplain
  exact ⟨plain, hsame.symm, plain_of_decrypt hshorter hplain⟩

end Loops

/-! ## The properties of the connections -/

/-- The properties of a connection a definition publishes, with the keys it has for them. -/
def readProperties : DataSourceDefinition → List (String × String)
  | .mongoDB =>
      [("user", "user"), ("password", "password"), ("database", "database"),
        ("adminDB", "authDatabase"), ("host", "remoteServerList")]
  | .salesforce =>
      [("clientId", "client-id"), ("clientSecret", "client-secret"), ("refreshToken", "refresh-token")]
  | _ =>
      [("url", "jdbc-url"), ("user", "username"), ("password", "password"),
        ("schema", "importer.schemaName")]

/-- The properties every connection has the same. -/
def fixedProperties : DataSourceDefinition → List (String × Option String)
  | .mongoDB => []
  | .salesforce => []
  | _ => [("maximumPoolSize", some "5"), ("minimumIdle", some "0")]

/-- The schema is left out where it is absent; the other properties are not. -/
theorem mem_properties {definition : DataSourceDefinition} {ds : DefaultSyndesisDataSource}
    {entry : String × Option String} :
    entry ∈ definition.properties ds ↔
      (∃ property ∈ readProperties definition, entry = (property.2, ds.getProperty property.1) ∧
        (property.1 = "schema" → ds.getProperty property.1 ≠ none)) ∨
      entry ∈ fixedProperties definition := by
  have hsql : entry ∈ DataSourceDefinition.sqlProperties ds ↔
      (∃ property ∈ readProperties .postgreSQL, entry = (property.2, ds.getProperty property.1) ∧
        (property.1 = "schema" → ds.getProperty property.1 ≠ none)) ∨
      entry ∈ fixedProperties .postgreSQL := by
    unfold DataSourceDefinition.sqlProperties readProperties fixedProperties
    cases hschema : ds.getProperty "schema" <;> simp [or_assoc, hschema]
  cases definition with
  | mongoDB => simp [DataSourceDefinition.properties, readProperties, fixedProperties]
  | salesforce => simp [DataSourceDefinition.properties, readProperties, fixedProperties]
  | _ => exact hsql

/-- Each property that must be there is there, and none looks encrypted. -/
def Encodable (definition : DataSourceDefinition) (ds : DefaultSyndesisDataSource) : Prop :=
  ∀ property ∈ readProperties definition,
    IsPlain (ds.getProperty property.1) ∨ property.1 = "schema" ∧ ds.getProperty property.1 = none

/-- Which properties can be published, for each definition. -/
theorem encodable_iff {definition : DataSourceDefinition} {ds : DefaultSyndesisDataSource} :
    (∀ entry ∈ definition.getPublishedImageDataSourceProperties ds, IsPlain entry.2) ↔
      Encodable definition ds := by
  have hfixed : ∀ entry ∈ fixedProperties definition, IsPlain entry.2 := by
    intro entry hentry
    have hsql : ∀ entry ∈ fixedProperties .postgreSQL, IsPlain entry.2 := by
      unfold fixedProperties
      rw [List.forall_mem_cons, List.forall_mem_singleton]
      exact ⟨⟨"5", rfl, by decide⟩, ⟨"0", rfl, by decide⟩⟩
    cases definition with
    | mongoDB => exact nomatch hentry
    | salesforce => exact nomatch hentry
    | _ => exact hsql entry hentry
  unfold DataSourceDefinition.getPublishedImageDataSourceProperties
  rw [List.forall_mem_map]
  constructor
  · intro h property hproperty
    by_cases habsent : property.1 = "schema" ∧ ds.getProperty property.1 = none
    · exact .inr habsent
    · refine .inl (h _ (mem_properties.mpr (.inl ⟨property, hproperty, rfl, fun hschema hnone => ?_⟩)))
      exact habsent ⟨hschema, hnone⟩
  · intro h entry hentry
    rcases mem_properties.mp hentry with ⟨property, hproperty, rfl, hschema⟩ | hfix
    · rcases h property hproperty with hplain | ⟨hname, hnone⟩
      · exact hplain
      · exact absurd hnone (hschema hname)
    · exact hfixed entry hfix

/-! ## Keys of different sources -/

/-- The ends of the keys, with the dot behind the name. -/
def keyEnds (definition : DataSourceDefinition) : List (List Char) :=
  definition.keys.map fun key => '.' :: key.toList

/-- How the keys of the definitions begin. -/
def keyStarts : List (List Char) := DataSourceDefinition.all.map fun definition => definition.keyStart.toList

/-- No key of a definition ends another. -/
theorem suffixFree_keyEnds (definition : DataSourceDefinition) : SuffixFree (keyEnds definition) := by
  cases definition <;> decide

/-- No definition's beginning begins another's. -/
theorem prefixFree_keyStarts : PrefixFree keyStarts := by decide

theorem mem_all (definition : DataSourceDefinition) : definition ∈ DataSourceDefinition.all := by
  cases definition <;> decide

/-- Definitions whose keys have one start publish the same properties under the same keys. -/
theorem same_of_keyStart {definition definition' : DataSourceDefinition}
    (h : definition.keyStart = definition'.keyStart) :
    definition.keys = definition'.keys ∧
      readProperties definition = readProperties definition' ∧
      fixedProperties definition = fixedProperties definition' := by
  cases definition <;> cases definition' <;> first | exact ⟨rfl, rfl, rfl⟩ | exact absurd h (by decide)

/-- The name of a source as it stands in the keys. -/
def keyName (ds : DefaultSyndesisDataSource) : String := ds.teiidName.getD "null"

/-- A key begins with its definition, goes on with its source and ends with its property. -/
theorem toList_propertyKey (definition : DataSourceDefinition) (ds : DefaultSyndesisDataSource)
    (key : String) :
    (definition.propertyKey ds key).toList =
      definition.keyStart.toList ++ ((keyName ds).toList ++ '.' :: key.toList) := by
  unfold DataSourceDefinition.propertyKey keyName
  simp [String.toList_append]

/-- A key tells the start, the name and the property. -/
theorem propertyKey_inj {definition definition' : DataSourceDefinition}
    {ds ds' : DefaultSyndesisDataSource} {key key' : String} (hkey : key ∈ definition.keys)
    (hkey' : key' ∈ definition'.keys)
    (h : definition.propertyKey ds key = definition'.propertyKey ds' key') :
    definition.keyStart = definition'.keyStart ∧ keyName ds = keyName ds' ∧ key = key' := by
  have hchars := congrArg String.toList h
  rw [toList_propertyKey, toList_propertyKey] at hchars
  obtain ⟨hstart, hrest⟩ := prefixFree_keyStarts.append_inj (List.mem_map_of_mem (mem_all definition))
    (List.mem_map_of_mem (mem_all definition')) hchars
  have hstarts := String.toList_inj.mp hstart
  have hend : '.' :: key'.toList ∈ keyEnds definition := by
    unfold keyEnds
    rw [(same_of_keyStart hstarts).1]
    exact List.mem_map_of_mem hkey'
  obtain ⟨hnames, hkeys⟩ :=
    (suffixFree_keyEnds definition).append_inj (List.mem_map_of_mem hkey) hend hrest
  exact ⟨hstarts, String.toList_inj.mp hnames, String.toList_inj.mp (List.tail_eq_of_cons_eq hkeys)⟩

/-- What is published is a property of the definition, with its value. -/
theorem mem_published {definition : DataSourceDefinition} {ds : DefaultSyndesisDataSource}
    {entry : String × Option String}
    (h : entry ∈ definition.getPublishedImageDataSourceProperties ds) :
    ∃ property ∈ definition.properties ds, property.1 ∈ definition.keys ∧
      entry = (definition.propertyKey ds property.1, property.2) := by
  obtain ⟨property, hproperty, rfl⟩ := List.mem_map.mp h
  exact ⟨property, hproperty, (definition.sublist_keys ds).subset (List.mem_map_of_mem hproperty), rfl⟩

/-- Data sources under one name have the same values where both have one. -/
def Compatible (source source' : DataSourceDefinition × DefaultSyndesisDataSource) : Prop :=
  source.1.keyStart = source'.1.keyStart → keyName source.2 = keyName source'.2 →
    ∀ property ∈ readProperties source.1, ∀ value ∈ source.2.getProperty property.1,
      ∀ value' ∈ source'.2.getProperty property.1, value = value'

/-- A data source under a name of its own is compatible with all others. -/
theorem compatible_of_names {source source' : DataSourceDefinition × DefaultSyndesisDataSource}
    (h : keyName source.2 = keyName source'.2 → source = source') : Compatible source source' := by
  intro _ hname property _ value hvalue value' hvalue'
  obtain rfl := h hname
  exact Option.some.inj (hvalue.symm.trans hvalue')

/-- What a key stands for is determined by the definition. -/
theorem keys_nodup (definition : DataSourceDefinition) :
    ((readProperties definition).map (·.2) ++ (fixedProperties definition).map (·.1)).Nodup := by
  cases definition <;> decide

/-- A key has one value, if the sources that share it agree. -/
theorem value_of_key {definition : DataSourceDefinition} {ds ds' : DefaultSyndesisDataSource}
    {key : String} {value value' : String}
    (hsame : ∀ property ∈ readProperties definition, ∀ v ∈ ds.getProperty property.1,
      ∀ v' ∈ ds'.getProperty property.1, v = v')
    (h : (key, some value) ∈ definition.properties ds)
    (h' : (key, some value') ∈ definition.properties ds') : value = value' := by
  obtain ⟨hread, hfixed, hdisjoint⟩ := List.nodup_append.mp (keys_nodup definition)
  rcases mem_properties.mp h with ⟨property, hproperty, heq, -⟩ | hfix
  · obtain ⟨rfl, hvalue⟩ := Prod.mk.inj heq
    rcases mem_properties.mp h' with ⟨property', hproperty', heq', -⟩ | hfix'
    · obtain ⟨hkeys, hvalue'⟩ := Prod.mk.inj heq'
      obtain rfl := List.inj_on_of_nodup_map hread hproperty hproperty' hkeys
      exact hsame property hproperty value hvalue.symm value' hvalue'.symm
    · exact absurd rfl (hdisjoint _ (List.mem_map_of_mem hproperty) _ (List.mem_map_of_mem hfix'))
  · rcases mem_properties.mp h' with ⟨property', hproperty', heq', -⟩ | hfix'
    · obtain ⟨rfl, -⟩ := Prod.mk.inj heq'
      exact absurd rfl (hdisjoint _ (List.mem_map_of_mem hproperty') _ (List.mem_map_of_mem hfix))
    · have hrow := List.inj_on_of_nodup_map hfixed hfix hfix' rfl
      exact Option.some.inj (congrArg Prod.snd hrow)

/-- Among properties that are there, no key has two values exactly if the sources are compatible. -/
theorem oneValue_iff {sources : List (DataSourceDefinition × DefaultSyndesisDataSource)}
    (hplain : ∀ entry ∈ publishedEntries sources, IsPlain entry.2) :
    OneValue (publishedEntries sources) ↔
      ∀ source ∈ sources, ∀ source' ∈ sources, Compatible source source' := by
  constructor
  · intro h source hsource source' hsource' hstart hname property hproperty value hvalue value' hvalue'
    have hentry : ∀ {s v}, s ∈ sources → property ∈ readProperties s.1 →
        v ∈ s.2.getProperty property.1 →
        (s.1.propertyKey s.2 property.2, some v) ∈ publishedEntries sources := by
      intro s v hs hread hv
      refine List.mem_flatMap.mpr ⟨s, hs, List.mem_map.mpr ⟨(property.2, some v), ?_, rfl⟩⟩
      refine mem_properties.mpr (.inl ⟨property, hread, ?_, fun _ hnone => ?_⟩)
      · rw [Option.mem_def.mp hv]
      · cases hnone.symm.trans (Option.mem_def.mp hv)
    have hproperty' : property ∈ readProperties source'.1 := (same_of_keyStart hstart).2.1 ▸ hproperty
    have hkeys : source.1.propertyKey source.2 property.2 = source'.1.propertyKey source'.2 property.2 := by
      apply String.toList_inj.mp
      rw [toList_propertyKey, toList_propertyKey, hstart, hname]
    have hboth := h _ (hentry hsource hproperty hvalue) _ (hentry hsource' hproperty' hvalue') hkeys
    exact Option.some.inj (congrArg Prod.snd hboth)
  · rintro h ⟨key, value⟩ hentry ⟨key', value'⟩ hentry' (rfl : key = key')
    obtain ⟨plain, rfl, -⟩ : IsPlain value := hplain _ hentry
    obtain ⟨plain', rfl, -⟩ : IsPlain value' := hplain _ hentry'
    obtain ⟨source, hsource, hpublished⟩ := List.mem_flatMap.mp hentry
    obtain ⟨source', hsource', hpublished'⟩ := List.mem_flatMap.mp hentry'
    obtain ⟨⟨name, v⟩, hmem, hkey, heq⟩ := mem_published hpublished
    obtain ⟨⟨name', v'⟩, hmem', hkey', heq'⟩ := mem_published hpublished'
    obtain ⟨hk, rfl⟩ := Prod.mk.inj heq
    obtain ⟨hk', rfl⟩ := Prod.mk.inj heq'
    obtain ⟨hstart, hname, rfl⟩ := propertyKey_inj hkey hkey' (hk.symm.trans hk')
    -- the definitions publish the same properties
    obtain ⟨-, hread, hfixed⟩ := same_of_keyStart hstart
    have hsame : (name, some plain') ∈ source.1.properties source'.2 := by
      rw [mem_properties, hread, hfixed, ← mem_properties]
      exact hmem'
    rw [value_of_key (h source hsource source' hsource' hstart hname) hmem hsame]

/-! ## Agreement -/

/-- The secret and the environment agree exactly if the properties of every connection can be encoded as
they are, and connections under one name have the same values. -/
theorem variablesAgree_iff {java : JavaText} {charset : Charset} {encryption : EncryptionComponent}
    {getSyndesisDataSource : Lookup} {vdb : VDBMetaData} {publishConfig : PublishConfiguration}
    {openShiftName : String} (hlossless : charset.Lossless)
    (hresolves : Resolves getSyndesisDataSource (sourceNames vdb)) (hshorter : Shortens encryption) :
    VariablesAgree java charset encryption getSyndesisDataSource vdb publishConfig openShiftName ↔
      (∀ source ∈ definedSources getSyndesisDataSource vdb (sourceNames vdb),
        Encodable source.1 source.2) ∧
      ∀ source ∈ definedSources getSyndesisDataSource vdb (sourceNames vdb),
        ∀ source' ∈ definedSources getSyndesisDataSource vdb (sourceNames vdb),
          Compatible source source' := by
  -- the properties that are published are those of the sources, one source after another
  have hencodable : (∀ entry ∈ publishedProperties getSyndesisDataSource vdb, IsPlain entry.2) ↔
      ∀ source ∈ definedSources getSyndesisDataSource vdb (sourceNames vdb),
        Encodable source.1 source.2 := by
    constructor
    · intro h source hsource
      exact encodable_iff.mp fun entry hentry => h entry (List.mem_flatMap.mpr ⟨source, hsource, hentry⟩)
    · intro h entry hentry
      obtain ⟨source, hsource, hpublished⟩ := List.mem_flatMap.mp hentry
      exact encodable_iff.mpr (h source hsource) entry hpublished
  constructor
  · intro h
    obtain ⟨hplain, hone⟩ := plain_of_variablesAgree hlossless hresolves hshorter h
    exact ⟨hencodable.mp hplain, (oneValue_iff hplain).mp hone⟩
  · rintro ⟨hsources, hcompatible⟩
    have hplain := hencodable.mpr hsources
    exact variablesAgree_of_plain hlossless hresolves hplain ((oneValue_iff hplain).mpr hcompatible)

/-- A VDB with the source `orders`. -/
def ordersVdb : VDBMetaData :=
  { name := "shop"
    models :=
      [{ name := "orders", physical := true, ddl := ""
         sourceMappings := [("orders", "postgresql", "java:/orders")] }] }

/-- The data source `orders`, registered and in the cache. -/
def ordersRegistered (properties : List (String × String)) : Synchronizer :=
  { datasources :=
      [("orders",
        { name := "orders", translatorName := "postgresql", syndesisId := "i-1"
          properties := properties })]
    syndesisSources := [("i-1", DataSourceDefinition.ordersSource properties)] }

/-- The one source of the VDB, registered with these properties. -/
def ordersLookup (properties : List (String × String)) : Lookup :=
  (ordersRegistered properties).getSyndesisDataSource fun _ => .error (.notFound "connection")

theorem resolves_orders (properties : List (String × String)) :
    Resolves (ordersLookup properties) (sourceNames ordersVdb) := by
  intro source hsource
  obtain rfl : source = "orders" := List.mem_singleton.mp hsource
  exact ⟨.postgreSQL, DataSourceDefinition.ordersSource properties, rfl, rfl⟩

/-- A source whose properties are all there, in plain text. -/
theorem variablesAgree_iff_orders :
    VariablesAgree .ascii .utf8 ⟨none⟩ (ordersLookup DataSourceDefinition.ordersProperties) ordersVdb {}
      "dv-shop" := by
  have hshorter : Shortens ⟨none⟩ := by
    intro enc henc
    cases henc
  refine (variablesAgree_iff Charset.lossless_utf8 (resolves_orders _) hshorter).mpr ⟨?_, ?_⟩
  · have hplain : ∀ value ∈ ["jdbc:postgresql://db/orders", "app", "secret", "public"],
        startsWith value encryptedStart = false := by decide
    intro source hsource
    obtain rfl : source = (_, _) := List.mem_singleton.mp hsource
    intro property hproperty
    refine .inl ?_
    simp only [readProperties, List.mem_cons, List.not_mem_nil, or_false] at hproperty
    rcases hproperty with rfl | rfl | rfl | rfl <;> exact ⟨_, rfl, hplain _ (by decide)⟩
  · intro source hsource source' hsource'
    obtain rfl : source = (_, _) := List.mem_singleton.mp hsource
    obtain rfl : source' = (_, _) := List.mem_singleton.mp hsource'
    exact compatible_of_names fun _ => rfl

/-- A connection without a password has no secret: its absent value is dereferenced. -/
theorem absent_password_raises :
    ¬∀ (java : JavaText) (charset : Charset) (encryption : EncryptionComponent)
        (getSyndesisDataSource : Lookup) (vdb : VDBMetaData) (publishConfig : PublishConfiguration) (openShiftName : String),
      charset.Lossless → Resolves getSyndesisDataSource (sourceNames vdb) →
        VariablesAgree java charset encryption getSyndesisDataSource vdb publishConfig openShiftName := by
  intro h
  obtain ⟨secrets, envs, hsecrets, -⟩ :=
    h .ascii .utf8 ⟨none⟩ (ordersLookup [("url", "jdbc:postgresql://db/orders"), ("user", "app")]) ordersVdb
      {} "dv-shop" Charset.lossless_utf8 (resolves_orders _)
  have hraised : getSecretVariablesForVDBDataSources .utf8 ⟨none⟩
      (ordersLookup [("url", "jdbc:postgresql://db/orders"), ("user", "app")]) ordersVdb =
        .error (.nullPointer "decrypt") := by
    rfl
  cases hraised.symm.trans hsecrets

end TeiidSyndesis.OpenShift
