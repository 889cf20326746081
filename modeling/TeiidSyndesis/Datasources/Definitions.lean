/-
# TeiidSyndesis.Datasources.Definitions — the kinds of data sources and their settings.

A `DataSourceDefinition` writes the settings of a connection down twice.  `createDatasource` passes them
to the connection factory of the preview server; `getPublishedImageDataSourceProperties` puts them under
the keys a published image reads, which begin with a text of the definition and the Teiid name of the
source.  The definitions of the SQL databases share both methods.

Main results:
* `propertyKey_injective`, `nodup_published` — keys of one source differ;
* `newTeiidDataSourceImpl_eq_ok`, `sameSettings_sql` — what the preview server is given;
* `sameSettings_iff` — exactly when the image reads the same settings;
* `username_not_published` — and a setting it does not read.
-/
import Mathlib.Data.List.Nodup
import TeiidSyndesis.Library.Lists
import TeiidSyndesis.OpenShift.ConnectionSynchronizer

namespace TeiidSyndesis.OpenShift

/-- A key that is absent has the value null. -/
def DefaultSyndesisDataSource.getProperty (scd : DefaultSyndesisDataSource) (key : String) :
    Option String :=
  scd.properties.lookup key

end TeiidSyndesis.OpenShift

namespace TeiidSyndesis.Datasources

open TeiidSyndesis.Library TeiidSyndesis.Model TeiidSyndesis.OpenShift

/-- The definitions that `getDefinition` knows, by the kind of their source. -/
inductive DataSourceDefinition
  | postgreSQL
  | mySQL
  | teiid
  | mongoDB
  | salesforce
  | h2SQL
  deriving DecidableEq, Repr

/-- What a data source connects with. -/
inductive ConnectionFactory
  | dataSource (url username password : Option String)
  | mongoDB (user password authDatabase database remoteServerList : Option String)
  | salesforce (clientId clientSecret refreshToken : Option String)
  deriving DecidableEq, Repr

/-- A data source, as the preview server has it. -/
structure TeiidDataSourceImpl where
  id : String
  name : String
  translatorName : String
  connectionFactory : ConnectionFactory
  importProperties : List (String × String)
  deriving DecidableEq, Repr

/-- The constructor; the name may not be empty. -/
def newTeiidDataSourceImpl (id : String) (name : Option String) (translatorName : String)
    (connectionFactory : ConnectionFactory) (importProperties : List (String × String)) :
    Except Failure TeiidDataSourceImpl :=
  match name with
  | none => .error (.illegalArgument "name")
  | some name =>
      if name = "" then .error (.illegalArgument "name")
      else if translatorName = "" then .error (.illegalArgument "translatorName")
      else .ok ⟨id, name, translatorName, connectionFactory, importProperties⟩

namespace DataSourceDefinition

/-- `getTranslatorName`: the translator of a definition. -/
def getTranslatorName : DataSourceDefinition → String
  | postgreSQL => "postgresql"
  | mySQL => "mysql5"
  | teiid => "teiid"
  | mongoDB => "mongodb"
  | salesforce => "salesforce"
  | h2SQL => "h2"

/-- The definitions of the program. -/
def all : List DataSourceDefinition := [postgreSQL, mySQL, teiid, mongoDB, salesforce, h2SQL]

/-- The method of the base class, which the SQL databases inherit. -/
def createSqlDatasource (definition : DataSourceDefinition) (deploymentName : Option String)
    (scd : DefaultSyndesisDataSource) : Except Failure TeiidDataSourceImpl :=
  let username :=
    match scd.getProperty "username" with
    | some username => some username
    | none => scd.getProperty "user"
  let schemaName :=
    match scd.getProperty "schema" with
    | some schema => [("importer.schemaName", schema)]
    | none => []
  newTeiidDataSourceImpl scd.syndesisConnectionId deploymentName definition.getTranslatorName
    (.dataSource (scd.getProperty "url") username (scd.getProperty "password"))
    (schemaName ++
      [("importer.TableTypes", "TABLE,VIEW"), ("importer.UseQualifiedName", "true"),
        ("importer.UseCatalogName", "false"), ("importer.UseFullSchemaName", "false")])

/-- `createDatasource`: the data source of a connection. -/
def createDatasource (definition : DataSourceDefinition) (deploymentName : Option String)
    (scd : DefaultSyndesisDataSource) : Except Failure TeiidDataSourceImpl :=
  match definition with
  | mongoDB =>
      newTeiidDataSourceImpl scd.syndesisConnectionId deploymentName definition.getTranslatorName
        (.mongoDB (scd.getProperty "user") (scd.getProperty "password") (scd.getProperty "adminDB")
          (scd.getProperty "database") (scd.getProperty "host"))
        []
  | salesforce =>
      newTeiidDataSourceImpl scd.syndesisConnectionId deploymentName definition.getTranslatorName
        (.salesforce (scd.getProperty "clientId") (scd.getProperty "clientSecret")
          (scd.getProperty "refreshToken"))
        [("includeExtensionMetadata", "true")]
  | _ => definition.createSqlDatasource deploymentName scd

/-- What the keys of the published properties begin with. -/
def keyStart : DataSourceDefinition → String
  | mongoDB => "spring.teiid.data.mongodb."
  | salesforce => "spring.teiid.data.salesforce."
  | _ => "spring.datasource."

/-- The key `ds` puts a property under. -/
def propertyKey (definition : DataSourceDefinition) (scd : DefaultSyndesisDataSource) (key : String) :
    String :=
  definition.keyStart ++ scd.teiidName.getD "null" ++ "." ++ key

/-- The calls of `ds` for an SQL database. -/
def sqlProperties (scd : DefaultSyndesisDataSource) : List (String × Option String) :=
  [("jdbc-url", scd.getProperty "url"), ("username", scd.getProperty "user"),
    ("password", scd.getProperty "password")] ++
  (match scd.getProperty "schema" with
    | some schema => [("importer.schemaName", some schema)]
    | none => []) ++
  [("maximumPoolSize", some "5"), ("minimumIdle", some "0")]

/-- The calls of `ds`, with key and value. -/
def properties (definition : DataSourceDefinition) (scd : DefaultSyndesisDataSource) :
    List (String × Option String) :=
  match definition with
  | mongoDB =>
      [("user", scd.getProperty "user"), ("password", scd.getProperty "password"),
        ("database", scd.getProperty "database"), ("authDatabase", scd.getProperty "adminDB"),
        ("remoteServerList", scd.getProperty "host")]
  | salesforce =>
      [("client-id", scd.getProperty "clientId"), ("client-secret", scd.getProperty "clientSecret"),
        ("refresh-token", scd.getProperty "refreshToken")]
  | _ => sqlProperties scd

/-- The map has no key twice, so it is the list of what has been put into it. -/
def getPublishedImageDataSourceProperties (definition : DataSourceDefinition)
    (scd : DefaultSyndesisDataSource) : List (String × Option String) :=
  (definition.properties scd).map fun entry => (definition.propertyKey scd entry.1, entry.2)

/-- `getDefinition` of a data source, whose translator was named after its definition. -/
def getDefinition (scd : DefaultSyndesisDataSource) : Option DataSourceDefinition :=
  all.find? fun definition => definition.getTranslatorName = scd.translatorName

/-! ## Keys -/

/-- No two definitions have one translator. -/
theorem getDefinition_eq {definition : DataSourceDefinition} {scd : DefaultSyndesisDataSource}
    (h : scd.translatorName = definition.getTranslatorName) :
    getDefinition scd = some definition := by
  unfold getDefinition
  rw [h]
  cases definition <;> rfl

/-- The keys of a definition, all of them. -/
def keys : DataSourceDefinition → List String
  | mongoDB => ["user", "password", "database", "authDatabase", "remoteServerList"]
  | salesforce => ["client-id", "client-secret", "refresh-token"]
  | _ =>
      ["jdbc-url", "username", "password", "importer.schemaName", "maximumPoolSize", "minimumIdle"]

/-- Every definition publishes its keys, in this order; only the schema may be left out. -/
theorem sublist_keys (definition : DataSourceDefinition) (scd : DefaultSyndesisDataSource) :
    ((definition.properties scd).map (·.1)).Sublist definition.keys := by
  have hsql : ((sqlProperties scd).map (·.1)).Sublist (keys .postgreSQL) := by
    unfold sqlProperties
    cases scd.getProperty "schema" with
    | none =>
        show ["jdbc-url", "username", "password", "maximumPoolSize", "minimumIdle"].Sublist _
        decide
    | some schema => exact List.Sublist.refl _
  cases definition with
  | mongoDB => exact List.Sublist.refl _
  | salesforce => exact List.Sublist.refl _
  | _ => exact hsql

/-- Different properties have different keys. -/
theorem propertyKey_injective (definition : DataSourceDefinition) (scd : DefaultSyndesisDataSource) :
    Function.Injective (definition.propertyKey scd) := by
  intro key key' h
  exact String.append_right_inj _ |>.mp h

/-- No key is put twice. -/
theorem nodup_published (definition : DataSourceDefinition) (scd : DefaultSyndesisDataSource) :
    ((definition.getPublishedImageDataSourceProperties scd).map (·.1)).Nodup := by
  have hkeys : ((definition.properties scd).map (·.1)).Nodup := by
    refine List.Nodup.sublist (definition.sublist_keys scd) ?_
    cases definition <;> decide
  unfold getPublishedImageDataSourceProperties
  rw [List.map_map]
  show ((definition.properties scd).map (definition.propertyKey scd ∘ Prod.fst)).Nodup
  rw [← List.map_map]
  exact hkeys.map (definition.propertyKey_injective scd)

end DataSourceDefinition

/-! ## The preview and the published image -/

/-- The settings of a data source, under the keys a published image has for them. -/
def TeiidDataSourceImpl.settings (tds : TeiidDataSourceImpl) : List (String × Option String) :=
  match tds.connectionFactory with
  | .dataSource url username password =>
      [("jdbc-url", url), ("username", username), ("password", password),
        ("importer.schemaName", tds.importProperties.lookup "importer.schemaName")]
  | .mongoDB user password authDatabase database remoteServerList =>
      [("user", user), ("password", password), ("authDatabase", authDatabase),
        ("database", database), ("remoteServerList", remoteServerList)]
  | .salesforce clientId clientSecret refreshToken =>
      [("client-id", clientId), ("client-secret", clientSecret), ("refresh-token", refreshToken)]

namespace DataSourceDefinition

/-- What is published for a setting, if anything is. -/
def publishedValue (definition : DataSourceDefinition) (scd : DefaultSyndesisDataSource)
    (key : String) : Option String :=
  ((definition.getPublishedImageDataSourceProperties scd).lookup (definition.propertyKey scd key)).join

/-- Each setting of the preview data source is published with its value. -/
def SameSettings (definition : DataSourceDefinition) (scd : DefaultSyndesisDataSource)
    (tds : TeiidDataSourceImpl) : Prop :=
  ∀ setting ∈ tds.settings, definition.publishedValue scd setting.1 = setting.2

/-- The value under a key is that of its property. -/
theorem publishedValue_eq (definition : DataSourceDefinition) (scd : DefaultSyndesisDataSource)
    (key : String) :
    definition.publishedValue scd key = ((definition.properties scd).lookup key).join := by
  unfold publishedValue getPublishedImageDataSourceProperties
  rw [lookup_map_key (definition.propertyKey_injective scd)]

/-- A data source is made exactly if its name is not empty. -/
theorem newTeiidDataSourceImpl_eq_ok {id translatorName : String} {name : Option String}
    {connectionFactory : ConnectionFactory} {importProperties : List (String × String)}
    {tds : TeiidDataSourceImpl}
    (h : newTeiidDataSourceImpl id name translatorName connectionFactory importProperties = .ok tds) :
    name = some tds.name ∧ tds.name ≠ "" ∧ tds.connectionFactory = connectionFactory ∧
      tds.importProperties = importProperties := by
  unfold newTeiidDataSourceImpl at h
  split at h
  · cases h
  · split at h
    · cases h
    · rename_i hname
      split at h
      · cases h
      · cases h
        exact ⟨rfl, hname, rfl, rfl⟩

/-- The user name is the one setting of an SQL database that is read from two keys in the preview. -/
theorem sameSettings_sql {definition : DataSourceDefinition} {scd : DefaultSyndesisDataSource}
    {tds : TeiidDataSourceImpl} (hsql : definition.properties scd = sqlProperties scd)
    (h : definition.createSqlDatasource scd.teiidName scd = .ok tds) :
    definition.SameSettings scd tds ↔
      scd.getProperty "username" = none ∨ scd.getProperty "username" = scd.getProperty "user" := by
  obtain ⟨-, -, hfactory, himport⟩ := newTeiidDataSourceImpl_eq_ok h
  have hurl : definition.publishedValue scd "jdbc-url" = scd.getProperty "url" := by
    rw [publishedValue_eq, hsql]
    rfl
  have huser : definition.publishedValue scd "username" = scd.getProperty "user" := by
    rw [publishedValue_eq, hsql]
    rfl
  have hpassword : definition.publishedValue scd "password" = scd.getProperty "password" := by
    rw [publishedValue_eq, hsql]
    rfl
  have hschema : definition.publishedValue scd "importer.schemaName" =
      tds.importProperties.lookup "importer.schemaName" := by
    rw [publishedValue_eq, hsql, himport]
    unfold sqlProperties
    cases scd.getProperty "schema" with
    | none => rfl
    | some schema => rfl
  unfold SameSettings TeiidDataSourceImpl.settings
  rw [hfactory]
  simp only [List.forall_mem_cons, List.not_mem_nil, false_implies, implies_true, and_true, hurl,
    huser, hpassword, hschema, true_and]
  cases scd.getProperty "username" with
  | none => simp
  | some username => simp [eq_comm]

/-- The preview and the published image use the same settings, except that for an SQL database only
the preview uses a property `username`. -/
theorem sameSettings_iff {definition : DataSourceDefinition} {scd : DefaultSyndesisDataSource}
    {tds : TeiidDataSourceImpl} (h : definition.createDatasource scd.teiidName scd = .ok tds) :
    definition.SameSettings scd tds ↔
      definition = mongoDB ∨ definition = salesforce ∨ scd.getProperty "username" = none ∨
        scd.getProperty "username" = scd.getProperty "user" := by
  -- the SQL definitions are one argument, the other two publish what they set
  cases definition with
  | mongoDB =>
      obtain ⟨-, -, hfactory, -⟩ := newTeiidDataSourceImpl_eq_ok h
      refine iff_of_true ?_ (.inl rfl)
      unfold SameSettings TeiidDataSourceImpl.settings
      rw [hfactory]
      simp only [List.forall_mem_cons, publishedValue_eq]
      exact ⟨rfl, rfl, rfl, rfl, rfl, nofun⟩
  | salesforce =>
      obtain ⟨-, -, hfactory, -⟩ := newTeiidDataSourceImpl_eq_ok h
      refine iff_of_true ?_ (.inr (.inl rfl))
      unfold SameSettings TeiidDataSourceImpl.settings
      rw [hfactory]
      simp only [List.forall_mem_cons, publishedValue_eq]
      exact ⟨rfl, rfl, rfl, nofun⟩
  | postgreSQL => simpa using sameSettings_sql rfl h
  | mySQL => simpa using sameSettings_sql rfl h
  | teiid => simpa using sameSettings_sql rfl h
  | h2SQL => simpa using sameSettings_sql rfl h

/-- A connection to a PostgreSQL database. -/
def ordersSource (properties : List (String × String)) : DefaultSyndesisDataSource :=
  { object := 0
    syndesisConnectionId := "i-1"
    syndesisName := "orders"
    teiidName := some "orders"
    translatorName := "postgresql"
    properties := properties }

def ordersProperties : List (String × String) :=
  [("url", "jdbc:postgresql://db/orders"), ("user", "app"), ("password", "secret"),
    ("schema", "public")]

theorem sameSettings_iff_orders :
    ∃ tds, createDatasource .postgreSQL (some "orders") (ordersSource ordersProperties) = .ok tds ∧
      SameSettings .postgreSQL (ordersSource ordersProperties) tds := by
  have hcreate : ∃ tds,
      createDatasource .postgreSQL (some "orders") (ordersSource ordersProperties) = .ok tds :=
    ⟨_, rfl⟩
  obtain ⟨tds, h⟩ := hcreate
  exact ⟨tds, h, (sameSettings_iff h).mpr (.inr (.inr (.inl rfl)))⟩

/-- With a property `username` the preview logs in, and the published image is given no user name. -/
theorem username_not_published :
    ¬∀ (definition : DataSourceDefinition) (scd : DefaultSyndesisDataSource) (tds : TeiidDataSourceImpl),
      definition.createDatasource scd.teiidName scd = .ok tds → definition.SameSettings scd tds := by
  intro h
  have hsame := h .postgreSQL
    (ordersSource [("url", "jdbc:postgresql://db/orders"), ("username", "app"), ("password", "secret")])
    _ rfl
  have huser := hsame ("username", some "app") (by decide)
  cases huser

end DataSourceDefinition

end TeiidSyndesis.Datasources
