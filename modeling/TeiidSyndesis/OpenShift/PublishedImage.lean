/-
# TeiidSyndesis.OpenShift.PublishedImage — what is generated for the data sources of an image.

`configureBuild` gives every source of the VDB a JNDI name, writes a Java class for it from one of three
templates, and collects the settings of the data sources twice: as a secret, and as environment variables
that refer to its keys.
-/
import TeiidSyndesis.Datasources.Definitions
import TeiidSyndesis.Library.Base64
import TeiidSyndesis.Library.LinkedMap
import TeiidSyndesis.Model.JavaText
import TeiidSyndesis.OpenShift.Lifecycle

namespace TeiidSyndesis.OpenShift

open TeiidSyndesis.Datasources TeiidSyndesis.Library TeiidSyndesis.Model

/-! ## Java classes -/

/-- The name `normalizeDataSourceNames` makes of the name of a source. -/
def normalizedName (java : JavaText) (name : String) : String := removeHyphens (java.toLowerCase name)

def normalizeDataSourceNames (java : JavaText) (vdb : VDBMetaData) : VDBMetaData :=
  { vdb with
    models := vdb.models.map fun model =>
      { model with
        sourceMappings := model.sourceMappings.map fun (name, translatorName, _) =>
          (name, translatorName, normalizedName java name) } }

/-- A part of a template. -/
inductive Piece
  | text (text : String)
  | packageName
  | dsName
  deriving DecidableEq, Repr

/-- The templates, from the line of the package on. -/
abbrev Template := List Piece

def jdbcTemplate : Template :=
  [.text "package ", .packageName,
    .text (";\n\nimport javax.sql.DataSource;\n\n" ++
      "import org.springframework.boot.jdbc.DataSourceBuilder;\n" ++
      "import org.springframework.boot.context.properties.ConfigurationProperties;\n" ++
      "import org.springframework.context.annotation.Bean;\n" ++
      "import org.springframework.context.annotation.Configuration;\n\n" ++
      "@Configuration\npublic class DataSources"), .dsName,
    .text " \x7b\n\n    @ConfigurationProperties(prefix = \"spring.datasource.", .dsName,
    .text "\")\n    @Bean(name=\"", .dsName,
    .text "\")\n    public DataSource ", .dsName,
    .text "() \x7b\n        return DataSourceBuilder.create().build();\n    \x7d\n\x7d\n"]

def mongoDBTemplate : Template :=
  [.text "package ", .packageName,
    .text (";\n\nimport org.springframework.beans.factory.annotation.Autowired;\n" ++
      "import org.springframework.beans.factory.annotation.Qualifier;\n" ++
      "import org.springframework.boot.context.properties.ConfigurationProperties;\n" ++
      "import org.springframework.context.annotation.Bean;\n" ++
      "import org.springframework.context.annotation.Configuration;\n" ++
      "import org.teiid.spring.data.mongodb.MongoDBTemplate;\n" ++
      "import org.teiid.spring.data.mongodb.MongoDBConfiguration;\n" ++
      "import org.teiid.spring.data.mongodb.MongoDBConnectionFactory;\n" ++
      "import org.springframework.boot.autoconfigure.EnableAutoConfiguration;\n" ++
      "import org.springframework.boot.autoconfigure.mongo.MongoAutoConfiguration;\n\n" ++
      "@Configuration\n@EnableAutoConfiguration(exclude = \x7bMongoAutoConfiguration.class\x7d)\n" ++
      "public class DataSources"), .dsName,
    .text " \x7b\n\n    @Bean(name=\"", .dsName,
    .text "\")\n    @Autowired\n    public MongoDBConnectionFactory ", .dsName,
    .text "(@Qualifier(\"", .dsName,
    .text ("-config\") MongoDBConfiguration config) \x7b\n" ++
      "        MongoDBTemplate template = new MongoDBTemplate(config);\n" ++
      "        return new MongoDBConnectionFactory(template);\n    \x7d\n\n    @Bean(name=\""), .dsName,
    .text "-config\")\n    @ConfigurationProperties(\"spring.teiid.data.mongodb.", .dsName,
    .text ("\")\n    public MongoDBConfiguration mongoConfig() \x7b\n" ++
      "        return new MongoDBConfiguration();\n    \x7d\n\x7d\n")]

def salesforceTemplate : Template :=
  [.text "package ", .packageName,
    .text (";\n\nimport org.springframework.beans.factory.annotation.Autowired;\n" ++
      "import org.springframework.beans.factory.annotation.Qualifier;\n" ++
      "import org.springframework.boot.context.properties.ConfigurationProperties;\n" ++
      "import org.springframework.context.annotation.Bean;\n" ++
      "import org.springframework.context.annotation.Configuration;\n" ++
      "import org.teiid.spring.data.salesforce.SalesforceConfiguration;\n" ++
      "import org.teiid.spring.data.salesforce.SalesforceConnectionFactory;\n\n" ++
      "@Configuration\npublic class DataSources"), .dsName,
    .text " \x7b\n\n    @Bean(name=\"", .dsName,
    .text "\")\n    @Autowired\n    public SalesforceConnectionFactory ", .dsName,
    .text "(@Qualifier(\"", .dsName,
    .text ("-config\") SalesforceConfiguration config) \x7b\n" ++
      "        return new SalesforceConnectionFactory(config);\n    \x7d\n\n    @Bean(name=\""), .dsName,
    .text "-config\")\n    @ConfigurationProperties(\"spring.teiid.data.salesforce.", .dsName,
    .text ("\")\n    public SalesforceConfiguration salesforceConfig() \x7b\n" ++
      "        return new SalesforceConfiguration();\n    \x7d\n\x7d\n")]

def templateOf (translatorName : String) : Template :=
  if translatorName = "salesforce" then salesforceTemplate
  else if translatorName = "mongodb" then mongoDBTemplate
  else jdbcTemplate

def fill (replacement : String) : Template → String
  | [] => ""
  | .text text :: pieces => text ++ fill replacement pieces
  | .packageName :: pieces => "io.integration" ++ fill replacement pieces
  | .dsName :: pieces => replacement ++ fill replacement pieces

/-- Where the class of a source stands in the archive. -/
def builderPath (replacement : String) : String :=
  "/src/main/java/io/integration/DataSources" ++ replacement ++ ".java"

/-- The files `buildDataSourceBuilders` adds for a model. -/
def dataSourceBuilders (model : ModelMetaData) : List (String × String) :=
  model.sourceMappings.map fun (_, translatorName, replacement) =>
    (builderPath replacement, fill replacement (templateOf translatorName))

/-- A file takes the place of one that has its path. -/
abbrev Archive := LinkedMap (Prod.fst : String × String → String)

def buildDataSourceBuilders (model : ModelMetaData) (archive : Archive) : Archive :=
  (dataSourceBuilders model).foldl LinkedMap.put archive

/-! ## EncryptionComponent -/

/-- The decryption of the text encryptor, if there is one; it returns or raises. -/
structure EncryptionComponent where
  textEncryptor : Option (String → Option String)

def startsWith (text start : String) : Bool := start.toList.isPrefixOf text.toList

/-- `ENCRYPTED_PREFIX` -/
def encryptedStart : String := "»ENC:"

/-- `stripPrefix` -/
def strip (value start : String) : String :=
  if startsWith value start then String.ofList (value.toList.drop start.toList.length) else value

def EncryptionComponent.decrypt (encryption : EncryptionComponent) (value : Option String) :
    Except Failure (Option String) :=
  match value with
  | none => .ok none
  | some result =>
      if startsWith result encryptedStart then
        match encryption.textEncryptor with
        | none => .error (.kException "cannot decrypt")
        | some enc =>
            match enc (strip result encryptedStart) with
            | some plain => .ok (some plain)
            | none => .error (.kException "cannot decrypt")
      else .ok (some result)

/-! ## Data sources of a VDB -/

/-- `getSyndesisDataSource` on the data sources and the cache of the moment, with what Syndesis answers
for a connection that is not cached. -/
def Synchronizer.getSyndesisDataSource (s : Synchronizer)
    (remote : String → Except Failure RemoteConnection) (dsName : String) :
    Except Failure (Option DefaultSyndesisDataSource) :=
  match s.datasources.lookup dsName with
  | none => .ok none
  | some tds =>
      match s.cached tds.syndesisId with
      | some source => .ok (some source)
      | none => do
          let root ← remote tds.syndesisId
          let (_, source) ← s.buildSyndesisDataSource root
          pure source

/-- The names of the sources, model by model. -/
def sourceNames (vdb : VDBMetaData) : List String :=
  vdb.models.flatMap fun model => model.sourceMappings.map (·.1)

/-- How a look-up of data sources ends. -/
abbrev Lookup := String → Except Failure (Option DefaultSyndesisDataSource)

/-- What both loops do first with a source. -/
def definedSource (getSyndesisDataSource : Lookup) (vdb : VDBMetaData) (source : String) :
    Except Failure (DataSourceDefinition × DefaultSyndesisDataSource) := do
  match ← getSyndesisDataSource source with
  | none => .error (.kException ("Datasource " ++ source ++ " not found in Syndesis"))
  | some ds =>
      match DataSourceDefinition.getDefinition ds with
      | none =>
          .error (.kException
            ("Failed to determine the source type for " ++ source ++ " in VDB " ++ vdb.name))
      | some definition => pure (definition, ds)

/-! ## Secrets -/

abbrev Secrets := LinkedMap (Prod.fst : String × String → String)

/-- The default charset of the JVM, which `getBytes()` uses: the bytes of a text, and the text of bytes. -/
structure Charset where
  getBytes : String → List UInt8
  text : List UInt8 → Option String

namespace Charset

/-- Every text can be read off its bytes. -/
def Lossless (charset : Charset) : Prop := ∀ plain, charset.text (charset.getBytes plain) = some plain

def utf8 : Charset where
  getBytes plain := plain.toUTF8.data.toList
  text bytes := String.fromUTF8? ⟨bytes.toArray⟩

theorem lossless_utf8 : utf8.Lossless := by
  intro plain
  have hvalid : (ByteArray.mk plain.toByteArray.data.toList.toArray).IsValidUTF8 := by
    rw [Array.toArray_toList]
    exact plain.isValidUTF8
  show String.fromUTF8? ⟨plain.toByteArray.data.toList.toArray⟩ = some plain
  unfold String.fromUTF8?
  rw [dif_pos hvalid]
  rfl

end Charset

/-- `Base64.getEncoder().encodeToString(plain.getBytes())` -/
def encodeSecret (charset : Charset) (plain : String) : String :=
  String.ofList (Base64.encode (charset.getBytes plain))

/-- The plain text of a secret. -/
def decodeSecret (charset : Charset) (secret : String) : Option String :=
  (Base64.decode secret.toList).bind charset.text

/-- The loop over the properties of a data source. -/
def putSecrets (charset : Charset) (encryption : EncryptionComponent) :
    List (String × Option String) → Secrets → Except Failure Secrets
  | [], properties => .ok properties
  | (key, value) :: config, properties => do
      match ← encryption.decrypt value with
      | none => .error (.nullPointer "decrypt")
      | some plain =>
          putSecrets charset encryption config (properties.put (key, encodeSecret charset plain))

def getSecretVariablesForVDBDataSources (charset : Charset) (encryption : EncryptionComponent)
    (getSyndesisDataSource : Lookup) (vdb : VDBMetaData) : Except Failure Secrets :=
  (sourceNames vdb).foldlM
    (fun properties source => do
      let (definition, ds) ← definedSource getSyndesisDataSource vdb source
      putSecrets charset encryption (definition.getPublishedImageDataSourceProperties ds) properties)
    LinkedMap.empty

/-! ## Environment variables -/

structure EnvVar where
  name : String
  value : Option String
  /-- key and name of the secret the value is taken from -/
  secretKeyRef : Option (String × String)
  deriving DecidableEq, Repr

/-- The text of an environment variable before it is put in upper case. -/
def envText (key : String) : String :=
  String.ofList ((removeHyphens key).toList.map fun c => if c = '.' then '_' else c)

def envName (java : JavaText) (key : String) : String := java.toUpperCase (envText key)

def env (name value : String) : EnvVar := { name := name, value := some value, secretKeyRef := none }

def envFromSecret (java : JavaText) (secret key : String) : EnvVar :=
  { name := envName java key, value := none, secretKeyRef := some (key, secret) }

structure PublishConfiguration where
  cpuUnits : Nat := 500
  deriving DecidableEq, Repr

namespace PublishConfiguration

def cpuLimit (config : PublishConfiguration) : Nat := max (config.cpuUnits / 1000) 1

def getUserJavaOptions (config : PublishConfiguration) : String :=
  " -XX:+UnlockExperimentalVMOptions -XX:+UseCGroupMemoryLimitForHeap" ++
    " -Djava.net.preferIPv4Addresses=true -Djava.net.preferIPv4Stack=true" ++
    " -XX:ParallelGCThreads=" ++ toString config.cpuLimit ++
    " -XX:ConcGCThreads=" ++ toString config.cpuLimit ++
    " -Djava.util.concurrent.ForkJoinPool.common.parallelism=" ++ toString config.cpuLimit ++
    " -Dio.netty.eventLoopThreads=" ++ toString (2 * config.cpuLimit) ++
    " -Dorg.teiid.hiddenMetadataResolvable=false -Dorg.teiid.allowAlter=false"

def getUserEnvironmentVariables : List (String × String) := [("GC_MAX_METASPACE_SIZE", "256")]

end PublishConfiguration

def getEnvironmentVariablesForVDBDataSources (java : JavaText) (getSyndesisDataSource : Lookup)
    (vdb : VDBMetaData) (publishConfig : PublishConfiguration) (openShiftName : String) :
    Except Failure (List EnvVar) := do
  let envs ← (sourceNames vdb).foldlM
    (fun envs source => do
      let (definition, ds) ← definedSource getSyndesisDataSource vdb source
      pure (envs ++ (definition.getPublishedImageDataSourceProperties ds).map fun entry =>
        envFromSecret java (secretName openShiftName) entry.1))
    []
  pure (envs ++
    PublishConfiguration.getUserEnvironmentVariables.map (fun entry => env entry.1 entry.2) ++
    [env "VDB_FILE" (vdb.name ++ "-vdb.xml"), env "JAVA_OPTIONS" publishConfig.getUserJavaOptions])

end TeiidSyndesis.OpenShift
