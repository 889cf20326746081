/-
# TeiidSyndesis.Model.Entities — the stored entities and the Teiid metadata they are made from.

`ViewDefinition`, `DataVirtualization` and `SourceSchema` are rows of the store and, for views, also
the body of an upsert request.  Teiid itself is outside the repository: its metadata objects are
plain records, and the functions of its library and of the database's collation are the fields of
`Teiid`, on which every operation is parametrised.

Identifiers are numbers: a row gets the next one when it is inserted, as it gets a new UUID in the
source.  Creation and modification times are read by no function modelled here.
-/
import Mathlib.Algebra.GroupWithZero.Nat
import Mathlib.Data.List.Basic

namespace TeiidSyndesis.Model

/-! ## Rows of the store -/

/-- `ViewDefinition`; in a request `id` and `version` may be missing. -/
structure ViewDefinition where
  id : Option Nat := none
  name : String
  dataVirtualizationName : String
  ddl : Option String := none
  description : Option String := none
  complete : Bool := false
  userDefined : Bool := false
  parsable : Bool := false
  sourcePaths : List String := []
  version : Option Nat := none
  deriving DecidableEq, Repr

structure DataVirtualization where
  id : Nat
  name : String
  description : Option String := none
  version : Nat := 0
  deriving DecidableEq, Repr

/-- `SourceSchema`, which shares its table, and so its unique names, with the virtualizations. -/
structure SourceSchema where
  id : Nat
  name : String
  sourceId : String
  ddl : Option String := none
  deriving DecidableEq, Repr

/-- The name of the preview VDB of a virtualization. -/
def getPreviewVdbName (name : String) : String := name ++ "vdb"

/-- The name of the main preview VDB. -/
def previewVdb : String := "Preview"

/-- The suffix of the VDBs of connections. -/
def connectionVdbSuffix : String := "conn"

/-! ## Teiid metadata -/

structure Column where
  name : String
  deriving DecidableEq, Repr

structure KeyRecord where
  primary : Bool
  columns : List Column
  deriving DecidableEq, Repr

structure Table where
  name : String
  annotation : Option String := none
  columns : List Column := []
  primaryKey : Option KeyRecord := none
  uniqueKeys : List KeyRecord := []
  deriving DecidableEq, Repr

structure Schema where
  name : String
  tables : List Table := []
  procedures : List String := []
  functions : List String := []
  deriving DecidableEq, Repr

/-- What parsing a DDL text yields: the objects it defines and the exception that stopped it. -/
structure ValidationResult where
  schema : Schema
  metadataException : Option String := none
  deriving DecidableEq, Repr

/-- A registered data source. -/
structure TeiidDataSource where
  name : String
  translatorName : String
  syndesisId : String
  /-- the properties of the connection it was created from -/
  properties : List (String × String) := []
  deriving DecidableEq, Repr

/-- An object a view reads from, as the deployed preview VDB resolved it. -/
inductive IncomingObject
  | table (schema : String) (physical system : Bool) (name : String)
  | other
  deriving DecidableEq, Repr

/-! ## VDBs -/

structure ModelMetaData where
  name : String
  physical : Bool := false
  visible : Bool := true
  ddl : String
  /-- source name, translator and JNDI name of each mapping -/
  sourceMappings : List (String × String × String) := []
  deriving DecidableEq, Repr

/-- `VDBMetaData`, with the properties the program sets. -/
structure VDBMetaData where
  name : String
  models : List ModelMetaData := []
  imports : List String := []
  /-- property `preview` -/
  preview : Bool := false
  /-- the version of the virtualization a preview VDB was made for -/
  versionProperty : Option Nat := none
  deriving DecidableEq, Repr

/-- Functions of the Teiid library and of the collation names are compared in. -/
structure Teiid where
  /-- `SQLStringVisitor.escapeSinglePart` -/
  escapeSinglePart : String → String
  /-- `FullyQualifiedName` of a table of a schema -/
  fullyQualifiedName : String → String → String
  /-- `MetadataInstance.parse` -/
  parse : String → ValidationResult
  /-- `DDLStringVisitor.getDDLString` of the tables of a schema whose name matches -/
  getDDLString : String → String → String
  toUpperCase : String → String
  equalsIgnoreCase : String → String → Bool
  /-- `ModelMetaData.getReservedNames` -/
  reservedNames : List String

/-- Upper case of ASCII letters. -/
def asciiUpperCase (name : String) : String :=
  String.ofList (name.toList.map fun c =>
    if 'a' ≤ c ∧ c ≤ 'z' then Char.ofNat (c.toNat - 32) else c)

/-- A name of ASCII letters and digits stands as it is, any other one in double quotes. -/
def escapeAscii (name : String) : String :=
  if name.toList.all fun c => decide ('a' ≤ c ∧ c ≤ 'z' ∨ 'A' ≤ c ∧ c ≤ 'Z' ∨ '0' ≤ c ∧ c ≤ '9') then
    name
  else
    "\"" ++ String.ofList (name.toList.flatMap fun c => if c = '"' then ['"', '"'] else [c]) ++ "\""

/-- Teiid as it is on ASCII names that are no reserved words, for one parser. -/
def Teiid.ascii (parse : String → ValidationResult) : Teiid where
  escapeSinglePart := escapeAscii
  fullyQualifiedName schema table := "schema=" ++ schema ++ "/table=" ++ table
  parse := parse
  getDDLString _ _ := ""
  toUpperCase := asciiUpperCase
  equalsIgnoreCase a b := asciiUpperCase a == asciiUpperCase b
  reservedNames := ["SYS", "SYSADMIN", "INFORMATION_SCHEMA", "pg_catalog"]

/-- Tables are kept in a map that ignores the case of names. -/
def Schema.getTable (teiid : Teiid) (schema : Schema) (name : String) : Option Table :=
  schema.tables.find? fun table => teiid.equalsIgnoreCase table.name name

/-! ## Lengths -/

/-- The UTF-16 units of a character. -/
def utf16Units (c : Char) : Nat := if c.toNat < 0x10000 then 1 else 2

/-- `String.length` -/
def utf16Length (text : String) : Nat := (text.toList.map utf16Units).sum

/-! ## Failures -/

/-- How an operation ends when it does not return. -/
inductive Failure
  | notFound (what : String)
  | conflict (message : Option String)
  | forbidden (message : String)
  | illegalArgument (message : String)
  | kException (message : String)
  | assertionError (message : String)
  | dataIntegrityViolation
  /-- what is null where it is dereferenced -/
  | nullPointer (what : String)
  | indexOutOfBounds
  | noSuchElement
  deriving DecidableEq, Repr

end TeiidSyndesis.Model
