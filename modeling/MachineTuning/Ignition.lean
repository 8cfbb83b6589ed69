import MachineTuning.DataUri
import MachineTuning.Profile
import MachineTuning.Schema
import MachineTuning.UnitFile.Tuning

namespace MachineTuning.Ignition

/-!
# Ignition documents — files and services that a node installs at boot

A document has a version, files with embedded content and services.  `Document.forProfile`
puts the tuning scripts and the two services that run them into one.
-/

/-- A file that is written to a node. -/
structure File where
  filesystem : String
  path : String
  /-- The content, as a data URI. -/
  source : String
  /-- The permission bits. -/
  mode : Option UInt32
  deriving DecidableEq

/-- A service that is installed on a node. -/
structure Service where
  name : String
  enabled : Option Bool
  contents : Option String
  deriving DecidableEq

/-- An ignition document. -/
structure Document where
  version : String
  files : List File := []
  services : List Service := []
  deriving DecidableEq

/-! ### Document form -/

/-- A record with one text member. -/
def oneText (recordName key : String) : Schema String :=
  .record recordName "" <| .cons key true .text (fun s => s) (fun s _ => s) .nil

/-- A record with one list member, which may be missing. -/
def oneList {α : Type} (recordName key : String) (item : Schema α) : Schema (List α) :=
  .record recordName [] <| .cons key false (.list item) (fun l => l) (fun l _ => l) .nil

/-- A file that is written to a node. -/
def File.schema : Schema File :=
  .record "File" ⟨"", "", "", none⟩ <|
    .cons "filesystem" true .text File.filesystem
      (fun filesystem f => { f with filesystem }) <|
    .cons "path" true .text File.path (fun path f => { f with path }) <|
    .cons "contents" true (oneText "FileContents" "source") File.source
      (fun source f => { f with source }) <|
    .cons "mode" false (.optional .uint32) File.mode (fun mode f => { f with mode }) .nil

/-- A service that is installed on a node. -/
def Service.schema : Schema Service :=
  .record "Unit" ⟨"", none, none⟩ <|
    .cons "name" true .text Service.name (fun name s => { s with name }) <|
    .cons "enabled" false (.optional .flag) Service.enabled
      (fun enabled s => { s with enabled }) <|
    .cons "contents" false (.optional .text) Service.contents
      (fun contents s => { s with contents }) .nil

/-- An ignition document. -/
def Document.schema : Schema Document :=
  .record "IgnitionConfig" ⟨"", [], []⟩ <|
    .cons "ignition" true (oneText "Ignition" "version") Document.version
      (fun version d => { d with version }) <|
    .cons "storage" true (oneList "Storage" "files" File.schema) Document.files
      (fun files d => { d with files }) <|
    .cons "systemd" true (oneList "Systemd" "units" Service.schema) Document.services
      (fun services d => { d with services }) .nil

/-! ### Building -/

/-- The version of the documents built here. -/
def version : String := "2.2.0"

/-- The filesystem that scripts are written to. -/
def rootFilesystem : String := "root"

/-- The permission bits of an installed script: all for the owner, none for others. -/
def scriptMode : UInt32 := 0o700

namespace Document

/-- The document without files and services. -/
def new (version : String) : Document := ⟨version, [], []⟩

/-- The document with a file added behind the others. -/
def addFile (d : Document) (file : File) : Document :=
  { d with files := d.files ++ [file] }

/-- The document with a service added behind the others. -/
def addService (d : Document) (service : Service) : Document :=
  { d with services := d.services ++ [service] }

/-- The first file at a path. -/
def file? (d : Document) (path : String) : Option File :=
  d.files.find? (·.path = path)

/-- The first service of a name. -/
def service? (d : Document) (name : String) : Option Service :=
  d.services.find? (·.name = name)

end Document

/-- The installed form of a script. -/
def File.ofScript (script : String) (content : List UInt8) : File :=
  ⟨rootFilesystem, Script.installPath script, DataUri.encode content, some scriptMode⟩

/-- The enabled service with these directives. -/
def Service.ofDirectives (script : String) (directives : List Directive) : Service :=
  ⟨Script.serviceName script, some true, some (UnitFile.text directives)⟩

/-- The document that installs these scripts and the services that run them. -/
def Document.forProfile (p : Profile) (scripts : List (String × List UInt8)) : Document :=
  ⟨Ignition.version, scripts.map fun s => File.ofScript s.1 s.2,
    (UnitFile.tuning p.spec.cpus.housekeeping).map fun u => Service.ofDirectives u.1 u.2⟩

end MachineTuning.Ignition
