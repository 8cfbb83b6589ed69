import MachineTuning.Assets
import MachineTuning.Command.Invocation
import MachineTuning.Command.Log.Filter
import MachineTuning.Profile.Load
import MachineTuning.Yaml.Printer

namespace MachineTuning.Command

/-!
# Runs — what the program prints

An action prints piece by piece, up to the first piece that cannot be made: `Action.transcript` is
what it printed and the failure that ended it, if one did.  `Action.events` is what it tells on the
way.  `outcome` puts both together for a command line; the log goes where the errors go, so what is
printed does not depend on it.
-/

/-! ### What is printed -/

/-- A failure and what was being done. -/
structure RunFailure where
  context : Option String := none
  failure : Failure
  deriving DecidableEq

/-- What was printed, and the failure that ended it, if one did. -/
structure Transcript where
  printed : String := ""
  failure : Option RunFailure := none
  deriving DecidableEq

/-- Pieces are printed one by one, up to the first that cannot be made. -/
def Transcript.ofPieces : List (Except RunFailure String) → Transcript
  | [] => {}
  | .error f :: _ => { failure := some f }
  | .ok piece :: pieces =>
    let rest := ofPieces pieces
    { rest with printed := piece ++ rest.printed }

/-- The kernel command line in pieces: on one line, or an argument a line. -/
def kernelArgumentsPieces (oneLine : Bool) (arguments : List String) : List String :=
  if oneLine then [" ".intercalate arguments ++ "\n"] else arguments.map (· ++ "\n")

/-- The services that are shown, each with its script. -/
def shownServices (housekeeping : String) : List (String × List Directive) :=
  [(Script.preBootTuning, UnitFile.preBootTuning housekeeping), (Script.reboot, UnitFile.reboot)]

/-- A service in pieces: its name in a comment, then its unit file as it is rendered. -/
def servicePieces (service : String × List Directive) : List (Except RunFailure String) :=
  [.ok ("# " ++ Script.serviceName service.1 ++ "\n"),
    (UnitFile.render service.2).mapError fun fault => ⟨none, .ofFault fault⟩]

/-- Services in pieces, with an empty line between two of them. -/
def servicesPieces : List (String × List Directive) → List (Except RunFailure String)
  | [] => []
  | service :: services =>
    servicePieces service ++ services.flatMap fun next => .ok "\n" :: servicePieces next

/-- A configuration as a document. -/
def configText (format : Format) (c : MachineConfig) : String :=
  let document := MachineConfig.schema.toJson c
  match format with
  | .yaml => Yaml.print document
  | .json => document.pretty ++ "\n"

/-- What was being done when a configuration could not be built. -/
def renderContext (p : Profile) (assets : String) : String :=
  "Failed to render profile '" ++ p.name ++ "' with assets from " ++ assets

namespace Action

/-- The path of the profile. -/
def profilePath : Action → String
  | .render profile _ _ => profile
  | .kernelArguments profile _ => profile
  | .units profile => profile

/-- The pieces that an action prints for a profile. -/
def piecesFor (fs : FileSystem) (p : Profile) : Action → List (Except RunFailure String)
  | .render _ assets format =>
    [((MachineConfig.build fs assets p).map (configText format)).mapError
      (⟨some (renderContext p assets), ·⟩)]
  | .kernelArguments _ oneLine =>
    (kernelArgumentsPieces oneLine (Kernel.argumentsFor p)).map .ok
  | .units _ => servicesPieces (shownServices p.spec.cpus.housekeeping)

/-- What an action printed for a profile, and how it ended. -/
def transcriptFor (fs : FileSystem) (p : Profile) (a : Action) : Transcript :=
  .ofPieces (a.piecesFor fs p)

/-- What an action printed, and how it ended.  First of all the profile is loaded. -/
def transcript (fs : FileSystem) (a : Action) : Transcript :=
  match Profile.load fs a.profilePath with
  | .ok p => a.transcriptFor fs p
  | .error failure => { failure := some ⟨none, failure⟩ }

/-! ### What is told -/

/-- A profile was loaded. -/
def profileEvent (path : String) (p : Profile) : LogEvent :=
  ⟨.debug, "nodetune::commands", "Loaded performance profile",
    [LogEvent.quotedField "profile" p.name, LogEvent.plainField "path" path]⟩

/-- A script was loaded. -/
def scriptEvent (assets script : String) (content : List UInt8) : LogEvent :=
  ⟨.debug, "nodetune::assets", "Loaded script asset",
    [LogEvent.quotedField "script" script,
      LogEvent.plainField "path" (Assets.scriptPath assets script),
      LogEvent.countField "bytes" content.length]⟩

/-- Scripts were loaded, up to the first that cannot be read. -/
def scriptEvents (fs : FileSystem) (assets : String) : List String → List LogEvent
  | [] => []
  | script :: scripts =>
    match Assets.load fs assets script with
    | .ok content => scriptEvent assets script content :: scriptEvents fs assets scripts
    | .error _ => []

/-- A configuration was built. -/
def configEvents (p : Profile) (c : MachineConfig) : List LogEvent :=
  [⟨.debug, "nodetune::ignition", "Assembled ignition config",
      [LogEvent.quotedField "profile" p.name,
        LogEvent.countField "files" c.spec.config.files.length,
        LogEvent.countField "units" c.spec.config.services.length]⟩,
    ⟨.info, "nodetune::machineconfig", "Built machine config",
      [LogEvent.plainField "name" c.name,
        LogEvent.plainField "kernel_type" c.spec.kernelType.name,
        LogEvent.countField "kernel_arguments" c.spec.kernelArguments.length]⟩]

/-- What an action tells behind loading the profile. -/
def eventsFor (fs : FileSystem) (p : Profile) : Action → List LogEvent
  | .render _ assets _ =>
    -- Scripts are told of as they are loaded, also if a later one cannot be read.
    scriptEvents fs assets Script.catalog ++
      match MachineConfig.build fs assets p with
      | .ok c => configEvents p c
      | .error _ => []
  | _ => []

/-- What an action tells. -/
def events (fs : FileSystem) (a : Action) : List LogEvent :=
  match Profile.load fs a.profilePath with
  | .ok p => profileEvent a.profilePath p :: a.eventsFor fs p
  | .error _ => []

end Action

/-! ### Outcomes -/

/-- What is written to the errors in the end. -/
inductive Notice where
  | text (words : String)
  | failure (f : RunFailure)

/-- A notice in words, where `complaint` is said of a text that is no document. -/
def Notice.shown (complaint : String) : Notice → String
  | .text words => words
  | .failure f => "Error: " ++ f.failure.report complaint f.context ++ "\n"

/-- What a run leaves behind: its exit code and what it wrote. -/
structure Outcome where
  code : UInt32
  stdout : String
  events : List LogEvent := []
  notice : Notice := .text ""

/-- What a run writes to the errors behind the log. -/
def Outcome.stderr (complaint : String) (o : Outcome) : String :=
  o.notice.shown complaint

/-- The outcome of an invocation, where the environment sets a log filter or not. -/
def Invocation.outcome (fs : FileSystem) (logSetting : Option String) (i : Invocation) :
    Outcome :=
  let filter := LogFilter.ofEnvironment i.debugging logSetting
  let events := (i.action.events fs).filter filter.shows
  let transcript := i.action.transcript fs
  match transcript.failure with
  | none => ⟨0, transcript.printed, events, .text ""⟩
  | some f => ⟨1, transcript.printed, events, .failure f⟩

/-- The outcome of a command line that is answered without a run. -/
def Answer.outcome : Answer → Outcome
  | .help topic => ⟨0, topic.text, [], .text ""⟩
  | .version => ⟨0, programName ++ " " ++ programVersion ++ "\n", [], .text ""⟩
  | .usage error =>
    ⟨2, "", [], .text (String.join (error.lines.map (· ++ "\n")) ++
      "\nFor more information, try '--help'.\n")⟩
  | .nothingAsked => ⟨2, "", [], .text programHelp.text⟩

/-- The outcome of a command line.  `assetSetting` names the asset directory and `logSetting` a log
    filter, as far as the environment does. -/
def outcome (fs : FileSystem) (assetSetting logSetting : Option String) (words : List String) :
    Outcome :=
  match Invocation.ofWords assetSetting words with
  | .ok i => i.outcome fs logSetting
  | .error answer => answer.outcome

/-- The paths that a command line reads. -/
def pathsRead (assetSetting : Option String) (words : List String) : List String :=
  match Invocation.ofWords assetSetting words with
  | .ok ⟨.render profile assets _, _⟩ =>
    profile :: Script.catalog.map (Assets.scriptPath assets)
  | .ok i => [i.action.profilePath]
  | .error _ => []

end MachineTuning.Command
