import MachineTuning.Command.Help
import MachineTuning.Command.Reading

namespace MachineTuning.Command

/-!
# Invocations — what a user asks the program to do

`Invocation.ofWords` turns the words of a command line into an `Invocation`, or into an `Answer`
that needs no run: help, the version, or a usage error.
-/

/-- The name of the program. -/
def programName : String := "nodetune"

/-- The version of the program. -/
def programVersion : String := "0.1.0"

/-- The variable of the environment that names the asset directory. -/
def assetVariable : String := "NODETUNE_ASSETS_DIR"

/-- The variable of the environment that spells a log filter. -/
def logVariable : String := "RUST_LOG"

/-- The asset directory where none is named. -/
def defaultAssets : String := "assets"

/-- The formats of a rendered configuration. -/
inductive Format where
  | yaml
  | json
  deriving DecidableEq

namespace Format

/-- The name of a format. -/
def name : Format → String
  | .yaml => "yaml"
  | .json => "json"

/-- The format of a name. -/
def ofName? (s : String) : Option Format :=
  [yaml, json].find? (·.name = s)

end Format

/-- What is to be printed for the profile at a path. -/
inductive Action where
  /-- The whole configuration, with the scripts of an asset directory. -/
  | render (profile assets : String) (format : Format)
  /-- The kernel command line, one argument per line or all on one. -/
  | kernelArguments (profile : String) (oneLine : Bool)
  /-- The tuning services. -/
  | units (profile : String)
  deriving DecidableEq

/-- A command line that is in order. -/
structure Invocation where
  action : Action
  debugging : Bool
  deriving DecidableEq

/-! ### Commands and their switches -/

/-- Asks for debug logging. -/
def debugSwitch : Switch :=
  ⟨none, "debug", .flag, "Enable debug logging (overrides " ++ logVariable ++ ")"⟩

/-- Asks for help. -/
def helpSwitch : Switch := ⟨some 'h', "help", .help, "Print help"⟩

/-- Asks for the version. -/
def versionSwitch : Switch := ⟨some 'V', "version", .version, "Print version"⟩

/-- Names the profile. -/
def profileSwitch : Switch :=
  ⟨some 'p', "profile", .value "PROFILE" [], "Performance profile document (YAML or JSON)"⟩

/-- Names the asset directory.  Help shows what the environment says. -/
def assetsSwitch (assetSetting : Option String) : Switch :=
  ⟨none, "assets-dir", .value "ASSETS_DIR" [],
    "Directory holding scripts/pre-boot-tuning.sh and scripts/reboot.sh [env: " ++ assetVariable ++
      "=" ++ assetSetting.getD "" ++ "] [default: " ++ defaultAssets ++ "]"⟩

/-- Chooses the format. -/
def formatSwitch : Switch :=
  let names := [Format.yaml, .json].map Format.name
  ⟨some 'f', "format", .value "FORMAT" names,
    "Output format [default: " ++ Format.yaml.name ++ "] [possible values: " ++
      ", ".intercalate names ++ "]"⟩

/-- Asks for a single line. -/
def oneLineSwitch : Switch :=
  ⟨none, "oneline", .flag, "Print arguments on a single line, space separated"⟩

/-- The commands of the program. -/
inductive CommandName where
  | render
  | kernelArguments
  | units
  deriving DecidableEq

namespace CommandName

/-- A command as users write it. -/
def word : CommandName → String
  | .render => "render"
  | .kernelArguments => "kargs"
  | .units => "units"

/-- Every command, in the order of the help text. -/
def all : List CommandName := [render, kernelArguments, units]

/-- The command of a word. -/
def ofWord? (s : String) : Option CommandName :=
  all.find? (·.word = s)

/-- What a command does. -/
def about : CommandName → String
  | .render => "Render the full machine config for a profile"
  | .kernelArguments => "Print the kernel arguments for a profile, one per line"
  | .units => "Print the systemd units generated for a profile"

/-- The switches of a command besides those that all commands share. -/
def ownSwitches (assetSetting : Option String) : CommandName → List Switch
  | .render => [profileSwitch, assetsSwitch assetSetting, formatSwitch]
  | .kernelArguments => [profileSwitch, oneLineSwitch]
  | .units => [profileSwitch]

/-- All switches of a command. -/
def switches (assetSetting : Option String) (c : CommandName) : List Switch :=
  [debugSwitch] ++ c.ownSwitches assetSetting ++ [helpSwitch]

/-- The help text of a command. -/
def help (assetSetting : Option String) (c : CommandName) : Help :=
  ⟨c.about, programName ++ " " ++ c.word ++ " [OPTIONS] " ++ profileSwitch.shown,
    [Help.switchTable (c.switches assetSetting)]⟩

end CommandName

/-- The word that asks for help in place of a command. -/
def helpWord : String := "help"

/-- What the help command does. -/
def helpAbout : String := "Print this message or the help of the given subcommand(s)"

/-- The words that may stand in the place of a command. -/
def commandWords : List String :=
  CommandName.all.map CommandName.word ++ [helpWord]

/-- The switches in front of a command. -/
def programSwitches : List Switch := [debugSwitch, helpSwitch, versionSwitch]

/-- The help text of the program. -/
def programHelp : Help :=
  ⟨"Render performance profiles into node configuration", programName ++ " [OPTIONS] <COMMAND>",
    [⟨"Commands", (CommandName.all.map fun c => (c.word, c.about)) ++ [(helpWord, helpAbout)]⟩,
      Help.switchTable programSwitches]⟩

/-- The help text of the help command. -/
def helpHelp : Help :=
  ⟨helpAbout, programName ++ " " ++ helpWord ++ " [COMMAND]...",
    [⟨"Arguments", [("[COMMAND]...", "Print help for the subcommand(s)")]⟩]⟩

/-! ### From words to invocations -/

/-- What a command line is answered with if nothing is run. -/
inductive Answer where
  | help (help : Help)
  | version
  | usage (error : UsageError)
  /-- Nothing was asked for: help, but as an error. -/
  | nothingAsked

/-- The answer where reading the switches of a command stops. -/
def Answer.ofStop (help : Help) : Stop → Answer
  | .help => .help help
  | .version => .version
  | .usage error => .usage error

namespace Invocation

/-- The help that the words behind the help command ask for. -/
def helpFor (assetSetting : Option String) : List String → Answer
  | [] => .help programHelp
  | word :: words =>
    match CommandName.ofWord? word, words with
    | some c, [] => .help (c.help assetSetting)
    | some _, next :: _ => .usage (.unrecognizedCommand next)
    | none, words =>
      if word ≠ helpWord then .usage (.unrecognizedCommand word)
      else
        match words with
        | [] => .help helpHelp
        | next :: _ => .usage (.unrecognizedCommand next)

/-- The asset directory: the option counts before the environment, and that before the
    default. -/
def assetsOf (assetSetting : Option String) (settled : List (String × String)) :
    Except UsageError String :=
  match settled.lookup (assetsSwitch assetSetting).long, assetSetting with
  | some directory, _ => .ok directory
  | none, some directory =>
    match Reading.valueError? (assetsSwitch assetSetting) directory with
    | some error => .error error
    | none => .ok directory
  | none, none => .ok defaultAssets

/-- What a command is to do by its switches. -/
def actionOf (assetSetting : Option String) (c : CommandName) (settled : List (String × String)) :
    Except UsageError Action := do
  let assets ← if c = .render then assetsOf assetSetting settled else .ok ""
  match settled.lookup profileSwitch.long with
  | none => .error (.missingSwitches [profileSwitch])
  | some profile =>
    .ok (match c with
      | .render => .render profile assets
          (((settled.lookup formatSwitch.long).bind Format.ofName?).getD .yaml)
      | .kernelArguments =>
        .kernelArguments profile (settled.lookup oneLineSwitch.long).isSome
      | .units => .units profile)

/-- What a command line asks for, or its answer. -/
def ofWords (assetSetting : Option String) (words : List String) : Except Answer Invocation := do
  let (program, command?) ←
    (Reading.read programSwitches commandWords {} words).mapError (Answer.ofStop programHelp)
  match command? with
  | none =>
    .error (if program.settled.isEmpty then .nothingAsked
      else .usage (.missingCommand programName commandWords))
  | some (word, words) =>
    match CommandName.ofWord? word with
    | none => .error (helpFor assetSetting words)
    | some c =>
      let (own, _) ← (Reading.read (c.switches assetSetting) [] {} words).mapError
        (Answer.ofStop (c.help assetSetting))
      let action ← (actionOf assetSetting c own.settled).mapError .usage
      let settled := program.settled ++ own.settled
      return ⟨action, (settled.lookup debugSwitch.long).isSome⟩

end Invocation

end MachineTuning.Command
