import MachineTuning.Failure
import MachineTuning.Files
import MachineTuning.MachineConfig
import MachineTuning.UnitFile.Tuning

namespace MachineTuning

/-!
# Assets — the scripts that a configuration embeds

The scripts stand in a folder of the asset directory.  `Assets.loadAll` reads them in the order
of the catalog and stops at the first that cannot be read; `MachineConfig.build` makes a
configuration from a profile and an asset directory, all of it or none.
-/

namespace Assets

/-- The path of a script in an asset directory. -/
def scriptPath (directory script : String) : String :=
  joinPath (joinPath directory Script.assetFolder) (Script.fileName script)

/-- The content of a script. -/
def load (fs : FileSystem) (directory script : String) : Except Failure (List UInt8) :=
  (fs (scriptPath directory script)).mapError (.asset script (scriptPath directory script))

/-- The content of every script by its name. -/
def loadAll (fs : FileSystem) (directory : String) :
    Except Failure (List (String × List UInt8)) :=
  Script.catalog.mapM fun script => return (script, ← load fs directory script)

end Assets

/-- The configuration of a profile with the scripts of an asset directory. -/
def MachineConfig.build (fs : FileSystem) (directory : String) (p : Profile) :
    Except Failure MachineConfig :=
  return .ofProfile p (← Assets.loadAll fs directory)

end MachineTuning
