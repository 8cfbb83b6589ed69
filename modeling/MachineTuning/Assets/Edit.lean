import MachineTuning.Assets
import MachineTuning.Profile.Samples

namespace MachineTuning.Assets

/-!
# Edits of asset directories

An asset directory is a folder of scripts that come and go.  `Edit` names the steps, `prepared`
makes an asset directory of an empty folder, without scripts or with the sample scripts, and
`edited` takes a list of steps from there.  A step that cannot be taken ends all of them: to remove
a script that is not there is an error.
-/

/-- A step that changes an asset directory. -/
inductive Edit where
  | write (script : String) (content : List UInt8)
  | remove (script : String)
  deriving DecidableEq

/-- The disk after one step. -/
def edit (directory : String) (disk : Disk) : Edit → Except SystemError Disk
  | .write script content => disk.writeFile (scriptPath directory script) content
  | .remove script => disk.removeFile (scriptPath directory script)

/-- The disk after several steps. -/
def edited (directory : String) (disk : Disk) (edits : List Edit) : Except SystemError Disk :=
  edits.foldlM (edit directory) disk

/-- What an asset directory starts with. -/
inductive Start where
  /-- No scripts. -/
  | empty
  /-- The sample scripts. -/
  | samples
  deriving DecidableEq

/-- The steps that put the scripts of the start into place. -/
def Start.edits : Start → List Edit
  | .empty => []
  | .samples => Script.samples.map fun s => .write s.1 s.2

/-- The disk on which an empty folder was made an asset directory. -/
def prepared (directory : String) (start : Start) (disk : Disk) : Except SystemError Disk := do
  edited directory (← disk.makeFolder (joinPath directory Script.assetFolder)) start.edits

end MachineTuning.Assets
