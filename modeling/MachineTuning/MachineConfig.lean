import MachineTuning.Ignition
import MachineTuning.Kernel

namespace MachineTuning

/-!
# Machine configurations — what a node configuration agent applies

The rendered artifact: a named and labelled object that holds the kernel flavor, the kernel
command line and an ignition document.  `MachineConfig.ofProfile` makes it from a profile and the
content of the scripts.
-/

/-- The content of a configuration. -/
structure MachineConfig.Spec where
  config : Ignition.Document
  kernelArguments : List String
  kernelType : Kernel.Flavor
  deriving DecidableEq

/-- A machine configuration. -/
structure MachineConfig where
  apiVersion : String
  kind : String
  name : String
  labels : KeyMap String
  spec : MachineConfig.Spec
  deriving DecidableEq

namespace MachineConfig

/-! ### Document form -/

/-- The name and the labels of a configuration. -/
def identitySchema : Schema (String × KeyMap String) :=
  .record "ObjectMeta" ("", .empty) <|
    .cons "name" true .text Prod.fst (fun name m => (name, m.2)) <|
    .cons "labels" false .labels Prod.snd (fun labels m => (m.1, labels)) .nil

/-- The kernel flavor. -/
def flavorSchema : Schema Kernel.Flavor :=
  .choice Kernel.Flavor.options Kernel.Flavor.name

/-- The content of a configuration. -/
def Spec.schema : Schema Spec :=
  .record "MachineConfigSpec" ⟨.new "", [], .stock⟩ <|
    .cons "config" true Ignition.Document.schema Spec.config (fun config s => { s with config }) <|
    .cons "kernelArguments" false (.list .text) Spec.kernelArguments
      (fun kernelArguments s => { s with kernelArguments }) <|
    .cons "kernelType" false flavorSchema Spec.kernelType
      (fun kernelType s => { s with kernelType }) .nil

/-- A machine configuration. -/
def schema : Schema MachineConfig :=
  .record "MachineConfig" ⟨"", "", "", .empty, .new "", [], .stock⟩ <|
    .cons "apiVersion" true .text MachineConfig.apiVersion
      (fun apiVersion c => { c with apiVersion }) <|
    .cons "kind" true .text MachineConfig.kind (fun kind c => { c with kind }) <|
    .cons "metadata" true identitySchema (fun c => (c.name, c.labels))
      (fun identity c => { c with name := identity.1, labels := identity.2 }) <|
    .cons "spec" true Spec.schema MachineConfig.spec (fun spec c => { c with spec }) .nil

/-! ### Building -/

/-- The version of the objects built here. -/
def objectVersion : String := "machineconfiguration.openshift.io/v1"

/-- The kind of the objects built here. -/
def objectKind : String := "MachineConfig"

/-- What the name of every component starts with. -/
def componentBase : String := "performance"

/-- The label that selects the pool of nodes. -/
def roleLabel : String := "machineconfiguration.openshift.io/role"

/-- The pool of a profile that names none. -/
def defaultRole : String := "worker-performance"

/-- The name of a component that is made for a profile. -/
def componentName (profileName base : String) : String :=
  base ++ "-" ++ profileName

/-- The labels of a configuration: those that the profile gives, else its default pool. -/
def labelsFor (p : Profile) : KeyMap String :=
  p.spec.labels.getD (KeyMap.empty.insert roleLabel defaultRole)

/-- The configuration of a profile with these scripts. -/
def ofProfile (p : Profile) (scripts : List (String × List UInt8)) : MachineConfig :=
  { apiVersion := objectVersion
    kind := objectKind
    name := componentName p.name componentBase
    labels := labelsFor p
    spec :=
      { config := .forProfile p scripts
        kernelArguments := Kernel.argumentsFor p
        kernelType := .ofProfile p } }

end MachineConfig

end MachineTuning
