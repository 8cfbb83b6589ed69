import MachineTuning.Text.Utf8
import MachineTuning.Text.Quoted
import MachineTuning.Number.Shortest
import MachineTuning.KeyMap
import MachineTuning.Json.Printer
import MachineTuning.Json.Parser
import MachineTuning.Schema.OfJson
import MachineTuning.Profile.Schema
import MachineTuning.Profile.Samples
import MachineTuning.UnitFile.Sink
import MachineTuning.MachineConfig
import MachineTuning.Yaml.Token.Scanner
import MachineTuning.Yaml.Node.OfTokens
import MachineTuning.Yaml.Document
import MachineTuning.Assets
import MachineTuning.Profile.Load
import MachineTuning.Assets.Edit
import MachineTuning.Ignition.Edit
import MachineTuning.Profile.Change
import MachineTuning.Yaml.Printer
import MachineTuning.Command.Reading
import MachineTuning.Command.Help
import MachineTuning.Command.Log.Filter
import MachineTuning.Command.Run
import MachineTuning.Main
import MachineTuning.Proofs.DataUri
import MachineTuning.Proofs.UnitFile.Reader
import MachineTuning.Proofs.UnitFile.Layout
import MachineTuning.Proofs.MachineConfig.ChangeDetection
import MachineTuning.Proofs.Ignition.Consistency
import MachineTuning.Proofs.Ignition.History
import MachineTuning.Proofs.Assets.History
import MachineTuning.Proofs.MachineConfig.Artifact
import MachineTuning.Proofs.Profile.ReadBack
import MachineTuning.Proofs.Schema.Conformity
import MachineTuning.Proofs.Profile.Conformity
import MachineTuning.Proofs.Yaml.Cursor
import MachineTuning.Proofs.Yaml.QuotedText
import MachineTuning.Proofs.Yaml.Scanner
import MachineTuning.Proofs.Yaml.JsonTokens
import MachineTuning.Proofs.Yaml.JsonNodes
import MachineTuning.Proofs.Schema.NodeReadBack
import MachineTuning.Proofs.Profile.Texts
import MachineTuning.Proofs.Profile.Loading
import MachineTuning.Proofs.MachineConfig.Conformity
import MachineTuning.Proofs.MachineConfig.Content
import MachineTuning.Proofs.Profile.File
import MachineTuning.Proofs.Command.Transcript
import MachineTuning.Proofs.Command.Result
import MachineTuning.Proofs.Command.Agreement
import MachineTuning.Proofs.Yaml.Written.Quoted
import MachineTuning.Proofs.Yaml.Written.Plain
import MachineTuning.Proofs.Yaml.Written.Literal
import MachineTuning.Proofs.Yaml.Block.Line
import MachineTuning.Proofs.Yaml.Block.Tokens
import MachineTuning.Proofs.Command.Formats
import MachineTuning.Proofs.Kernel.Reader
import MachineTuning.Proofs.MachineConfig.Building
import MachineTuning.Proofs.Command.KernelArguments
import MachineTuning.Proofs.Schema.Reordering
import MachineTuning.Proofs.Command.Reordering
import MachineTuning.Proofs.Profile.History
import MachineTuning.Proofs.Schema.Undeclared
import MachineTuning.Proofs.Yaml.Outline.Tokens
import MachineTuning.Proofs.Yaml.Outline.Nodes
import MachineTuning.Proofs.Profile.Unquoted
