import ScriptSandbox.Command.Program
import ScriptSandbox.Command.Run
import ScriptSandbox.CommandLine.Basic
import ScriptSandbox.CommandLine.Item
import ScriptSandbox.CommandLine.Level
import ScriptSandbox.CommandLine.Reader
import ScriptSandbox.Config.Basic
import ScriptSandbox.Config.Document
import ScriptSandbox.Config.Load
import ScriptSandbox.Failure.Basic
import ScriptSandbox.Failure.HostError
import ScriptSandbox.Failure.SystemCode
import ScriptSandbox.Json.Value
import ScriptSandbox.Json.Parser
import ScriptSandbox.Log.Directive
import ScriptSandbox.Log.Event
import ScriptSandbox.Log.Pattern
import ScriptSandbox.Log.Pattern.Class
import ScriptSandbox.Log.Pattern.Item
import ScriptSandbox.Log.Pattern.Group
import ScriptSandbox.Log.Pattern.Modes
import ScriptSandbox.Machine.Files
import ScriptSandbox.Machine.Process
import ScriptSandbox.Machine.Resolve
import ScriptSandbox.Machine.Tree
import ScriptSandbox.Machine.World
import ScriptSandbox.Main
import ScriptSandbox.Number.Binary64
import ScriptSandbox.Number.Shortest
import ScriptSandbox.Proofs.FileSteps
import ScriptSandbox.Proofs.Layout
import ScriptSandbox.Proofs.LibraryCopied
import ScriptSandbox.Proofs.NumberText
import ScriptSandbox.Proofs.Resolution
import ScriptSandbox.Proofs.RoundTrip
import ScriptSandbox.Proofs.Rounding
import ScriptSandbox.Proofs.Splicing
import ScriptSandbox.Proofs.TreeGrowth
import ScriptSandbox.Proofs.Utf8Text
import ScriptSandbox.Proofs.WorkspaceLife
import ScriptSandbox.Proofs.WorkspacesApart
import ScriptSandbox.Sandbox.Executor
import ScriptSandbox.Sandbox.Health
import ScriptSandbox.Sandbox.Interpreter
import ScriptSandbox.Sandbox.Wasmer
import ScriptSandbox.Sandbox.Prepared
import ScriptSandbox.Sandbox.Workspace
import ScriptSandbox.Script.Program
import ScriptSandbox.Text.Character
import ScriptSandbox.Text.Lines
import ScriptSandbox.Text.Quoted
import ScriptSandbox.Text.Utf8
import ScriptSandbox.Toml.Document
import ScriptSandbox.Toml.Grammar
import ScriptSandbox.Toml.Value
import ScriptSandbox.Toml.TextForm
import ScriptSandbox.Proofs.TextForms
import ScriptSandbox.Proofs.ConfigLayers
import ScriptSandbox.Proofs.ConfigStored
import ScriptSandbox.Proofs.ExecutionLife
import ScriptSandbox.Proofs.RunCommand
import ScriptSandbox.Proofs.Determined
import ScriptSandbox.Proofs.StageOrder
import ScriptSandbox.Proofs.Unseen
import ScriptSandbox.Proofs.UnnamedPlace
import ScriptSandbox.Proofs.CopyExact
import ScriptSandbox.Proofs.CopyLoop
import ScriptSandbox.Proofs.ProvisionFailed
import ScriptSandbox.Proofs.RunOutcome
import ScriptSandbox.Proofs.HealthVerdicts
import ScriptSandbox.Proofs.OutputRecords
import ScriptSandbox.Proofs.OneSource
import ScriptSandbox.Proofs.NormalPath
import ScriptSandbox.Proofs.ForcedInit
import ScriptSandbox.Proofs.InputApart
import ScriptSandbox.Proofs.SourcesAgree
import ScriptSandbox.Proofs.Margins
import ScriptSandbox.Proofs.PythonLines
import ScriptSandbox.Proofs.InputArgument
import ScriptSandbox.Proofs.Levels
import ScriptSandbox.Proofs.Everywhere
