import ActionRegistry.Action.Basic
import ActionRegistry.Action.Declarative
import ActionRegistry.Action.Manifest
import ActionRegistry.Action.Registration
import ActionRegistry.Action.Registry
import ActionRegistry.Action.Script
import ActionRegistry.Callback.Basic
import ActionRegistry.Callback.Name
import ActionRegistry.CommandLine.CallbackTexts
import ActionRegistry.CommandLine.Execute
import ActionRegistry.CommandLine.Grammar
import ActionRegistry.CommandLine.Line
import ActionRegistry.CommandLine.ProjectRoot
import ActionRegistry.CommandLine.Reads
import ActionRegistry.CommandLine.Request
import ActionRegistry.CommandLine.Table
import ActionRegistry.CommandLine.Work
import ActionRegistry.Decoding.Failure
import ActionRegistry.Decoding.Record
import ActionRegistry.Error
import ActionRegistry.Files.Path
import ActionRegistry.Files.Tree
import ActionRegistry.Files.Write
import ActionRegistry.InPlace
import ActionRegistry.Json.Decode
import ActionRegistry.Json.Printer
import ActionRegistry.Json.Reader
import ActionRegistry.Json.Value
import ActionRegistry.Log
import ActionRegistry.Main
import ActionRegistry.Number.Binary64
import ActionRegistry.Number.Decimal
import ActionRegistry.Parameters
import ActionRegistry.Project
import ActionRegistry.Proofs.Callback.Grammar
import ActionRegistry.Proofs.Callback.Name
import ActionRegistry.Proofs.Checks
import ActionRegistry.Proofs.CommandLine.CallbackTexts
import ActionRegistry.Proofs.CommandLine.Effects
import ActionRegistry.Proofs.CommandLine.ProjectRoot
import ActionRegistry.Proofs.CommandLine.RenderModes
import ActionRegistry.Proofs.CommandLine.Table
import ActionRegistry.Proofs.Decoding.Record
import ActionRegistry.Proofs.Files.Atomic
import ActionRegistry.Proofs.Files.Directories
import ActionRegistry.Proofs.Files.Path
import ActionRegistry.Proofs.Files.Tree
import ActionRegistry.Proofs.Files.Write
import ActionRegistry.Proofs.Json.Decode
import ActionRegistry.Proofs.Json.Fields
import ActionRegistry.Proofs.Json.Reader
import ActionRegistry.Proofs.Json.Schema
import ActionRegistry.Proofs.Json.Template
import ActionRegistry.Proofs.Manifest.Contents
import ActionRegistry.Proofs.Manifest.Noninterference
import ActionRegistry.Proofs.Manifest.Order
import ActionRegistry.Proofs.Manifest.RoundTrip
import ActionRegistry.Proofs.Parameters
import ActionRegistry.Proofs.Project.Modes
import ActionRegistry.Proofs.Project.Standard
import ActionRegistry.Proofs.Registration.Commit
import ActionRegistry.Proofs.Registration.Conditions
import ActionRegistry.Proofs.Registration.Consistency
import ActionRegistry.Proofs.Registration.Declarative
import ActionRegistry.Proofs.Registration.Description
import ActionRegistry.Proofs.Registration.History
import ActionRegistry.Proofs.Registration.Local
import ActionRegistry.Proofs.Registration.Step
import ActionRegistry.Proofs.Registration.Workshop
import ActionRegistry.Proofs.Slug
import ActionRegistry.Proofs.Source.Catalog
import ActionRegistry.Proofs.Source.Independence
import ActionRegistry.Proofs.Source.Naming
import ActionRegistry.Proofs.Standard.Hello
import ActionRegistry.Proofs.Task.Config
import ActionRegistry.Proofs.Task.Image
import ActionRegistry.Proofs.Task.Inputs
import ActionRegistry.Proofs.Task.Repository
import ActionRegistry.Proofs.Task.SourcePath
import ActionRegistry.Proofs.Task.Structure
import ActionRegistry.Proofs.Text.Octets
import ActionRegistry.Proofs.Text.Pattern
import ActionRegistry.Proofs.Text.Trim
import ActionRegistry.Proofs.Trigger.CallbackTask
import ActionRegistry.Proofs.Trigger.Calls
import ActionRegistry.Proofs.Trigger.Dispatch
import ActionRegistry.Proofs.Yaml.Mapping
import ActionRegistry.Slug
import ActionRegistry.SortedMap
import ActionRegistry.Source.Basic
import ActionRegistry.Source.Catalog
import ActionRegistry.Standard.Hello
import ActionRegistry.Standard.Sources
import ActionRegistry.Task.CallbackTask
import ActionRegistry.Task.Config
import ActionRegistry.Task.Image
import ActionRegistry.Task.Repository
import ActionRegistry.Task.SourcePath
import ActionRegistry.Text
import ActionRegistry.Trigger.Invocation
import ActionRegistry.Trigger.Run
import ActionRegistry.Yaml.Cursor
import ActionRegistry.Yaml.Decode
import ActionRegistry.Yaml.Jumps
import ActionRegistry.Yaml.Node
import ActionRegistry.Yaml.Scalar
import ActionRegistry.Yaml.Token
import ActionRegistry.Yaml.Token.Property
import ActionRegistry.Yaml.Token.Scalar
import ActionRegistry.Yaml.Token.Scan
import ActionRegistry.Yaml.Value
import ActionRegistry.Yaml.Writer
import ActionRegistry.Proofs.Yaml.Cursor
import ActionRegistry.Proofs.Yaml.Plain
import ActionRegistry.Proofs.Yaml.Digits
import ActionRegistry.Proofs.Yaml.Quoted
import ActionRegistry.Proofs.Yaml.Block
import ActionRegistry.Proofs.Yaml.Scan
import ActionRegistry.Proofs.Yaml.Lines
import ActionRegistry.Proofs.Yaml.Value
import ActionRegistry.Proofs.Yaml.RoundTrip
