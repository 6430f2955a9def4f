import ObjectModel.Class
import ObjectModel.CommandLine.Arguments
import ObjectModel.CommandLine.Scripts
import ObjectModel.Config.Environment
import ObjectModel.Config.Inline
import ObjectModel.Config.Load
import ObjectModel.Config.Quoted
import ObjectModel.Config.Setting
import ObjectModel.Config.Toml
import ObjectModel.Decimal.Double
import ObjectModel.Decimal.Layout
import ObjectModel.Decimal.Read
import ObjectModel.Decimal.Shortest
import ObjectModel.Dict
import ObjectModel.Entity
import ObjectModel.Error
import ObjectModel.Holder
import ObjectModel.Hook
import ObjectModel.Main
import ObjectModel.Members
import ObjectModel.Metering
import ObjectModel.Metering.Pool
import ObjectModel.Proofs.Action
import ObjectModel.Proofs.Ancestry
import ObjectModel.Proofs.Batches
import ObjectModel.Proofs.Beyond
import ObjectModel.Proofs.Binding
import ObjectModel.Proofs.Calls
import ObjectModel.Proofs.Chain
import ObjectModel.Proofs.Composing
import ObjectModel.Proofs.Configuring
import ObjectModel.Proofs.Counters
import ObjectModel.Proofs.Deeds
import ObjectModel.Proofs.Declaring
import ObjectModel.Proofs.Definitions
import ObjectModel.Proofs.Descent
import ObjectModel.Proofs.Detached
import ObjectModel.Proofs.Dispatching
import ObjectModel.Proofs.Edits
import ObjectModel.Proofs.Effects
import ObjectModel.Proofs.Entries
import ObjectModel.Proofs.Erased
import ObjectModel.Proofs.Evaluation
import ObjectModel.Proofs.Failures
import ObjectModel.Proofs.Fields
import ObjectModel.Proofs.Firings
import ObjectModel.Proofs.Flattening
import ObjectModel.Proofs.Forest
import ObjectModel.Proofs.Graph
import ObjectModel.Proofs.Handles
import ObjectModel.Proofs.Inclusion
import ObjectModel.Proofs.Instantiation
import ObjectModel.Proofs.Lookup
import ObjectModel.Proofs.MemberLookup
import ObjectModel.Proofs.Memory
import ObjectModel.Proofs.MemoryLimit
import ObjectModel.Proofs.Moves
import ObjectModel.Proofs.NameFrame
import ObjectModel.Proofs.NoLoops
import ObjectModel.Proofs.Overlay
import ObjectModel.Proofs.Ownership
import ObjectModel.Proofs.Parenthood
import ObjectModel.Proofs.Paths
import ObjectModel.Proofs.Queries
import ObjectModel.Proofs.Refusals
import ObjectModel.Proofs.Remembered
import ObjectModel.Proofs.Reordering
import ObjectModel.Proofs.Resolution
import ObjectModel.Proofs.Running
import ObjectModel.Proofs.Runs
import ObjectModel.Proofs.Scopes
import ObjectModel.Proofs.ScriptRuns
import ObjectModel.Proofs.Search
import ObjectModel.Proofs.Slots
import ObjectModel.Proofs.Structure
import ObjectModel.Proofs.SuperViews
import ObjectModel.Proofs.Tree
import ObjectModel.Proofs.TwoRuns
import ObjectModel.Proofs.Unmoved
import ObjectModel.Proofs.Verdicts
import ObjectModel.Proofs.Visible
import ObjectModel.Reach
import ObjectModel.Registry.Basic
import ObjectModel.Registry.Binding
import ObjectModel.Registry.Describe
import ObjectModel.Registry.Reference
import ObjectModel.Registry.Scope
import ObjectModel.Sandbox.Duration
import ObjectModel.Sandbox.Execution
import ObjectModel.Sandbox.Limits
import ObjectModel.Script.Access
import ObjectModel.Script.Arithmetic
import ObjectModel.Script.Builtin
import ObjectModel.Script.Configure
import ObjectModel.Script.Datum
import ObjectModel.Script.Dispatch
import ObjectModel.Script.Eval
import ObjectModel.Script.Instance
import ObjectModel.Script.Layout
import ObjectModel.Script.Misfit
import ObjectModel.Script.Number
import ObjectModel.Script.Program
import ObjectModel.Script.Reader
import ObjectModel.Script.Report
import ObjectModel.Script.Table
import ObjectModel.Script.Work
import ObjectModel.Script.World
import ObjectModel.Text.Blank
import ObjectModel.Text.Escaped
import ObjectModel.Text.Quoted
import ObjectModel.Text.Utf8
import ObjectModel.Trait
import ObjectModel.Value
