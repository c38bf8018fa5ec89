import Pipework.Answer
import Pipework.Assembly
import Pipework.Await
import Pipework.Builtin
import Pipework.Calendar.Date
import Pipework.Calendar.Format
import Pipework.CommandLine
import Pipework.Conf
import Pipework.Conf.Conversion
import Pipework.Conf.FieldType
import Pipework.Configuration
import Pipework.Currency
import Pipework.Decimal.Reading
import Pipework.Decimal.Shortest
import Pipework.Diagram.Basic
import Pipework.Diagram.Order
import Pipework.Diagram.Steps
import Pipework.Dict
import Pipework.Error
import Pipework.Event
import Pipework.Factory
import Pipework.Fanout.Consumers
import Pipework.Fanout.Fork
import Pipework.Fanout.Tap
import Pipework.Fetch
import Pipework.FileTree
import Pipework.Ident
import Pipework.Items
import Pipework.Json.Members
import Pipework.Json.Printer
import Pipework.Json.Reader
import Pipework.Json.Value
import Pipework.LoopRule
import Pipework.Main
import Pipework.Pipe.Basic
import Pipework.Pipe.Description
import Pipework.Pipe.Warnings
import Pipework.PipeRun
import Pipework.Plan
import Pipework.Program
import Pipework.Proofs.Answers.Batching
import Pipework.Proofs.Answers.Documents
import Pipework.Proofs.Answers.Supply
import Pipework.Proofs.Answers.Tallying
import Pipework.Proofs.Assembly.Calls
import Pipework.Proofs.Assembly.Congruence
import Pipework.Proofs.Assembly.Consumers
import Pipework.Proofs.Assembly.Ends
import Pipework.Proofs.Assembly.Factories
import Pipework.Proofs.Assembly.Invariants
import Pipework.Proofs.Assembly.Output
import Pipework.Proofs.Assembly.Supply
import Pipework.Proofs.Assembly.Upstream
import Pipework.Proofs.Attribution.Account
import Pipework.Proofs.Attribution.Bare
import Pipework.Proofs.Attribution.Building
import Pipework.Proofs.Attribution.Chronicle
import Pipework.Proofs.Attribution.Keeping
import Pipework.Proofs.Attribution.Runs
import Pipework.Proofs.Batches.Law
import Pipework.Proofs.Batches.Rows
import Pipework.Proofs.Batches.Waiting
import Pipework.Proofs.Calendar.Counting
import Pipework.Proofs.Calendar.Days
import Pipework.Proofs.Calendar.Formats
import Pipework.Proofs.Calendar.Separators
import Pipework.Proofs.Calendar.Stamps
import Pipework.Proofs.Conf.Conversion
import Pipework.Proofs.Conf.Finite
import Pipework.Proofs.Conf.Integers
import Pipework.Proofs.Conf.Literals
import Pipework.Proofs.Conf.Saturation
import Pipework.Proofs.Conf.Texts
import Pipework.Proofs.Currency.Listed
import Pipework.Proofs.Decimal.Spelling
import Pipework.Proofs.Demand.Building
import Pipework.Proofs.Demand.Chain
import Pipework.Proofs.Demand.Laziness
import Pipework.Proofs.Demand.Polling
import Pipework.Proofs.Demand.Prompt
import Pipework.Proofs.Demand.Pulling
import Pipework.Proofs.Demand.Route
import Pipework.Proofs.Diagram.Grammar
import Pipework.Proofs.Diagram.Nesting
import Pipework.Proofs.Fanout.Balance
import Pipework.Proofs.Fanout.Branches
import Pipework.Proofs.Fanout.Delivery
import Pipework.Proofs.Fanout.Ledger
import Pipework.Proofs.Fanout.Partition
import Pipework.Proofs.Fanout.Waking
import Pipework.Proofs.Fetch.Account
import Pipework.Proofs.Fetch.Upfront
import Pipework.Proofs.Inputs.Described
import Pipework.Proofs.Isolation.Asking
import Pipework.Proofs.Isolation.Building
import Pipework.Proofs.Isolation.Secluded
import Pipework.Proofs.Isolation.Sessions
import Pipework.Proofs.Loop.Blocks
import Pipework.Proofs.Loop.Embedding
import Pipework.Proofs.Loop.Invoking
import Pipework.Proofs.Loop.Repeating
import Pipework.Proofs.Loop.Working
import Pipework.Proofs.Mode.Agreement
import Pipework.Proofs.Mode.Building
import Pipework.Proofs.Mode.Following
import Pipework.Proofs.Mode.Resuming
import Pipework.Proofs.Mode.Running
import Pipework.Proofs.Mode.Scope
import Pipework.Proofs.Mode.Soundness
import Pipework.Proofs.Mode.Twin
import Pipework.Proofs.Mode.Waiting
import Pipework.Proofs.Naming.Collisions
import Pipework.Proofs.Naming.Listing
import Pipework.Proofs.Naming.Wires
import Pipework.Proofs.Order.Execution
import Pipework.Proofs.Order.Least
import Pipework.Proofs.Order.Leftover
import Pipework.Proofs.Order.Release
import Pipework.Proofs.Order.Widening
import Pipework.Proofs.Outcome
import Pipework.Proofs.Plan.Bindings
import Pipework.Proofs.Plan.Demand
import Pipework.Proofs.Plan.Keywords
import Pipework.Proofs.Plan.Orphans
import Pipework.Proofs.Registry.Histories
import Pipework.Proofs.Stage.Awaiting
import Pipework.Proofs.Stage.Budget
import Pipework.Proofs.Stage.Ending
import Pipework.Proofs.Stage.Gives
import Pipework.Proofs.Stage.Junction
import Pipework.Proofs.Stage.Monotone
import Pipework.Proofs.Stage.Settling
import Pipework.Proofs.Subpipe.Akin
import Pipework.Proofs.Subpipe.Asking
import Pipework.Proofs.Subpipe.Building
import Pipework.Proofs.Subpipe.Circles
import Pipework.Proofs.Subpipe.Deepening
import Pipework.Proofs.Subpipe.Isolation
import Pipework.Proofs.Subpipe.Mirroring
import Pipework.Proofs.Subpipe.Nesting
import Pipework.Proofs.Text.LowerCase
import Pipework.Proofs.Text.Paths
import Pipework.Proofs.Timeout.Resumable
import Pipework.Proofs.Timeout.Schedule
import Pipework.Proofs.Timeout.Stages
import Pipework.Record
import Pipework.Registry
import Pipework.RunContext
import Pipework.Session
import Pipework.Stage.Basic
import Pipework.Stage.Batches
import Pipework.Stage.Build
import Pipework.Stage.Pairing
import Pipework.Stage.Poll
import Pipework.Stage.Sampling
import Pipework.Stage.Script
import Pipework.Stage.Tally
import Pipework.Terminal
import Pipework.Text.Blank
import Pipework.Text.LetterCase
import Pipework.Text.LetterCase.Table
import Pipework.Text.Pieces
import Pipework.Text.Printable.Table
import Pipework.Text.Quoted
import Pipework.Toml.Quoted
import Pipework.Toml.Reader
import Pipework.Toml.Scalar
import Pipework.Toml.Table
import Pipework.Transform
import Pipework.UserInput
import Pipework.World
