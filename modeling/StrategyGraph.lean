import StrategyGraph.Blueprint.Compile
import StrategyGraph.Blueprint.Condition
import StrategyGraph.Blueprint.Entry
import StrategyGraph.Blueprint.InTrade
import StrategyGraph.Blueprint.Parameters
import StrategyGraph.Blueprint.Producer
import StrategyGraph.Calendar.Date
import StrategyGraph.Calendar.Instant
import StrategyGraph.CommandLine.Arguments
import StrategyGraph.CommandLine.Execute
import StrategyGraph.CommandLine.Report
import StrategyGraph.Decimal.Binary64
import StrategyGraph.Decimal.Fixed
import StrategyGraph.Decimal.Reader
import StrategyGraph.Decimal.Shortest
import StrategyGraph.Expression.Evaluate
import StrategyGraph.Expression.Token
import StrategyGraph.Fault
import StrategyGraph.Graph.Basic
import StrategyGraph.Graph.Binding
import StrategyGraph.Graph.Edge
import StrategyGraph.Graph.Kind
import StrategyGraph.Graph.Node
import StrategyGraph.Graph.Search
import StrategyGraph.Graph.Warning
import StrategyGraph.Indicator.Average
import StrategyGraph.Indicator.Band
import StrategyGraph.Indicator.Breakout
import StrategyGraph.Indicator.Compute
import StrategyGraph.Indicator.Kind
import StrategyGraph.Indicator.Mixed
import StrategyGraph.Indicator.Series
import StrategyGraph.Indicator.Strength
import StrategyGraph.Indicator.TrueRange
import StrategyGraph.Jobs.Job
import StrategyGraph.Jobs.Key
import StrategyGraph.Jobs.Store
import StrategyGraph.Jobs.Turn
import StrategyGraph.Json.Basic
import StrategyGraph.Json.Parser
import StrategyGraph.Json.Printer
import StrategyGraph.Json.Reading
import StrategyGraph.Ledger.Account
import StrategyGraph.Ledger.Statement
import StrategyGraph.Ledger.Summary
import StrategyGraph.Ledger.Trade
import StrategyGraph.Log
import StrategyGraph.Main
import StrategyGraph.Number.Basic
import StrategyGraph.Number.Checked
import StrategyGraph.Price.Bar
import StrategyGraph.Price.Synthetic
import StrategyGraph.Proofs.Blueprint.Cycle
import StrategyGraph.Proofs.Blueprint.Deleted
import StrategyGraph.Proofs.Blueprint.Drafts
import StrategyGraph.Proofs.Blueprint.Entry
import StrategyGraph.Proofs.Blueprint.InTrade
import StrategyGraph.Proofs.Blueprint.Legible
import StrategyGraph.Proofs.Blueprint.Naming
import StrategyGraph.Proofs.Blueprint.Order
import StrategyGraph.Proofs.Blueprint.Overridden
import StrategyGraph.Proofs.Blueprint.Reading
import StrategyGraph.Proofs.Blueprint.Reread
import StrategyGraph.Proofs.Blueprint.Series
import StrategyGraph.Proofs.Blueprint.Shapes
import StrategyGraph.Proofs.Blueprint.Shown
import StrategyGraph.Proofs.Blueprint.Sifted
import StrategyGraph.Proofs.Blueprint.Snapshot
import StrategyGraph.Proofs.Blueprint.Start
import StrategyGraph.Proofs.Blueprint.Warnings
import StrategyGraph.Proofs.Blueprint.WellFormed
import StrategyGraph.Proofs.Blueprint.Window
import StrategyGraph.Proofs.Calendar.Instant
import StrategyGraph.Proofs.Decimal.Literal
import StrategyGraph.Proofs.Expression.Evaluate
import StrategyGraph.Proofs.Expression.Grammar
import StrategyGraph.Proofs.Expression.Pattern
import StrategyGraph.Proofs.Expression.References
import StrategyGraph.Proofs.Expression.Tokens
import StrategyGraph.Proofs.Fault
import StrategyGraph.Proofs.Graph.Ancestors
import StrategyGraph.Proofs.Graph.Cycle
import StrategyGraph.Proofs.Graph.Distance
import StrategyGraph.Proofs.Graph.Nearest
import StrategyGraph.Proofs.Graph.Order
import StrategyGraph.Proofs.Graph.Outline
import StrategyGraph.Proofs.Graph.Queue
import StrategyGraph.Proofs.Graph.Roots
import StrategyGraph.Proofs.Indicator.Average
import StrategyGraph.Proofs.Indicator.Band
import StrategyGraph.Proofs.Indicator.Breakout
import StrategyGraph.Proofs.Indicator.Drawdown
import StrategyGraph.Proofs.Indicator.Mean
import StrategyGraph.Proofs.Indicator.Prefix
import StrategyGraph.Proofs.Indicator.Strength
import StrategyGraph.Proofs.Indicator.Total
import StrategyGraph.Proofs.Indicator.TrueRange
import StrategyGraph.Proofs.Indicator.WarmUp
import StrategyGraph.Proofs.Jobs.Apart
import StrategyGraph.Proofs.Jobs.Cancelled
import StrategyGraph.Proofs.Jobs.Effort
import StrategyGraph.Proofs.Jobs.Flag
import StrategyGraph.Proofs.Jobs.Known
import StrategyGraph.Proofs.Jobs.Lifecycle
import StrategyGraph.Proofs.Jobs.Passage
import StrategyGraph.Proofs.Jobs.Queue
import StrategyGraph.Proofs.Jobs.Record
import StrategyGraph.Proofs.Jobs.Served
import StrategyGraph.Proofs.Jobs.Sound
import StrategyGraph.Proofs.Jobs.Store
import StrategyGraph.Proofs.Json.Legible
import StrategyGraph.Proofs.Json.Shown
import StrategyGraph.Proofs.Ledger.Balance
import StrategyGraph.Proofs.Ledger.Compare
import StrategyGraph.Proofs.Ledger.Conduct
import StrategyGraph.Proofs.Ledger.Greedy
import StrategyGraph.Proofs.Ledger.Play
import StrategyGraph.Proofs.Ledger.Prefix
import StrategyGraph.Proofs.Ledger.Reached
import StrategyGraph.Proofs.Number.Integral
import StrategyGraph.Proofs.Number.Moderate
import StrategyGraph.Proofs.Number.Order
import StrategyGraph.Proofs.Number.Parts
import StrategyGraph.Proofs.Number.Quotient
import StrategyGraph.Proofs.Number.Rounded
import StrategyGraph.Proofs.Number.Unpacked
import StrategyGraph.Proofs.Number.Value
import StrategyGraph.Proofs.Price.Legible
import StrategyGraph.Proofs.Price.Normalized
import StrategyGraph.Proofs.Price.Ordered
import StrategyGraph.Proofs.Price.Stored
import StrategyGraph.Proofs.Price.Synthetic
import StrategyGraph.Proofs.Routine
import StrategyGraph.Proofs.Routine.Course
import StrategyGraph.Proofs.Server.Path
import StrategyGraph.Proofs.Server.Started
import StrategyGraph.Proofs.Simulation.Accepted
import StrategyGraph.Proofs.Simulation.Books
import StrategyGraph.Proofs.Simulation.Cancel
import StrategyGraph.Proofs.Simulation.Causal
import StrategyGraph.Proofs.Simulation.Decline
import StrategyGraph.Proofs.Simulation.Money
import StrategyGraph.Proofs.Simulation.Ordered
import StrategyGraph.Proofs.Simulation.Setup
import StrategyGraph.Proofs.Simulation.Shape
import StrategyGraph.Proofs.Simulation.Stopped
import StrategyGraph.Proofs.Simulation.Terms
import StrategyGraph.Proofs.Simulation.Total
import StrategyGraph.Proofs.Simulation.Trades
import StrategyGraph.Proofs.Text.Blank
import StrategyGraph.Proofs.Walk.Branch
import StrategyGraph.Proofs.Walk.Literal
import StrategyGraph.Proofs.Walk.Operand
import StrategyGraph.Proofs.Walk.Prefix
import StrategyGraph.Proofs.Walk.Reach
import StrategyGraph.Proofs.Walk.Search
import StrategyGraph.Proofs.Walk.Total
import StrategyGraph.Proofs.Worker.Ordered
import StrategyGraph.Proofs.Worker.Outcome
import StrategyGraph.Proofs.Worker.Protocol
import StrategyGraph.Proofs.Worker.Report
import StrategyGraph.Random.Twister
import StrategyGraph.Routine
import StrategyGraph.Server.Request
import StrategyGraph.Server.Respond
import StrategyGraph.Server.Route
import StrategyGraph.Settings
import StrategyGraph.Simulation.Bars
import StrategyGraph.Simulation.Failure
import StrategyGraph.Simulation.Result
import StrategyGraph.Simulation.Run
import StrategyGraph.Simulation.Terms
import StrategyGraph.Supply
import StrategyGraph.Text.Case
import StrategyGraph.Text.Classes
import StrategyGraph.Text.Printable
import StrategyGraph.Text.Quoted
import StrategyGraph.Text.Table
import StrategyGraph.Walk.Branch
import StrategyGraph.Walk.Context
import StrategyGraph.Walk.Operand
import StrategyGraph.Walk.Outcome
import StrategyGraph.Walk.Walker
import StrategyGraph.Worker.Message
import StrategyGraph.Worker.Serve
