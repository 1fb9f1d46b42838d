import AggregateSync.Connection.Script
import AggregateSync.Proofs.Connection.Cancellation
import AggregateSync.Proofs.Connection.Composition
import AggregateSync.Proofs.Connection.Execution
import AggregateSync.Proofs.Connection.FailStop
import AggregateSync.Proofs.Connection.Steps
import AggregateSync.Proofs.Database.Cells
import AggregateSync.Proofs.Database.Commands
import AggregateSync.Proofs.Database.Convergence
import AggregateSync.Proofs.Database.Links
import AggregateSync.Proofs.Database.Memory
import AggregateSync.Proofs.Database.Progress
import AggregateSync.Proofs.Database.Rows
import AggregateSync.Proofs.Database.Store
import AggregateSync.Proofs.Graph.Address
import AggregateSync.Proofs.Graph.Alike
import AggregateSync.Proofs.Graph.Assembly
import AggregateSync.Proofs.Graph.Depth
import AggregateSync.Proofs.Graph.Lineage
import AggregateSync.Proofs.Graph.Members
import AggregateSync.Proofs.Graph.Navigation
import AggregateSync.Proofs.Graph.Noninterference
import AggregateSync.Proofs.Graph.ParentLinks
import AggregateSync.Proofs.Graph.Partition
import AggregateSync.Proofs.Graph.Placement
import AggregateSync.Proofs.Graph.Reordering
import AggregateSync.Proofs.Graph.Resolution
import AggregateSync.Proofs.Graph.Roll
import AggregateSync.Proofs.Graph.Strangers
import AggregateSync.Proofs.Graph.Tree
import AggregateSync.Proofs.Mapping.Hydration
import AggregateSync.Proofs.Mapping.Soundness
import AggregateSync.Proofs.Session.Accounting
import AggregateSync.Proofs.Session.Addressing
import AggregateSync.Proofs.Session.Agreement
import AggregateSync.Proofs.Session.Batching
import AggregateSync.Proofs.Session.Cancellation
import AggregateSync.Proofs.Session.Columns
import AggregateSync.Proofs.Session.Commit
import AggregateSync.Proofs.Session.Consistency
import AggregateSync.Proofs.Session.Deletes
import AggregateSync.Proofs.Session.FailStop
import AggregateSync.Proofs.Session.Faults
import AggregateSync.Proofs.Session.Footprint
import AggregateSync.Proofs.Session.ForeignKeys
import AggregateSync.Proofs.Session.Frame
import AggregateSync.Proofs.Session.Gathering
import AggregateSync.Proofs.Session.Grouping
import AggregateSync.Proofs.Session.Inserts
import AggregateSync.Proofs.Session.KeyFlow
import AggregateSync.Proofs.Session.Loading
import AggregateSync.Proofs.Session.Order
import AggregateSync.Proofs.Session.Parts
import AggregateSync.Proofs.Session.Planning
import AggregateSync.Proofs.Session.Queries
import AggregateSync.Proofs.Session.Readback
import AggregateSync.Proofs.Session.Run
import AggregateSync.Proofs.Session.Schedule
import AggregateSync.Proofs.Session.Scope
import AggregateSync.Proofs.Session.Statements
import AggregateSync.Proofs.Session.Termination
import AggregateSync.Proofs.Session.Transaction
import AggregateSync.Proofs.Session.Turns
import AggregateSync.Proofs.Session.Updates
import AggregateSync.Proofs.Session.Variants
import AggregateSync.Proofs.Session.Width
import AggregateSync.Proofs.Session.WriteFaults
import AggregateSync.Proofs.Sql.Assignments
import AggregateSync.Proofs.Sql.BoundValues
import AggregateSync.Proofs.Sql.Calls
import AggregateSync.Proofs.Sql.Filters
import AggregateSync.Proofs.Sql.Placeholders
import AggregateSync.Proofs.Sql.Precedence
import AggregateSync.Proofs.Sql.Quoting
import AggregateSync.Proofs.Sql.Symbols
import AggregateSync.Proofs.Value.Equality
import AggregateSync.Proofs.Value.Hashing
import AggregateSync.Proofs.Value.Lookup
import AggregateSync.Proofs.Value.Plain
import AggregateSync.Proofs.Value.Reflexive
import AggregateSync.Session.Synchronize
import AggregateSync.Session.Wire
import AggregateSync.Value.Wire
