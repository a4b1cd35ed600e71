import NodeGroups.Cache
import NodeGroups.Clock
import NodeGroups.Cloud.Client
import NodeGroups.Cloud.Error
import NodeGroups.Cloud.Memory
import NodeGroups.Cloud.Pending
import NodeGroups.Config.Basic
import NodeGroups.Config.Codec
import NodeGroups.Config.Error
import NodeGroups.Config.Load
import NodeGroups.Config.Spec
import NodeGroups.Datum.Basic
import NodeGroups.Datum.Json
import NodeGroups.Dict
import NodeGroups.Duration
import NodeGroups.Group.Activity
import NodeGroups.Group.Basic
import NodeGroups.Group.Error
import NodeGroups.Group.Mutation
import NodeGroups.Group.Query
import NodeGroups.Group.State
import NodeGroups.Instance.Basic
import NodeGroups.Instance.Codec
import NodeGroups.Lock
import NodeGroups.ProviderId
import NodeGroups.Quantity.Basic
import NodeGroups.Quantity.Parser
import NodeGroups.Quantity.Printer
import NodeGroups.Registry.Basic
import NodeGroups.Registry.Report
import NodeGroups.Simulation.Request
import NodeGroups.Simulation.Run
import NodeGroups.Simulation.Task
import NodeGroups.Simulation.World
import NodeGroups.Template.Basic
import NodeGroups.Template.Codec
import NodeGroups.Template.Size
import NodeGroups.Template.Synthesis
import NodeGroups.Template.Tags
import NodeGroups.Text.Blank
import NodeGroups.Text.Case
import NodeGroups.Text.GraphemeExtend
import NodeGroups.Text.Numeral
import NodeGroups.Text.Printable
import NodeGroups.Text.Quoted
import NodeGroups.Text.Ranges
import NodeGroups.Text.Split
import NodeGroups.Toml.Date
import NodeGroups.Toml.Document
import NodeGroups.Toml.Number
import NodeGroups.Toml.Reader
import NodeGroups.Toml.Table
import NodeGroups.Toml.Text
import NodeGroups.Proofs.Except
import NodeGroups.Proofs.Lock
import NodeGroups.Proofs.Planning
import NodeGroups.Proofs.Advance
import NodeGroups.Proofs.Traffic
import NodeGroups.Proofs.Counter
import NodeGroups.Proofs.History
import NodeGroups.Proofs.Balance
import NodeGroups.Proofs.Play
import NodeGroups.Proofs.Correspondence
import NodeGroups.Proofs.Memory
import NodeGroups.Proofs.Agreement
import NodeGroups.Proofs.Alone
import NodeGroups.Proofs.Deletion
import NodeGroups.Proofs.Lookup
import NodeGroups.Proofs.Bounds
import NodeGroups.Proofs.Recency
import NodeGroups.Proofs.Line
import NodeGroups.Proofs.Turn
import NodeGroups.Proofs.Lined
import NodeGroups.Proofs.Serial
import NodeGroups.Proofs.Stage
import NodeGroups.Proofs.Parts
import NodeGroups.Proofs.Calm
import NodeGroups.Proofs.Stride
import NodeGroups.Proofs.Course
import NodeGroups.Proofs.Rehearsal
import NodeGroups.Proofs.Refresh
import NodeGroups.Proofs.Manner
import NodeGroups.Proofs.Reload
import NodeGroups.Proofs.Undisturbed
import NodeGroups.Proofs.Crew
import NodeGroups.Proofs.Report
import NodeGroups.Proofs.Pass
import NodeGroups.Proofs.Cover
import NodeGroups.Proofs.Configuration
import NodeGroups.Proofs.Routing
import NodeGroups.Proofs.Custody
import NodeGroups.Proofs.Timely
import NodeGroups.Proofs.Identifier
import NodeGroups.Proofs.Attempt
import NodeGroups.Proofs.Atomicity
import NodeGroups.Proofs.Removal
import NodeGroups.Proofs.Notation
import NodeGroups.Proofs.Thousandths
import NodeGroups.Proofs.Words
import NodeGroups.Proofs.Exactness
import NodeGroups.Proofs.Amount
import NodeGroups.Proofs.RoundTrip
import NodeGroups.Proofs.Respelling
import NodeGroups.Proofs.Spelling
import NodeGroups.Proofs.Index
import NodeGroups.Proofs.Membership
import NodeGroups.Proofs.Readiness
import NodeGroups.Proofs.DurationGrammar
import NodeGroups.Proofs.Registration
import NodeGroups.Proofs.Synthesis
import NodeGroups.Proofs.Nameless
import NodeGroups.Proofs.Numbering
import NodeGroups.Proofs.Batch
import NodeGroups.Proofs.Stop
