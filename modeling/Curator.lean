import Curator.Envelope.Decode
import Curator.Flow.Encode
import Curator.Main
import Curator.Proofs.Graph.WellFormed
import Curator.Proofs.Engine.Session
import Curator.Proofs.Operation.Availability
import Curator.Proofs.Operation.Descent
import Curator.Proofs.Operation.Typing
import Curator.Proofs.Operation.Supply
import Curator.Proofs.Operation.Intake
import Curator.Proofs.Operation.Reading
import Curator.Proofs.Engine.Provenance
import Curator.Proofs.Document
import Curator.Proofs.Envelope
import Curator.Proofs.Column
import Curator.Proofs.Flow.RoundTrip
import Curator.Proofs.Engine.Course
import Curator.Proofs.Operation.Assignment
import Curator.Proofs.Engine.Context
import Curator.Proofs.Table.Retention
import Curator.Proofs.Derive.Total
import Curator.Proofs.Split.Partition
import Curator.Proofs.Split.Shares
import Curator.Proofs.Table.Join
import Curator.Proofs.Engine.Consistent
import Curator.Proofs.Table.Integers
import Curator.Proofs.Engine.Ranking
import Curator.Proofs.Derive.Typing
import Curator.Proofs.Engine.Inline
import Curator.Proofs.Operation.Demand
import Curator.Proofs.Operation.Scene
import Curator.Proofs.Decimal.Layout
import Curator.Proofs.Decimal.Text
import Curator.Proofs.Table.Keys
import Curator.Proofs.Column.Spelling
import Curator.Proofs.Table.StableOrder
import Curator.Proofs.Table.Widening
import Curator.Proofs.Registry.Staffing
