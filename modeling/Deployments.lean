import Deployments.Record.Kind
import Deployments.Placeholder
import Deployments.Calendar.Timestamp
import Deployments.Yaml.Token.Scalar
import Deployments.Yaml.Token.Property
import Deployments.Yaml.Token.Stream
import Deployments.Yaml.Tag
import Deployments.Yaml.Node
import Deployments.Yaml.Document
import Deployments.Source
import Deployments.Raised
import Deployments.Facet
import Deployments.Json
import Deployments.Snapshot
import Deployments.Unchecked
import Deployments.Selection
import Deployments.Fetcher
import Deployments.Log.Registry
import Deployments.App
import Deployments.Log.Written
import Deployments.Main
import Deployments.Proofs.Handle
import Deployments.Proofs.Collection.Worker
import Deployments.Proofs.Collection.Reachable
import Deployments.Proofs.Collection.Outcome
import Deployments.Proofs.Collection.Calls
import Deployments.Proofs.Collection.Termination
import Deployments.Proofs.Collection.Waits
import Deployments.Proofs.Collection.Progress
import Deployments.Proofs.Collection.Unhandled
import Deployments.Proofs.Collection.Cycles
import Deployments.Proofs.App.Exit
import Deployments.Proofs.App.Printing
import Deployments.Proofs.App.Validity
import Deployments.Proofs.Record.Settled
import Deployments.Proofs.App.Environment
import Deployments.Proofs.Order
import Deployments.Proofs.Decimal.Nearest
import Deployments.Proofs.Decimal.Written
import Deployments.Proofs.Json.Decoder
import Deployments.Proofs.Json.Scanned
import Deployments.Proofs.Json.Decoded
import Deployments.Proofs.Json.Ascii
import Deployments.Proofs.Snapshot.Decoded
import Deployments.Proofs.Placeholder.Pieces
import Deployments.Proofs.Director
import Deployments.Proofs.Fetcher.Named
import Deployments.Proofs.Source
import Deployments.Proofs.Log.History
import Deployments.Proofs.Snapshot.Instances
import Deployments.Proofs.Selection.Calls
import Deployments.Proofs.Handle.Served
import Deployments.Proofs.Collection.Lines
import Deployments.Proofs.Record.Blanked
import Deployments.Proofs.Record.Rephrased
import Deployments.Proofs.Inventory.Entries
import Deployments.Proofs.ErrorSlot.Linear
import Deployments.Proofs.Record.Averages
import Deployments.Proofs.Record.Unknown
import Deployments.Proofs.Inventory.Version
