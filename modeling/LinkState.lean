import LinkState.Adjacency
import LinkState.Avl.Cursor
import LinkState.Avl.Map
import LinkState.Avl.Tree
import LinkState.Channel
import LinkState.Configuration
import LinkState.Database
import LinkState.Document.Basic
import LinkState.Document.Reading
import LinkState.Document.Text
import LinkState.Event
import LinkState.Fault
import LinkState.Form.Basic
import LinkState.Form.Packet
import LinkState.Form.Record
import LinkState.Form.State
import LinkState.Instance.Basic
import LinkState.Instance.Flooding
import LinkState.Instance.Routing
import LinkState.Ip.Endpoint
import LinkState.Ip.V4
import LinkState.Ip.V6
import LinkState.Link
import LinkState.Lsp.Basic
import LinkState.Lsp.Checksum
import LinkState.Lsp.Flags
import LinkState.LspId
import LinkState.Main
import LinkState.Octets
import LinkState.Proofs.Avl.Balance
import LinkState.Proofs.Avl.Entries
import LinkState.Proofs.Avl.FiniteMap
import LinkState.Proofs.Avl.Height
import LinkState.Proofs.Avl.Rebalancing
import LinkState.Proofs.Avl.Structure
import LinkState.Proofs.Avl.Traversal
import LinkState.Proofs.Avl.Validity
import LinkState.Proofs.Filing
import LinkState.Proofs.Flooding.Flags
import LinkState.Proofs.Flooding.Interleaving
import LinkState.Proofs.Flooding.Invariant
import LinkState.Proofs.Flooding.Network
import LinkState.Proofs.Flooding.Operations
import LinkState.Proofs.Flooding.Overtaking
import LinkState.Proofs.Flooding.Reachable
import LinkState.Proofs.Flooding.Reception
import LinkState.Proofs.Flooding.Scan
import LinkState.Proofs.Flooding.Synchronization
import LinkState.Proofs.Instance.Advertisement
import LinkState.Proofs.Instance.ArrivalOrder
import LinkState.Proofs.Instance.Duplicates
import LinkState.Proofs.Instance.Effects
import LinkState.Proofs.Instance.FloodTables
import LinkState.Proofs.Instance.Installation
import LinkState.Proofs.Instance.Recency
import LinkState.Proofs.Instance.Runs
import LinkState.Proofs.Instance.Snapshots
import LinkState.Proofs.Instance.UpToDate
import LinkState.Proofs.Keys
import LinkState.Proofs.Lookup
import LinkState.Proofs.Routing.Candidates
import LinkState.Proofs.Routing.Cheapest
import LinkState.Proofs.Routing.Forwarding
import LinkState.Proofs.Routing.Influence
import LinkState.Proofs.Routing.Iterations
import LinkState.Proofs.Routing.Nexthops
import LinkState.Proofs.Routing.Paths
import LinkState.Proofs.Routing.Search
import LinkState.Proofs.Routing.Selection
import LinkState.Proofs.Routing.ShortestPaths
import LinkState.Proofs.Routing.Tent
import LinkState.Proofs.Routing.Ties
import LinkState.Proofs.SystemIdText
import LinkState.Proofs.Wire.Capacity
import LinkState.Proofs.Wire.Checksum
import LinkState.Proofs.Wire.Classification
import LinkState.Proofs.Wire.Codec
import LinkState.Proofs.Wire.Detection
import LinkState.Proofs.Wire.Layout
import LinkState.Proofs.Wire.Partition
import LinkState.Proofs.Wire.Records
import LinkState.Proofs.Wire.Refusal
import LinkState.Proofs.Wire.Relay
import LinkState.Proofs.Wire.Splitting
import LinkState.Proofs.Wire.Truncation
import LinkState.Proofs.Wire.Words
import LinkState.Router
import LinkState.Routing.Route
import LinkState.Routing.ShortestPath
import LinkState.Startup
import LinkState.SystemId
import LinkState.Table
import LinkState.Text.Blank
import LinkState.Text.Decimal
import LinkState.Text.Hex
import LinkState.Timestamp
import LinkState.Wire.Frame
import LinkState.Wire.Header
import LinkState.Wire.PduType
import LinkState.Wire.Tlv
