import Drawbridge.Canvas
import Drawbridge.Service.Caller
import Drawbridge.Service.Handlers
import Drawbridge.Proofs.Stream.Buffering
import Drawbridge.Proofs.Json.Display
import Drawbridge.Proofs.Stream.Consumption
import Drawbridge.Proofs.Markup.Fence
import Drawbridge.Proofs.Json.RoundTrip
import Drawbridge.Proofs.Stream.Objects
import Drawbridge.Proofs.Service.Generation
import Drawbridge.Proofs.Stream.Interleaving
import Drawbridge.Proofs.Service.Agreement
import Drawbridge.Proofs.Stream.Frames
import Drawbridge.Proofs.Service.Optimization
import Drawbridge.Proofs.Diagram.RoundTrip
import Drawbridge.Proofs.Diagram.Grouping
import Drawbridge.Proofs.Graph.Blocks
import Drawbridge.Proofs.Diagram.Mentions
import Drawbridge.Proofs.Diagram.Regrouping
import Drawbridge.Proofs.Diagram.GroupedReader
import Drawbridge.Proofs.Diagram.GroupedLayout
import Drawbridge.Proofs.Diagram.GroupedRoundTrip
import Drawbridge.Proofs.Stream.Grammar
import Drawbridge.Proofs.Canvas
import Drawbridge.Proofs.Diagram.Acceptance
import Drawbridge.Proofs.Diagram.PlainRoundTrip
import Drawbridge.Proofs.Scene.Export
import Drawbridge.Proofs.Service.Calls
import Drawbridge.Proofs.Diagram.Drafting
import Drawbridge.Proofs.Diagram.Integrity
import Drawbridge.Proofs.Diagram.Subgraphs
import Drawbridge.Proofs.Stream.Skipping
import Drawbridge.Proofs.Graph.BlockForest
import Drawbridge.Proofs.Graph.Resolution
import Drawbridge.Proofs.Diagram.Enclosure
import Drawbridge.Proofs.Diagram.ChainText
import Drawbridge.Proofs.Diagram.StyleLines
import Drawbridge.Proofs.Diagram.Faults
import Drawbridge.Proofs.Diagram.StrictRenderer
import Drawbridge.Proofs.Graph.Labels
import Drawbridge.Proofs.Diagram.LineNumbers
import Drawbridge.Proofs.Service.Validation
import Drawbridge.Proofs.Service.ModelStream
import Drawbridge.Proofs.Service.Conversion
import Drawbridge.Proofs.Markup.Unfencing
import Drawbridge.Proofs.Json.Embedded
import Drawbridge.Proofs.Markup.Seams
import Drawbridge.Proofs.Markup.Direction
import Drawbridge.Proofs.Diagram.Placement
import Drawbridge.Proofs.Diagram.Heading
import Drawbridge.Proofs.Diagram.ClassBodies
import Drawbridge.Proofs.Service.Access
