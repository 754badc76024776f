import MachineRbi.Main
import MachineRbi.Proofs.Files.Frame
import MachineRbi.Proofs.Files.Reading
import MachineRbi.Proofs.Generation.Visit
import MachineRbi.Proofs.Generation.Run
import MachineRbi.Proofs.Rbi.Layout
import MachineRbi.Proofs.Traversal
import MachineRbi.Proofs.Rbi.Acceptance
import MachineRbi.Proofs.Generation.Composition
import MachineRbi.Proofs.Generation.Convergence
import MachineRbi.Proofs.Files.Closed
import MachineRbi.Proofs.Files.Path
import MachineRbi.Proofs.Generation.CheckMode
import MachineRbi.Proofs.Generation.OneFile
import MachineRbi.Proofs.Generation.Containment
import MachineRbi.Proofs.Manifest.Keys
import MachineRbi.Proofs.Generation.Outcome
import MachineRbi.Proofs.CommandLine.Streams
import MachineRbi.Proofs.CommandLine.Gate
import MachineRbi.Proofs.Manifest.Body
import MachineRbi.Proofs.Manifest.Outline
import MachineRbi.Proofs.Manifest.Lookup
import MachineRbi.Proofs.Manifest.Spelling
import MachineRbi.Proofs.Manifest.Consistency
import MachineRbi.Proofs.Generation.Relevance
import MachineRbi.Proofs.Generation.Turn
import MachineRbi.Proofs.CommandLine.Effects
import MachineRbi.Proofs.Generation.Interruption
import MachineRbi.Proofs.Files.Making
import MachineRbi.Proofs.Files.Open
import MachineRbi.Proofs.Generation.Storing
import MachineRbi.Proofs.Generation.Commuting
import MachineRbi.Proofs.Generation.Order
import MachineRbi.Proofs.Registry
import MachineRbi.Proofs.Registry.Snapshot
import MachineRbi.Proofs.Registry.Consistency
import MachineRbi.Proofs.CommandLine.Listing
import MachineRbi.Proofs.Registry.Legible
import MachineRbi.Proofs.CommandLine.Legible
import MachineRbi.Proofs.Generation.Bytes
import MachineRbi.Proofs.Synthesis.Position
import MachineRbi.Proofs.Underscore.Boundary
import MachineRbi.Proofs.Underscore.Segment
import MachineRbi.Proofs.Rbi.Grammar
import MachineRbi.Proofs.Rbi.Lines
import MachineRbi.Proofs.Rbi.History
import MachineRbi.Proofs.Manifest.Acceptance
import MachineRbi.Proofs.Files.Limits
import MachineRbi.Proofs.Generation.Unobstructed
import MachineRbi.Proofs.Files.Rooted
import MachineRbi.Proofs.Settings.Search
import MachineRbi.Proofs.Toml.Plain
import MachineRbi.Proofs.Settings.Tolerance
import MachineRbi.Proofs.CommandLine.Verbose
import MachineRbi.Proofs.Text.Hex
import MachineRbi.Proofs.Text.Pairs
import MachineRbi.Proofs.Json.Grammar
import MachineRbi.Proofs.Json.Rendering
import MachineRbi.Proofs.Json.Reader
import MachineRbi.Proofs.CommandLine.Inspection
