import Rulebook.Builtin
import Rulebook.Config.Toml
import Rulebook.Engine
import Rulebook.Interchange.TriggerText
import Rulebook.Json.Scenario
import Rulebook.Json.Text
import Rulebook.Json.Vocabulary
import Rulebook.Proofs.Forest.Edits
import Rulebook.Proofs.Scenario.Listing
import Rulebook.Random.Seeded
import Rulebook.Scenario.Display
import Rulebook.Scenario.Edit
import Rulebook.Snapshot
import Rulebook.World
import Rulebook.Proofs.Attempt
import Rulebook.Proofs.Scenario.Changes
import Rulebook.Proofs.Scenario.Edits
import Rulebook.Proofs.Interchange.Building
import Rulebook.Proofs.Scenario.Reachable
import Rulebook.Proofs.Scenario.Ownership
import Rulebook.Proofs.Registry
import Rulebook.Proofs.Scenario.Conformance
import Rulebook.Proofs.Text.Line
import Rulebook.Proofs.Text.Digits
import Rulebook.Proofs.Text.Escape
import Rulebook.Proofs.Scenario.Regions
import Rulebook.Proofs.Interchange.LiteralText
import Rulebook.Proofs.Interchange.Entry
import Rulebook.Proofs.NodeTree
import Rulebook.Proofs.Forest.Snapshot
import Rulebook.Proofs.Interchange.Reading
import Rulebook.Proofs.Interchange.Grafting
import Rulebook.Proofs.Interchange.Encoding
import Rulebook.Proofs.Interchange.RoundTrip
import Rulebook.Proofs.Interchange.Outline
import Rulebook.Proofs.Interchange.Export
import Rulebook.Proofs.Interchange.Assembly
import Rulebook.Proofs.Interchange.Vetting
import Rulebook.Proofs.Interchange.TriggerRoundTrip
import Rulebook.Proofs.Builtin
import Rulebook.Proofs.Evaluation.Typing
import Rulebook.Proofs.Evaluation.Locality
import Rulebook.Proofs.Dispatch
import Rulebook.Proofs.Forest.Extends
import Rulebook.Proofs.Interchange.Rollback
import Rulebook.Proofs.Interchange.Planting
import Rulebook.Proofs.Interchange.Denotation
import Rulebook.Proofs.Interchange.Format
import Rulebook.Proofs.TreePaths
import Rulebook.Proofs.Interchange.Decoding
import Rulebook.Proofs.Observation
import Rulebook.Proofs.Forest.Insertion
import Rulebook.Proofs.Scenario.Refusal
import Rulebook.Proofs.Evaluation.Likeness
import Rulebook.Proofs.Snapshot.Format
import Rulebook.Proofs.Snapshot
import Rulebook.Proofs.Scenario.Numbering
import Rulebook.Proofs.Scenario.Removal
import Rulebook.Proofs.TreeEdits
import Rulebook.Proofs.Forest.Locality
import Rulebook.Proofs.Scenario.Locality
import Rulebook.Proofs.Forest.Growth
import Rulebook.Proofs.Scenario.Insertion
import Rulebook.Proofs.Scenario.Matching
import Rulebook.Proofs.Scenario.Bystanders
import Rulebook.Proofs.Forest.Traversal
import Rulebook.Proofs.Scenario.Traversal
import Rulebook.Proofs.Scenario.Binding
import Rulebook.Proofs.Scenario.Construction
import Rulebook.Proofs.Evaluation.Effects
import Rulebook.Proofs.Builtin.Order
import Rulebook.Proofs.Evaluation.Order
import Rulebook.Proofs.Evaluation.Actions
import Rulebook.Proofs.Evaluation.Depth
import Rulebook.Proofs.Evaluation.Randomness
import Rulebook.Proofs.Random.Sampling
import Rulebook.Proofs.Scenario.Dice
import Rulebook.Proofs.Conjunction
import Rulebook.Proofs.TreeWalk
import Rulebook.Proofs.Interchange.Transcript
import Rulebook.Proofs.Text.Numbering
import Rulebook.Proofs.Interchange.Renumbering
import Rulebook.Proofs.Interchange.Blame
import Rulebook.Proofs.Scenario.Moves
import Rulebook.Proofs.Evaluation.Arithmetic
import Rulebook.Proofs.Template
import Rulebook.Proofs.Scenario.Display
import Rulebook.Proofs.Evaluation.Simulation
import Rulebook.Proofs.Evaluation.Watching
import Rulebook.Proofs.World.Ledger
import Rulebook.Proofs.Registry.Catalog
import Rulebook.Proofs.Text.Order
import Rulebook.Proofs.Interchange.Splitting
import Rulebook.Proofs.ResourceKey
import Rulebook.Proofs.Evaluation.Comparison
import Rulebook.Proofs.Snapshot.Checking
import Rulebook.Proofs.World.Records
