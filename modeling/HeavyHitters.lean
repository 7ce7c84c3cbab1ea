import HeavyHitters.Ledger
import HeavyHitters.Proofs.Entries
import HeavyHitters.Proofs.Ledger
import HeavyHitters.Proofs.Median.Approximation
import HeavyHitters.Proofs.Median.Sampling
import HeavyHitters.Proofs.Median.Selection
import HeavyHitters.Proofs.Numeral
import HeavyHitters.Proofs.Refusals
import HeavyHitters.Proofs.Results
import HeavyHitters.Proofs.Sketch.Acceptance
import HeavyHitters.Proofs.Sketch.Amortisation
import HeavyHitters.Proofs.Sketch.Bounds
import HeavyHitters.Proofs.Sketch.Capacity
import HeavyHitters.Proofs.Sketch.Conservation
import HeavyHitters.Proofs.Sketch.Construction
import HeavyHitters.Proofs.Sketch.Copies
import HeavyHitters.Proofs.Sketch.Counting
import HeavyHitters.Proofs.Sketch.Coverage
import HeavyHitters.Proofs.Sketch.Drift
import HeavyHitters.Proofs.Sketch.Exactness
import HeavyHitters.Proofs.Sketch.Fidelity
import HeavyHitters.Proofs.Sketch.Frequent
import HeavyHitters.Proofs.Sketch.Genuine
import HeavyHitters.Proofs.Sketch.Invariants
import HeavyHitters.Proofs.Sketch.Lossless
import HeavyHitters.Proofs.Sketch.Merging
import HeavyHitters.Proofs.Sketch.Ranking
import HeavyHitters.Proofs.Sketch.Routes
import HeavyHitters.Proofs.Sketch.Seeding
import HeavyHitters.Proofs.Sketch.Stability
import HeavyHitters.Proofs.Snapshot.Binary
import HeavyHitters.Proofs.Snapshot.Canonical
import HeavyHitters.Proofs.Snapshot.Checks
import HeavyHitters.Proofs.Snapshot.Grammar
import HeavyHitters.Proofs.Snapshot.Line
import HeavyHitters.Proofs.Snapshot.Normalisation
import HeavyHitters.Proofs.Snapshot.Payload
import HeavyHitters.Proofs.Snapshot.Writing
import HeavyHitters.Proofs.Sorting
import HeavyHitters.Proofs.Sorting.Alike
import HeavyHitters.Proofs.Sorting.Merging
import HeavyHitters.Proofs.Table.Cells
import HeavyHitters.Proofs.Table.Clusters
import HeavyHitters.Proofs.Table.Dropping
import HeavyHitters.Proofs.Table.Insertion
import HeavyHitters.Proofs.Table.Layout
import HeavyHitters.Proofs.Table.Loops
import HeavyHitters.Proofs.Table.Mapping
import HeavyHitters.Proofs.Table.Mixing
import HeavyHitters.Proofs.Table.ProbeRuns
import HeavyHitters.Proofs.Table.Purging
import HeavyHitters.Proofs.Table.Rebuilding
import HeavyHitters.Proofs.Table.Refinement
import HeavyHitters.Proofs.Table.Removal
import HeavyHitters.Proofs.Table.Sweeping
import HeavyHitters.Random.Seed
import HeavyHitters.Random.Twister
import HeavyHitters.Row.Order
import HeavyHitters.Sketch.Merge
import HeavyHitters.Sketch.Query
import HeavyHitters.Sketch.Snapshot
