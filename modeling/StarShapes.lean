import StarShapes.Alignment
import StarShapes.Containment.Solution
import StarShapes.Schema.Document
import StarShapes.Shape.Object
import StarShapes.Sparql.Query
import StarShapes.Proofs.Binding.Descent
import StarShapes.Proofs.Containment.Chains
import StarShapes.Proofs.Containment.Loading
import StarShapes.Proofs.Containment.Shuffling
import StarShapes.Proofs.Binding.Accounting
import StarShapes.Proofs.Binding.Reporting
import StarShapes.Proofs.Binding.Selection
import StarShapes.Proofs.Binding.Certificates
import StarShapes.Proofs.Binding.Unrolling
import StarShapes.Proofs.Containment.Appending
import StarShapes.Proofs.Sparql.Flattening
import StarShapes.Proofs.Containment.Screening
import StarShapes.Proofs.Schema.Leaves
import StarShapes.Proofs.Schema.References
import StarShapes.Proofs.Schema.Naming
import StarShapes.Proofs.Schema.Reordering
import StarShapes.Proofs.Containment.Delivery
import StarShapes.Proofs.Binding.Narrowing
import StarShapes.Proofs.Query.Linking
import StarShapes.Proofs.Alignment.Rows
import StarShapes.Proofs.Containment.Duplicates
import StarShapes.Proofs.Containment.Bystanders
import StarShapes.Proofs.Containment.Ranking
import StarShapes.Proofs.Schema.Circles
import StarShapes.Proofs.Shape.Objects
import StarShapes.Proofs.Schema.Bounds
import StarShapes.Proofs.Query.Regrouping
import StarShapes.Proofs.Binding.Repetition
