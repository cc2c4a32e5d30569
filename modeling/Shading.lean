import Shading.Request
import Shading.Session
import Shading.Proofs.Lowering
import Shading.Proofs.Obstacle
import Shading.Proofs.FirstObstacle
import Shading.Proofs.Acceptance
import Shading.Proofs.Sentence
import Shading.Proofs.Wording
import Shading.Proofs.WellFormed
import Shading.Proofs.Chunk
import Shading.Proofs.Legible
import Shading.Proofs.Readability
import Shading.Proofs.Skeleton
import Shading.Proofs.Grouping
import Shading.Proofs.Agreement
import Shading.Proofs.Extension
import Shading.Proofs.Informed
import Shading.Proofs.Batch
import Shading.Proofs.Question
import Shading.Proofs.Failing
import Shading.Proofs.Rendered
import Shading.Proofs.Place
import Shading.Proofs.Log
import Shading.Proofs.Account
import Shading.Proofs.Delimiter
import Shading.Proofs.Coverage
import Shading.Proofs.Lacking
import Shading.Proofs.Session
import Shading.Proofs.Snapshot
import Shading.Proofs.Asking
import Shading.Proofs.Unplaced
import Shading.Proofs.Construction
import Shading.Proofs.InStep
import Shading.Proofs.Hole
import Shading.Proofs.Respelling
import Shading.Proofs.Parsing
import Shading.Proofs.Regrouping
import Shading.Proofs.Parentheses
import Shading.Proofs.Layering
import Shading.Proofs.Expansion
import Shading.Proofs.Reattachment
