import Merkle.Proofs.Cost.Steps
import Merkle.Proofs.Opening.Composition
import Merkle.Proofs.Opening.Consistency
import Merkle.Proofs.Opening.Corruption
import Merkle.Proofs.Opening.Locality
import Merkle.Proofs.Opening.Malleability
import Merkle.Proofs.Opening.Outcomes
import Merkle.Proofs.Opening.Subtrees
import Merkle.Proofs.Opening.Tampering
import Merkle.Proofs.Opening.Truncation
import Merkle.Proofs.Opening.Validity
import Merkle.Proofs.Operation.Log
import Merkle.Proofs.Tagged.Openings
import Merkle.Proofs.Tagged.Roots
import Merkle.Proofs.Tree.Ancestors
import Merkle.Proofs.Tree.Merges
import Merkle.Proofs.Tree.Padded
import Merkle.Proofs.Tree.Range
import Merkle.Proofs.Wire.Kinds
