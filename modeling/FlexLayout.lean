import FlexLayout.Session
import FlexLayout.Proofs.Bands
import FlexLayout.Proofs.Completeness
import FlexLayout.Proofs.Confinement
import FlexLayout.Proofs.ContentMinimum
import FlexLayout.Proofs.Convergence
import FlexLayout.Proofs.CrossLimits
import FlexLayout.Proofs.Direction
import FlexLayout.Proofs.Factors
import FlexLayout.Proofs.Fitting
import FlexLayout.Proofs.Growth
import FlexLayout.Proofs.Idempotence
import FlexLayout.Proofs.LateHeight
import FlexLayout.Proofs.Mirroring
import FlexLayout.Proofs.Ordering
import FlexLayout.Proofs.Outcome
import FlexLayout.Proofs.Partition
import FlexLayout.Proofs.Reach
import FlexLayout.Proofs.Refusal
import FlexLayout.Proofs.Removal
import FlexLayout.Proofs.Resolved
import FlexLayout.Proofs.Restacking
import FlexLayout.Proofs.Shares
import FlexLayout.Proofs.Shrinkage
import FlexLayout.Proofs.Spreading
import FlexLayout.Proofs.Tiling
import FlexLayout.Proofs.Wrapping
