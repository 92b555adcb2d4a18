import DocComment.Main
import DocComment.Proofs.Convergence
import DocComment.Proofs.Merge
import DocComment.Proofs.Confluence
import DocComment.Proofs.OrderedSession
import DocComment.Proofs.RankedSession
import DocComment.Proofs.EditScript
import DocComment.Proofs.Restoration
import DocComment.Proofs.FreshComment
import DocComment.Proofs.Alike
import DocComment.Proofs.SoleMissing
import DocComment.Proofs.Outcome
import DocComment.Proofs.Answering
import DocComment.Proofs.Suppression
import DocComment.Proofs.Indifference
import DocComment.Proofs.Repetition
import DocComment.Proofs.Naming
import DocComment.Proofs.Respelling
import DocComment.Proofs.Framing
import DocComment.Proofs.Qualification
import DocComment.Proofs.Detection
import DocComment.Proofs.Bracketing
import DocComment.Proofs.Anchoring
import DocComment.Proofs.Indentation
import DocComment.Proofs.Configuration
import DocComment.Proofs.Layering
import DocComment.Proofs.ReadBack
