import Stencil.Program.Listing
import Stencil.Render.Once
import Stencil.Scope.Register
import Stencil.Script
import Stencil.Session
import Stencil.Proofs.Eager.Push
import Stencil.Proofs.Eager.Pushed
import Stencil.Proofs.Eager.Pulls
import Stencil.Proofs.Eager.Discipline
import Stencil.Proofs.Eager.Sections
import Stencil.Proofs.Eager.Matching
import Stencil.Proofs.Eager.Refinement
import Stencil.Proofs.Eager.Simulation
import Stencil.Proofs.Eager.Rendering
import Stencil.Proofs.Lexical.Meaning
import Stencil.Proofs.Lexical.Addresses
import Stencil.Proofs.Lexical.Compiled
import Stencil.Proofs.Lexical.Soundness
import Stencil.Proofs.Comparison.Flow
import Stencil.Proofs.Comparison.Routine
import Stencil.Proofs.Accounts
import Stencil.Proofs.Comparison.Accounts
import Stencil.Proofs.Comparison.Limits
import Stencil.Proofs.Escaping.Text
import Stencil.Proofs.Leaves
import Stencil.Proofs.Comparison.Escaping
import Stencil.Proofs.Escaping.Harmless
import Stencil.Proofs.Escaping.Safety
import Stencil.Proofs.Indentation.Marked
import Stencil.Proofs.Indentation.Routine
import Stencil.Proofs.Indentation.Composed
import Stencil.Proofs.Indentation.Layout
import Stencil.Proofs.Indentation.Remarks
import Stencil.Proofs.Checking.Acceptance
import Stencil.Proofs.Faults.Explained
import Stencil.Proofs.Transparency.Selection
import Stencil.Proofs.Blocks.Leading
import Stencil.Proofs.Calls.Checked
import Stencil.Proofs.Apart.Sessions
import Stencil.Proofs.Apart.Inclusions
import Stencil.Proofs.Streams.Rounds
import Stencil.Proofs.Streams.Lines
import Stencil.Proofs.Streams.Capped
import Stencil.Proofs.Transparency.Transforms
import Stencil.Proofs.Revision.Continuing
import Stencil.Proofs.Revision.Pieces
import Stencil.Proofs.Revision.Silence
import Stencil.Proofs.Revision.Unrolling
import Stencil.Proofs.Flattening
import Stencil.Proofs.Escaping.Lossless
import Stencil.Proofs.Transparency.Appending
import Stencil.Proofs.Revision.Strays
import Stencil.Proofs.Scopes.Persistence
