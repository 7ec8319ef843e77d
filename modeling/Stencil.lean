import Stencil.Registry
import Stencil.Session
import Stencil.Proofs.Balance
import Stencil.Proofs.Direct
import Stencil.Proofs.Grammar
import Stencil.Proofs.Reading
import Stencil.Proofs.Erasure
import Stencil.Proofs.Soundness
import Stencil.Proofs.Completeness
import Stencil.Proofs.Acceptance
import Stencil.Proofs.Lexing
import Stencil.Proofs.Names
import Stencil.Proofs.Printing
import Stencil.Proofs.Layout
import Stencil.Proofs.RoundTrip
import Stencil.Proofs.Including
import Stencil.Proofs.Simulation
import Stencil.Proofs.Twins
import Stencil.Proofs.Capture
import Stencil.Proofs.Recursion
import Stencil.Proofs.Caching
import Stencil.Proofs.Sequence
import Stencil.Proofs.Totality
import Stencil.Proofs.CacheHistory
import Stencil.Proofs.Strictness
import Stencil.Proofs.Footprint
import Stencil.Proofs.Interpolation
import Stencil.Proofs.Privacy
import Stencil.Proofs.Choice
import Stencil.Proofs.Confinement
import Stencil.Proofs.Operators
import Stencil.Proofs.Isolation
import Stencil.Proofs.Lexemes
import Stencil.Proofs.DepthLimit
import Stencil.Proofs.Ranges
import Stencil.Proofs.Ascription
import Stencil.Proofs.Importing
import Stencil.Proofs.Listing
import Stencil.Proofs.Snippets
import Stencil.Proofs.Trailing
import Stencil.Proofs.Colours
import Stencil.Proofs.Carets
import Stencil.Proofs.Terminators
import Stencil.Proofs.Aliases
