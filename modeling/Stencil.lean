import Stencil.Render.Stock
import Stencil.Session
import Stencil.Value.Reader
import Stencil.Wire.Dialect
import Stencil.Wire.Report
import Stencil.Proofs.Lossless
import Stencil.Proofs.Composition
import Stencil.Proofs.Bindings
import Stencil.Proofs.Marker
import Stencil.Proofs.Pairing
import Stencil.Proofs.Splice
import Stencil.Proofs.Escaping
import Stencil.Proofs.Frame
import Stencil.Proofs.Strictness
import Stencil.Proofs.Written
import Stencil.Proofs.Levels
import Stencil.Proofs.Correspondence
import Stencil.Proofs.Words
import Stencil.Proofs.Unmentioned
import Stencil.Proofs.Reading
import Stencil.Proofs.Grammar
import Stencil.Proofs.Quotation
import Stencil.Proofs.Locality
import Stencil.Proofs.Simulation
import Stencil.Proofs.Stubs
import Stencil.Proofs.Comments
import Stencil.Proofs.Caching
import Stencil.Proofs.Clauses
import Stencil.Proofs.LoneEquals
import Stencil.Proofs.Integers
import Stencil.Proofs.JsonText
import Stencil.Proofs.Records
import Stencil.Proofs.Passes
import Stencil.Proofs.Assignments
import Stencil.Proofs.Unmatched
import Stencil.Proofs.Coherence
import Stencil.Proofs.Branches
import Stencil.Proofs.Shadowing
import Stencil.Proofs.Segments
import Stencil.Proofs.Undivided
import Stencil.Proofs.Headers
import Stencil.Proofs.Entities
import Stencil.Proofs.Pieces
import Stencil.Proofs.Tokens
