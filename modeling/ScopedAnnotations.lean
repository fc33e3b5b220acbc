import ScopedAnnotations.Name
import ScopedAnnotations.SymbolTable
import ScopedAnnotations.SymbolTable.Sharing
import ScopedAnnotations.QualifiedName
import ScopedAnnotations.ModuleContext
import ScopedAnnotations.TypeExpr
import ScopedAnnotations.Annotation
import ScopedAnnotations.Text.Term
import ScopedAnnotations.Text.Describe
import ScopedAnnotations.Scope
import ScopedAnnotations.Resolver
import ScopedAnnotations.Resolver.Anchoring
import ScopedAnnotations.Resolver.Rendering
import ScopedAnnotations.Classified
import ScopedAnnotations.Trace
import ScopedAnnotations.Index
import ScopedAnnotations.Index.Query
import ScopedAnnotations.Index.Merge
import ScopedAnnotations.Session
import ScopedAnnotations.Workbench
import ScopedAnnotations.Proofs.Answer
import ScopedAnnotations.Proofs.LastWins
import ScopedAnnotations.Proofs.Overlay
import ScopedAnnotations.Proofs.Bracketing
import ScopedAnnotations.Proofs.Numbering
import ScopedAnnotations.Proofs.ContextDependence
import ScopedAnnotations.Proofs.CanonicalForm
import ScopedAnnotations.Proofs.Rearrangement
import ScopedAnnotations.Proofs.Accounting
import ScopedAnnotations.Proofs.Aliasing
import ScopedAnnotations.Proofs.Growth
import ScopedAnnotations.Proofs.Interleaving
import ScopedAnnotations.Proofs.Declarations
import ScopedAnnotations.Proofs.Anchored
import ScopedAnnotations.Proofs.Layering
import ScopedAnnotations.Proofs.Reading
import ScopedAnnotations.Proofs.Nesting
import ScopedAnnotations.Proofs.Compatibility
import ScopedAnnotations.Proofs.Splitting
import ScopedAnnotations.Proofs.Showing
import ScopedAnnotations.Proofs.Messages
import ScopedAnnotations.Proofs.Reports
import ScopedAnnotations.Proofs.DynamicMethods
import ScopedAnnotations.Proofs.Derivation
import ScopedAnnotations.Proofs.Agreement
import ScopedAnnotations.Proofs.Stores
