import SymbolView.LineIndex
import SymbolView.Type.Reference
import SymbolView.Host.Interposed
import SymbolView.Workspace
import SymbolView.Snapshot.Json
import SymbolView.Proofs.Snapshot.RoundTrip
import SymbolView.Proofs.Session.History
import SymbolView.Proofs.Workspace.Findings
import SymbolView.Proofs.Workspace.Identity
import SymbolView.Proofs.Workspace.Refusal
import SymbolView.Proofs.Workspace.Isolation
import SymbolView.Proofs.SymbolTable.Edits
import SymbolView.Proofs.SymbolTable.WellFormed
import SymbolView.Proofs.SymbolTable.Coherence
import SymbolView.Proofs.Type.Key
import SymbolView.Proofs.Type.Readable
import SymbolView.Proofs.Type.Expansion
import SymbolView.Proofs.Type.Marks
import SymbolView.Proofs.Type.Policies
import SymbolView.Proofs.Type.Faults
import SymbolView.Proofs.Annotations.Literals
import SymbolView.Proofs.Annotations.Names
import SymbolView.Proofs.Annotations.Key
import SymbolView.Proofs.Annotations.Readable
import SymbolView.Proofs.Session.Settled
import SymbolView.Proofs.Session.Relays
import SymbolView.Proofs.Session.TargetIsolation
import SymbolView.Proofs.Snapshot.Portrait
import SymbolView.Proofs.Session.UseSite
import SymbolView.Proofs.SymbolTable.Lists
import SymbolView.Proofs.SymbolTable.Records
import SymbolView.Proofs.Session.Lineage
import SymbolView.Proofs.SymbolTable.Nesting
import SymbolView.Proofs.SymbolTable.FileRoutes
import SymbolView.Proofs.Session.Listing
import SymbolView.Proofs.Workspace.MemberLists
import SymbolView.Proofs.Session.Callables
import SymbolView.Proofs.Session.Additions
import SymbolView.Proofs.Workspace.Additions
import SymbolView.Proofs.Classifier.LocalClasses
import SymbolView.Proofs.Classifier.Resolution
import SymbolView.Proofs.SymbolTable.ClassNames
import SymbolView.Proofs.SymbolTable.Growth
import SymbolView.Proofs.Classifier.References
import SymbolView.Proofs.Text.Lines
import SymbolView.Proofs.DocComment.Layout
import SymbolView.Proofs.LineIndex.Lookup
import SymbolView.Proofs.QualifiedName.Segments
