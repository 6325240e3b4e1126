import GraphQL.Diagnostic.Catalog
import GraphQL.Document.Record
import GraphQL.Main
import GraphQL.MultiMap.View
import GraphQL.Recovery.Grammar
import GraphQL.Token.Buffer
import GraphQL.Token.StringValue
import GraphQL.Proofs.Layout.Document
import GraphQL.Proofs.Layout.Relocated
import GraphQL.Proofs.Document.Leading
import GraphQL.Proofs.Document.Marks
import GraphQL.Proofs.Command.Format
import GraphQL.Proofs.Recovery.Grammar
import GraphQL.Proofs.Production.Conservation
import GraphQL.Proofs.Production.Parse
import GraphQL.Proofs.Document.Genuine
import GraphQL.Proofs.Document.Site
import GraphQL.Proofs.Database.Index
import GraphQL.Proofs.Inference.Agreement
import GraphQL.Proofs.Inference.Simulation
import GraphQL.Proofs.Dependency.Closure
import GraphQL.Proofs.Workspace.Coherence
import GraphQL.Proofs.Workspace.Rebuild
import GraphQL.Proofs.Workspace.Snapshot
import GraphQL.Proofs.Database.Origin
import GraphQL.Proofs.Inference.Names
import GraphQL.Proofs.Workspace.Names
import GraphQL.Proofs.Document.WellFormed
import GraphQL.Proofs.Production.Lead
import GraphQL.Proofs.Production.Terminal
import GraphQL.Proofs.Production.Type
import GraphQL.Proofs.Production.Operation
import GraphQL.Proofs.Production.TypeSystem
import GraphQL.Proofs.Production.Document
import GraphQL.Proofs.Workspace.Consistency
import GraphQL.Proofs.Dependency.Reach
import GraphQL.Proofs.Workspace.Invalidation
import GraphQL.Proofs.Nesting.Counter
import GraphQL.Proofs.Nesting.Operation
import GraphQL.Proofs.Nesting.TypeSystem
import GraphQL.Proofs.Nesting.Limit
import GraphQL.Proofs.Relocation.Operation
import GraphQL.Proofs.Relocation.TypeSystem
import GraphQL.Proofs.Relocation.Report
import GraphQL.Proofs.Token.Joined
import GraphQL.Proofs.Production.Isolation
import GraphQL.Proofs.Production.Placement
import GraphQL.Proofs.Inference.Footprint
import GraphQL.Proofs.Inference.Scoped
import GraphQL.Proofs.Relocation.Placeless
import GraphQL.Proofs.Inference.Relocated
import GraphQL.Proofs.Database.Relocated
import GraphQL.Proofs.Inference.Referenced
import GraphQL.Proofs.Workspace.Edges
import GraphQL.Proofs.Workspace.History
import GraphQL.Proofs.Token.Extent
import GraphQL.Proofs.Token.Tiling
import GraphQL.Proofs.Token.Number
import GraphQL.Proofs.Token.Respaced
import GraphQL.Proofs.Production.Begun
import GraphQL.Proofs.Token.Escape
import GraphQL.Proofs.Token.BlockString
import GraphQL.Proofs.Database.Lookups
import GraphQL.Proofs.Dependency.Avoidance
import GraphQL.Proofs.Database.Roots
import GraphQL.Proofs.Database.Implementations
import GraphQL.Proofs.Inference.Spreads
import GraphQL.Proofs.Database.Links
import GraphQL.Proofs.Document.Traversal
import GraphQL.Proofs.Document.Spans
import GraphQL.Proofs.Dependency.Erasure
import GraphQL.Proofs.Dependency.Renaming
import GraphQL.Proofs.Diagnostic.Report
import GraphQL.Proofs.Recovery.Landing
import GraphQL.Proofs.Workspace.Texts
import GraphQL.Proofs.Command.Check
