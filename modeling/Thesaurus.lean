import Thesaurus.Text.Characters
import Thesaurus.Text.Cut
import Thesaurus.Number.Binary64
import Thesaurus.Table
import Thesaurus.Json.Value
import Thesaurus.Json.Problem
import Thesaurus.Json.Token
import Thesaurus.Json.Tree
import Thesaurus.Json.Decode
import Thesaurus.Json.Records
import Thesaurus.Term.Basic
import Thesaurus.Registry
import Thesaurus.Edge
import Thesaurus.Store.Basic
import Thesaurus.Store.TermGraph
import Thesaurus.Store.IndexedGraph
import Thesaurus.Store.Ordered
import Thesaurus.Store.Failing
import Thesaurus.Relations
import Thesaurus.Neighbourhood
import Thesaurus.Sheet.Import
import Thesaurus.Rdf.Vocabulary
import Thesaurus.Rdf.TripleSet
import Thesaurus.Rdf.IndexedTriples
import Thesaurus.Rdf.Documents
import Thesaurus.Rdf.Scheme
import Thesaurus.Sheet.Document
import Thesaurus.Files.Tree
import Thesaurus.Message.Request
import Thesaurus.Message.Response
import Thesaurus.Message.Engine
import Thesaurus.CommandLine.Rules
import Thesaurus.CommandLine.Help
import Thesaurus.CommandLine.Read
import Thesaurus.Project.Settings
import Thesaurus.Project.Workspace
import Thesaurus.Project.Command
import Thesaurus.Project.Interface
import Thesaurus.Main
import Thesaurus.Proofs.Computation
import Thesaurus.Proofs.Registry.Acceptance
import Thesaurus.Proofs.Registry.WellFormed
import Thesaurus.Proofs.Pairing
import Thesaurus.Proofs.Store.Batch
import Thesaurus.Proofs.Store.View
import Thesaurus.Proofs.Store.Lawful
import Thesaurus.Proofs.Store.Memory
import Thesaurus.Proofs.Store.Keys
import Thesaurus.Proofs.Store.Ordered
import Thesaurus.Proofs.Store.Backend
import Thesaurus.Proofs.Store.Terms
import Thesaurus.Proofs.Store.Usage
import Thesaurus.Proofs.Store.EdgeOrder
import Thesaurus.Proofs.Store.Agreement
import Thesaurus.Proofs.Store.Piecemeal
import Thesaurus.Proofs.Relations.Requests
import Thesaurus.Proofs.Relations.Invariants
import Thesaurus.Proofs.Relations.Retry
import Thesaurus.Proofs.Relations.GlossaryPolicy
import Thesaurus.Proofs.Neighbourhood.Hops
import Thesaurus.Proofs.Neighbourhood.Search
import Thesaurus.Proofs.Neighbourhood.Exact
import Thesaurus.Proofs.Neighbourhood.Growth
import Thesaurus.Proofs.Neighbourhood.Connected
import Thesaurus.Proofs.Neighbourhood.Cap
import Thesaurus.Proofs.Message.Engine
import Thesaurus.Proofs.Session
import Thesaurus.Proofs.Store.Growth
import Thesaurus.Proofs.Wholes
import Thesaurus.Proofs.Sheet.Row
import Thesaurus.Proofs.Sheet.Import
import Thesaurus.Proofs.Sheet.Csv
import Thesaurus.Proofs.Sheet.Cell
import Thesaurus.Proofs.Store.Directory
import Thesaurus.Proofs.Sheet.Document
import Thesaurus.Proofs.Session.Terms
import Thesaurus.Proofs.Sheet.Restore
import Thesaurus.Proofs.Registry.Replacement
import Thesaurus.Proofs.Session.Types
import Thesaurus.Proofs.Store.Names
import Thesaurus.Proofs.Session.Names
import Thesaurus.Proofs.Store.Purge
import Thesaurus.Proofs.Rdf.Scheme
import Thesaurus.Proofs.Deleted
import Thesaurus.Proofs.Rearrangement
import Thesaurus.Proofs.Relations.Commuting
import Thesaurus.Proofs.Store.Removal
import Thesaurus.Proofs.Message.Frame
import Thesaurus.Proofs.Rdf.Tokens
import Thesaurus.Proofs.Rdf.TripleSet
import Thesaurus.Proofs.Rdf.Reading
import Thesaurus.Proofs.Rdf.Nodes
import Thesaurus.Proofs.Rdf.Related
import Thesaurus.Proofs.Session.Hierarchy
import Thesaurus.Proofs.Rdf.Tags
import Thesaurus.Proofs.Rdf.QualifiedNames
import Thesaurus.Proofs.Rdf.ElementNames
import Thesaurus.Proofs.Json.Tokens
import Thesaurus.Proofs.Json.Reading
import Thesaurus.Proofs.Json.Records
import Thesaurus.Proofs.Files.Tree
import Thesaurus.Proofs.Project.Settings
import Thesaurus.Proofs.Store.OneByOne
import Thesaurus.Proofs.Neighbourhood.Listing
import Thesaurus.Proofs.Store.Noting
import Thesaurus.Proofs.Neighbourhood.Queue
import Thesaurus.Proofs.Relations.Converging
import Thesaurus.Proofs.Relations.AnyEdges
import Thesaurus.Proofs.Relations.EitherSide
import Thesaurus.Proofs.Sheet.AnyOrder
import Thesaurus.Proofs.Session.Balance
import Thesaurus.Proofs.Store.Scans
import Thesaurus.Proofs.Session.NamesAlike
import Thesaurus.Proofs.Rdf.Resolution
import Thesaurus.Proofs.Rdf.Subjects
import Thesaurus.Proofs.Store.KeyBytes
import Thesaurus.Proofs.Store.Indexes
import Thesaurus.Proofs.Store.Mirrored
import Thesaurus.Proofs.Rdf.IndexedTriples
import Thesaurus.Proofs.Session.NameEntries
