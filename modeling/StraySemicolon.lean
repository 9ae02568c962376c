import StraySemicolon.Tree
import StraySemicolon.Tree.Cursor
import StraySemicolon.Tree.Parents
import StraySemicolon.ConcreteTree
import StraySemicolon.Kind
import StraySemicolon.SyntaxTree
import StraySemicolon.Scope
import StraySemicolon.Text.Utf8
import StraySemicolon.Text.Printable
import StraySemicolon.Text.Quoted
import StraySemicolon.Parser
import StraySemicolon.Issue
import StraySemicolon.Check
import StraySemicolon.Check.MemberSemicolon
import StraySemicolon.Check.Registry
import StraySemicolon.Walk
import StraySemicolon.Lint
import StraySemicolon.Source.Token
import StraySemicolon.Source.Piece
import StraySemicolon.Source.Code
import StraySemicolon.Source.Member
import StraySemicolon.Source.Reader
import StraySemicolon.Path
import StraySemicolon.Disk
import StraySemicolon.Config
import StraySemicolon.Discovery
import StraySemicolon.FileLint
import StraySemicolon.Disk.Memory
import StraySemicolon.Text.Digit
import StraySemicolon.Arguments
import StraySemicolon.CommandLine
import StraySemicolon.Main
import StraySemicolon.Proofs.Conversion
import StraySemicolon.Proofs.TypeBody
import StraySemicolon.Proofs.Walker
import StraySemicolon.Proofs.KeptPlaces
import StraySemicolon.Proofs.StraySemicolons
import StraySemicolon.Proofs.Context
import StraySemicolon.Proofs.Isolation
import StraySemicolon.Proofs.Declarations
import StraySemicolon.Proofs.Transparency
import StraySemicolon.Proofs.Pruning
import StraySemicolon.Proofs.Repair
import StraySemicolon.Proofs.Relabelling
import StraySemicolon.Proofs.Selection
import StraySemicolon.Proofs.Reformatting
import StraySemicolon.Proofs.Search
import StraySemicolon.Proofs.RunReport
import StraySemicolon.Proofs.MemoryLookup
import StraySemicolon.Proofs.Containment
import StraySemicolon.Proofs.PathByPath
import StraySemicolon.Proofs.Discovery
import StraySemicolon.Proofs.Links
import StraySemicolon.Proofs.LinkedConversion
import StraySemicolon.Proofs.Insertion
import StraySemicolon.Proofs.ExtraSemicolon
import StraySemicolon.Proofs.SourceOrder
import StraySemicolon.Proofs.CheckLists
import StraySemicolon.Proofs.NearestScope
import StraySemicolon.Proofs.Decoding
import StraySemicolon.Proofs.LintTrace
import StraySemicolon.Proofs.Quoting
import StraySemicolon.Proofs.WarningLines
import StraySemicolon.Proofs.Traversal
import StraySemicolon.Proofs.ReportLines
import StraySemicolon.Proofs.NormalPath
import StraySemicolon.Proofs.OptionWords
import StraySemicolon.Proofs.ArgumentRoundTrip
import StraySemicolon.Proofs.Encoding
