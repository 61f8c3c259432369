import Graft.Main
import Graft.Proofs.Scan.Lines
import Graft.Proofs.Scan.Reading
import Graft.Scan.WholeText
import Graft.Proofs.Scan.OnePass
import Graft.Proofs.Scan.Segments
import Graft.Proofs.Text.Occurrence
import Graft.Proofs.Scan.Search
import Graft.Proofs.Scan.Splice
import Graft.Proofs.Scan.Insertion
import Graft.Proofs.Scan.BuiltIn
import Graft.Proofs.Config.Template
import Graft.Proofs.Injection.Declaration
import Graft.Proofs.Text.Blank
import Graft.Proofs.Injection.Appending
import Graft.Proofs.Injection.Run
import Graft.Proofs.Scan.Commented
import Graft.Proofs.Scan.Stripping
import Graft.Proofs.Text.Boundary
import Graft.Proofs.Scan.WellFormed
import Graft.Proofs.Scan.Leftmost
import Graft.Proofs.File.Tree
import Graft.Proofs.File.Path
import Graft.Proofs.File.Walk
import Graft.Proofs.File.View
import Graft.Proofs.File.Replacement
import Graft.Proofs.Script.Saving
import Graft.Proofs.Script.Session
import Graft.Proofs.Except
import Graft.Proofs.Guard
import Graft.Proofs.Command.Inject
import Graft.Proofs.Scan.Kept
import Graft.Proofs.Config.Lexicon
import Graft.Proofs.Scan.Following
import Graft.Proofs.Injection.Visible
import Graft.Proofs.Toml.Record
import Graft.Proofs.Config.Overlay
import Graft.Proofs.Config.Loading
import Graft.Proofs.Guard.Changing
import Graft.Proofs.Injection.Decision
import Graft.Proofs.Script.Saved
import Graft.Proofs.Injection.Artifact
import Graft.Proofs.Scan.BehindCode
import Graft.Proofs.Injection.Ensuring
import Graft.Proofs.Text.Substitution
import Graft.Proofs.Config.Filling
import Graft.Proofs.Config.Settings
import Graft.Proofs.Config.Accepted
import Graft.Proofs.Guard.Verdict
import Graft.Proofs.Dependency
import Graft.Proofs.Scan.Overlap
import Graft.Proofs.Scan.Composition
import Graft.Scan.Cursor
import Graft.Proofs.Scan.OnLine
import Graft.Proofs.Scan.Cursor
import Graft.Proofs.File.Reading
import Graft.Proofs.Config.Resolution
import Graft.Proofs.File.Components
import Graft.Proofs.File.Names
import Graft.Proofs.Script.Discovery
