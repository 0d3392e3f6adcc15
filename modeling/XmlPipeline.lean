import XmlPipeline.Proofs.Insertion
import XmlPipeline.Proofs.Operations
import XmlPipeline.Proofs.Blame
import XmlPipeline.Proofs.Rereading
import XmlPipeline.Proofs.Typing
import XmlPipeline.Proofs.Shape
import XmlPipeline.Proofs.Script
import XmlPipeline.Proofs.Stopping
import XmlPipeline.Proofs.Exit
import XmlPipeline.Proofs.Flags
import XmlPipeline.Proofs.Quiet
import XmlPipeline.Proofs.Spellings
import XmlPipeline.Proofs.Reporting
import XmlPipeline.Proofs.Completion
import XmlPipeline.Proofs.Unquoting
import XmlPipeline.Proofs.Rebasing
import XmlPipeline.Proofs.Lines
import XmlPipeline.Proofs.Trimming
import XmlPipeline.Proofs.Delimiters
import XmlPipeline.Proofs.Outputs
import XmlPipeline.Proofs.Selection
import XmlPipeline.Proofs.Indentation
import XmlPipeline.Proofs.Dumping
import XmlPipeline.Proofs.Lookahead
import XmlPipeline.Proofs.EventLoop
import XmlPipeline.Proofs.Operands
import XmlPipeline.Proofs.Shorthand
import XmlPipeline.Proofs.Labels
import XmlPipeline.Proofs.Endings
import XmlPipeline.Proofs.Stripping
import XmlPipeline.Text.Width
import XmlPipeline.Program.Parse
import XmlPipeline.Program.Outline
import XmlPipeline.Files.Change
import XmlPipeline.Run.Session
import XmlPipeline.Suite.Report
import XmlPipeline.Log.Filter
import XmlPipeline.Diagnostic.Snippet
import XmlPipeline.CommandLine.Invocation
import XmlPipeline.CommandLine.Inputs
import XmlPipeline.Main
import XmlPipeline.Log.Pattern.Atom
import XmlPipeline.Log.Pattern.Group
import XmlPipeline.Proofs.Endings
import XmlPipeline.Proofs.Stripping
