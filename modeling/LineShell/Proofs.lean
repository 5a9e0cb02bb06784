import LineShell.Proofs.Line.Quoting
import LineShell.Proofs.Word.Grammar
import LineShell.Proofs.Word.Sites
import LineShell.Proofs.Line.Assignments
import LineShell.Proofs.Registry.Contents
import LineShell.Proofs.Registry.Topics
import LineShell.Proofs.Registry.Discovery
import LineShell.Proofs.Class.Lineage
import LineShell.Proofs.Registry.Inheritance
import LineShell.Proofs.Logging
import LineShell.Proofs.History.File
import LineShell.Proofs.RcFile.Merging
import LineShell.Proofs.RcFile.Writing
import LineShell.Proofs.RcFile.Loading
import LineShell.Proofs.RcFile.Accounting
import LineShell.Proofs.RcFile.Layout
import LineShell.Proofs.RcFile.Keys
import LineShell.Proofs.RcFile.Sources
import LineShell.Proofs.Session.Returns
import LineShell.Proofs.Session.Reference
import LineShell.Proofs.Session.Scope
import LineShell.Proofs.Session.Unnoticed
import LineShell.Proofs.Session.Admission
import LineShell.Proofs.Session.Observers
import LineShell.Proofs.Session.SessionEnds
import LineShell.Proofs.Session.Routing
import LineShell.Proofs.Session.Interruption
import LineShell.Proofs.Session.Life
import LineShell.Proofs.Session.Blocks
import LineShell.Proofs.Session.Threading
import LineShell.Proofs.Session.Composition
import LineShell.Proofs.History.Damage
import LineShell.Proofs.History.Listing
import LineShell.Proofs.Session.Completion
import LineShell.Proofs.Session.EmptyLine
import LineShell.Proofs.Session.Escape
import LineShell.Proofs.Reader
import LineShell.Proofs.Session.Help
import LineShell.Proofs.Session.Variables
