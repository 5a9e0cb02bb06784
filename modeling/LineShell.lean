import LineShell.Main
import LineShell.Script
import LineShell.Proofs
import LineShell.Proofs.RcFile.Accounting
import LineShell.Proofs.RcFile.Layout
import LineShell.Proofs.History.Listing
import LineShell.Proofs.Session.Escape
import LineShell.Proofs.RcFile.Sources
