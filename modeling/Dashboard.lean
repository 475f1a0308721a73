import Dashboard.Main
import Dashboard.Proofs.BoxWords
import Dashboard.Proofs.Calls
import Dashboard.Proofs.Completion
import Dashboard.Proofs.Concatenation
import Dashboard.Proofs.CursorNumbers
import Dashboard.Proofs.Cuts
import Dashboard.Proofs.Dependence
import Dashboard.Proofs.Independence
import Dashboard.Proofs.LineEnds
import Dashboard.Proofs.PartialLayouts
import Dashboard.Proofs.Positions
import Dashboard.Proofs.Preservation
import Dashboard.Proofs.Progress
import Dashboard.Proofs.Reordering
import Dashboard.Proofs.Rerun
import Dashboard.Proofs.ServerLists
import Dashboard.Proofs.ServerRuns
import Dashboard.Proofs.Sessions
import Dashboard.Proofs.Summaries
