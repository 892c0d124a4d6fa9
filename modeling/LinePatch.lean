import LinePatch.Command.Execute
import LinePatch.Document.Reader
import LinePatch.Document.Writer
import LinePatch.Json.Reader
import LinePatch.Main
import LinePatch.Proofs.Document.BareLines
import LinePatch.Proofs.Document.Image
import LinePatch.Proofs.Document.MissingEnd
import LinePatch.Proofs.Reply
import LinePatch.Proofs.Hunk.Balance
import LinePatch.Proofs.Hunk.Fitting
import LinePatch.Proofs.Hunk.Reach
import LinePatch.Proofs.Hunk.Report
import LinePatch.Proofs.Command.DryRun
import LinePatch.Proofs.Apply.Actions
import LinePatch.Proofs.Apply.Lines
import LinePatch.Proofs.Apply.Order
import LinePatch.Proofs.Apply.Passes
import LinePatch.Proofs.Apply.StrictMode
import LinePatch.Proofs.Apply.Trace
import LinePatch.Proofs.Command.Atomicity
import LinePatch.Proofs.Command.Reports
import LinePatch.Proofs.Command.Frame
import LinePatch.Proofs.Command.Agreement
import LinePatch.Proofs.Reply.Embedding
import LinePatch.Proofs.Reply.Target
import LinePatch.Proofs.Tree.Confined
import LinePatch.Proofs.Apply.Rejoining
