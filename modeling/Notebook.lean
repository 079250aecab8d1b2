import Notebook.Text.Blank
import Notebook.Text.Units
import Notebook.Buffer.Basic
import Notebook.Json.Write
import Notebook.Json.Read
import Notebook.Settings
import Notebook.Shadow
import Notebook.Kernel.Command
import Notebook.Kernel.Event
import Notebook.Decoration
import Notebook.Session.Change
import Notebook.Session.Execution
import Notebook.Lsp.Apply
import Notebook.Lsp.Location
import Notebook.Uri.Addresses
import Notebook.Deadline
import Notebook.Lsp.Document
import Notebook.Lsp.Message
import Notebook.Lsp.Readdress
import Notebook.Lsp.Publisher
import Notebook.Lsp.Relay.Answer
import Notebook.Lsp.Relay.Notice
import Notebook.Proofs.CellList.Chronicle
import Notebook.Proofs.Session.Restore
import Notebook.Proofs.Session.Editor
import Notebook.Proofs.Session.Refusal
import Notebook.Proofs.Lsp.Traffic
import Notebook.Proofs.Session.Progress
import Notebook.Proofs.Session.Typing
import Notebook.Proofs.Session.SourceUndo
import Notebook.Proofs.Lsp.RenameAnswer
import Notebook.Proofs.Lsp.ProseAnswer
import Notebook.Proofs.Lsp.Echo
import Notebook.Proofs.Lsp.HandedOn
import Notebook.Proofs.Lsp.Publication
import Notebook.Proofs.Session.UndoEnds
import Notebook.Proofs.File.Lossless
import Notebook.Proofs.Session.Reopen
import Notebook.Proofs.Lsp.CalmJob
import Notebook.Proofs.Session.Spans
import Notebook.Proofs.CellList.Account
import Notebook.Proofs.Session.Resync
import Notebook.Proofs.Lsp.SharedStarts
import Notebook.Proofs.Lsp.LineEnds
import Notebook.Proofs.Workspace.Lifetime
import Notebook.Proofs.Buffer.Tail
import Notebook.Proofs.Layout.Order
import Notebook.Proofs.Markup.Grammar
import Notebook.Proofs.Lsp.Preview
import Notebook.Proofs.Session.Retyping
import Notebook.Proofs.Session.Coalescing
import Notebook.Proofs.Session.LateReports
import Notebook.Proofs.Session.Vain
import Notebook.Proofs.Buffer.Numbering
import Notebook.Proofs.Session.Repair
import Notebook.Proofs.Lsp.Narrowing
