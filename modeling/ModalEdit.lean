import ModalEdit.Engine
import ModalEdit.Main
import ModalEdit.Proofs.RegisterWrite
import ModalEdit.Proofs.LinewiseRegister
import ModalEdit.Proofs.LinewiseEdit
import ModalEdit.Proofs.DeletionLanding
import ModalEdit.Proofs.CountedLines
import ModalEdit.Proofs.Charwise
import ModalEdit.Proofs.UndoAll
import ModalEdit.Proofs.UndoEdit
import ModalEdit.Proofs.DotRepeat
import ModalEdit.Proofs.Outcome
import ModalEdit.Proofs.Text.Breaks
import ModalEdit.Proofs.WantedColumn
import ModalEdit.Proofs.ClipboardQueue
import ModalEdit.Proofs.OperatorKeys
import ModalEdit.Proofs.Meaning
import ModalEdit.Proofs.PendingKeys
import ModalEdit.Proofs.Capture
import ModalEdit.Proofs.HostSync
import ModalEdit.Proofs.KeyScript
import ModalEdit.Proofs.Revision
import ModalEdit.Proofs.Isolation
import ModalEdit.Proofs.Escape
import ModalEdit.Proofs.BrokenClipboard
import ModalEdit.Proofs.Replay
import ModalEdit.Proofs.WordDeletion
import ModalEdit.Proofs.Nesting
import ModalEdit.Proofs.Pasting
import ModalEdit.Proofs.CountedInsertion
import ModalEdit.Proofs.Checked.Engine
import ModalEdit.Proofs.Partner
import ModalEdit.Proofs.VerticalMotion
import ModalEdit.Proofs.WordMotion
import ModalEdit.Proofs.CountedMotion
import ModalEdit.Proofs.RepeatedFind
import ModalEdit.Proofs.QuotePairs
import ModalEdit.Proofs.WordRuns
import ModalEdit.Proofs.Joining
import ModalEdit.Proofs.Timeline
import ModalEdit.Proofs.NewEdits
import ModalEdit.Proofs.Anchor
import ModalEdit.Proofs.SelectedMotion
import ModalEdit.Proofs.RegisterLaws
import ModalEdit.Proofs.ClipboardRefresh
import ModalEdit.Proofs.Opening
import ModalEdit.Proofs.CountedDeletion
import ModalEdit.Proofs.ParagraphEdges
import ModalEdit.Proofs.Text.Splices
import ModalEdit.Motion.Primitive
import ModalEdit.Proofs.Checked.Primitive
import ModalEdit.Proofs.Translator
