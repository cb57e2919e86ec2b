import PairAnnotation.Config.Json
import PairAnnotation.Main
import PairAnnotation.Proofs.PairSet.Words
import PairAnnotation.Proofs.Session.Candidates
import PairAnnotation.Proofs.Session.Dangling
import PairAnnotation.Proofs.Session.FailedLabel
import PairAnnotation.Proofs.Session.Reopening
import PairAnnotation.Proofs.Session.Runs
import PairAnnotation.Proofs.Session.Words
import PairAnnotation.Proofs.Writer.Label
import PairAnnotation.Proofs.Writer.Losses
import PairAnnotation.Proofs.Writer.Recovery
import PairAnnotation.Store.Guarded
import PairAnnotation.Proofs.PairSet.Register
import PairAnnotation.Proofs.PairSet.Round
import PairAnnotation.Proofs.PairSet.LastLabels
import PairAnnotation.Proofs.PairSet.Placeholders
import PairAnnotation.Proofs.Writer.Commuting
import PairAnnotation.Proofs.Cursor.Partners
import PairAnnotation.Proofs.Writer.RefusedStep
import PairAnnotation.Proofs.Writer.FreshIds
import PairAnnotation.Proofs.Session.Completing
import PairAnnotation.Proofs.Writer.Repeating
import PairAnnotation.Proofs.PairSet.Warnings
import PairAnnotation.Proofs.Text.ByteOffsets
import PairAnnotation.Proofs.Document.Deleting
import PairAnnotation.Proofs.PairSet.Linked
import PairAnnotation.Proofs.Session.Statistics
import PairAnnotation.Proofs.Session.FoundAgain
import PairAnnotation.Proofs.EditLoop.Searches
import PairAnnotation.Proofs.EditLoop.TypedTags
import PairAnnotation.Proofs.Project.Heading
import PairAnnotation.Proofs.Progress.BarWidth
import PairAnnotation.Proofs.Config.Saved
