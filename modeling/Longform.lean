import Longform.Format
import Longform.Main
import Longform.Store.Memory
import Longform.Proofs.Failures
import Longform.Proofs.Descent
import Longform.Proofs.Transparency
import Longform.Proofs.Substitution
import Longform.Proofs.Elimination
import Longform.Proofs.ReadingOrder
import Longform.Proofs.Limit
import Longform.Proofs.Calls
import Longform.Proofs.Acyclic
import Longform.Proofs.Levels
import Longform.Proofs.Selection
import Longform.Proofs.Reads
import Longform.Proofs.Folders
import Longform.Proofs.Outline
import Longform.Proofs.Writes
import Longform.Proofs.RegionsApart
import Longform.Proofs.Listing
import Longform.Proofs.StoresAgree
import Longform.Proofs.Snapshots
import Longform.Proofs.Balance
import Longform.Proofs.InlineText
import Longform.Proofs.FirstNotes
import Longform.Proofs.FoundSections
import Longform.Proofs.BodyHeading
import Longform.Proofs.Placeholders
import Longform.Proofs.Division
import Longform.Proofs.EmbedSites
import Longform.Proofs.FailedEmbeds
import Longform.Proofs.NestedSpans
import Longform.Proofs.EscapedStars
import Longform.Proofs.LetterCase
import Longform.Proofs.Formulas
import Longform.Proofs.ItemLabels
import Longform.Proofs.EscapedText
import Longform.Proofs.LinkParts
import Longform.Proofs.ClosedBlocks
import Longform.Proofs.NotesAndImages
import Longform.Proofs.BodyShape
import Longform.Proofs.SavedConfig
