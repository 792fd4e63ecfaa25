import StudyTime.Cache.Numbers
import StudyTime.Cache.Run
import StudyTime.Database.Dialogue
import StudyTime.Database.Rows
import StudyTime.Database.Run
import StudyTime.Service.Installation
import StudyTime.SettingsFile
import StudyTime.Tracker.Fields
import StudyTime.Proofs.Json.Codecs
import StudyTime.Proofs.Json.Members
import StudyTime.Proofs.Json.Schemas
import StudyTime.Proofs.Json.Tolerance
import StudyTime.Proofs.Json.Torn
import StudyTime.Proofs.TextOrder
import StudyTime.Proofs.SessionId
import StudyTime.Proofs.TimeOfDay
import StudyTime.Proofs.Documents
import StudyTime.Proofs.LocalTime
import StudyTime.Proofs.SettingsFile
import StudyTime.Proofs.Cache.Batches
import StudyTime.Proofs.Cache.Coherence
import StudyTime.Proofs.Cache.Faithful
import StudyTime.Proofs.Cache.Outcomes
import StudyTime.Proofs.Cache.Atomicity
import StudyTime.Proofs.Cache.Held
import StudyTime.Proofs.Cache.Unreadable
import StudyTime.Proofs.PartialDocuments
import StudyTime.Proofs.TornDocuments
import StudyTime.Proofs.Service.Book
import StudyTime.Proofs.Service.History
import StudyTime.Proofs.Service.Onlookers
import StudyTime.Proofs.Service.Reference
import StudyTime.Proofs.Service.Views
import StudyTime.Proofs.Service.Systems
import StudyTime.Proofs.Service.Isolation
import StudyTime.Proofs.Service.Deletion
import StudyTime.Proofs.Service.Reopening
import StudyTime.Proofs.Service.Cooldown
import StudyTime.Proofs.Service.Gating
import StudyTime.Proofs.Service.Arithmetic
import StudyTime.Proofs.Service.Finishing
import StudyTime.Proofs.Service.DailyWindow
import StudyTime.Proofs.Tracker.Windows
import StudyTime.Proofs.Tracker.Conservation
import StudyTime.Proofs.Database.Migrations
import StudyTime.Proofs.Database.Rows
import StudyTime.Proofs.Postings
