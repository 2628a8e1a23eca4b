import OfflineSchedule.Main
import OfflineSchedule.Retry.Timeline
import OfflineSchedule.Turns.Scenario
import OfflineSchedule.Proofs.Sync.Part
import OfflineSchedule.Proofs.Sync.Run
import OfflineSchedule.Proofs.Sync.Isolation
import OfflineSchedule.Proofs.Sync.Supersession
import OfflineSchedule.Proofs.Sync.Offline
import OfflineSchedule.Proofs.Json.Written
import OfflineSchedule.Proofs.Schedule.Stored
import OfflineSchedule.Proofs.Cache.Envelope
import OfflineSchedule.Proofs.Time.Calendar
import OfflineSchedule.Proofs.Time.Rfc3339
import OfflineSchedule.Proofs.Time.Shown
import OfflineSchedule.Proofs.Schedule.Live
import OfflineSchedule.Proofs.Sync.Coherence
import OfflineSchedule.Proofs.Sync.Permanence
import OfflineSchedule.Proofs.Sync.Provenance
import OfflineSchedule.Proofs.Sync.LastReload
import OfflineSchedule.Proofs.Sync.Retries
import OfflineSchedule.Proofs.Sync.Allowance
import OfflineSchedule.Proofs.Sync.Retrying
import OfflineSchedule.Proofs.Sync.OneByOne
import OfflineSchedule.Proofs.Sync.Restart
import OfflineSchedule.Proofs.Convention.Run
import OfflineSchedule.Proofs.Convention.Restart
import OfflineSchedule.Proofs.Sync.Alike
import OfflineSchedule.Proofs.Convention.Apart
import OfflineSchedule.Proofs.Turns.Run
import OfflineSchedule.Proofs.Turns.Regular
import OfflineSchedule.Proofs.Turns.Strand
import OfflineSchedule.Proofs.Turns.Turn
import OfflineSchedule.Proofs.Turns.Spares
import OfflineSchedule.Proofs.Turns.Follower
import OfflineSchedule.Proofs.Turns.Switches
import OfflineSchedule.Proofs.Watch.Run
import OfflineSchedule.Proofs.Watch.Header
import OfflineSchedule.Proofs.Watch.Inbox
import OfflineSchedule.Proofs.Watch.Lines
import OfflineSchedule.Proofs.Client.Run
import OfflineSchedule.Proofs.Client.Local
import OfflineSchedule.Proofs.Client.Agreement
import OfflineSchedule.Proofs.Sync.Confirmation
import OfflineSchedule.Proofs.Sync.Activation
import OfflineSchedule.Proofs.Convention.Summary
import OfflineSchedule.Proofs.Sync.Reactivation
import OfflineSchedule.Proofs.Sync.Unswitched
import OfflineSchedule.Proofs.Turns.News
import OfflineSchedule.Proofs.Watch.Display
import OfflineSchedule.Proofs.Sync.Refresh
import OfflineSchedule.Proofs.Cache.Keys
import OfflineSchedule.Proofs.Schedule.RoundTrip
import OfflineSchedule.Proofs.Cache.Header
import OfflineSchedule.Proofs.Retry.Triggers
import OfflineSchedule.Proofs.Sync.Backoff
import OfflineSchedule.Proofs.Sync.Revalidation
import OfflineSchedule.Proofs.Cache.Quota
import OfflineSchedule.Proofs.Convention.Clear
import OfflineSchedule.Proofs.Json.Numeral
import OfflineSchedule.Proofs.Json.Grammar
import OfflineSchedule.Proofs.Json.Spelling
import OfflineSchedule.Proofs.Http.Answer
import OfflineSchedule.Proofs.Url.Percent
import OfflineSchedule.Proofs.Url.Path
import OfflineSchedule.Proofs.Http.Endpoint
import OfflineSchedule.Proofs.Http.Names
import OfflineSchedule.Proofs.Arrangement
import OfflineSchedule.Proofs.Summary
import OfflineSchedule.Proofs.Text.Words
import OfflineSchedule.Proofs.Command
import OfflineSchedule.Proofs.Retry.Delay
