import FestivalPlanner.Sync.TempIds
import FestivalPlanner.Sync.DrainPass
import FestivalPlanner.Server.OneHandler
import FestivalPlanner.Server.RoleCache
import FestivalPlanner.Server.AuditLog
import FestivalPlanner.Server.UserIsolation
import FestivalPlanner.Server.SqlScripts
import FestivalPlanner.Server.Migrations
import FestivalPlanner.Sync.StrandedEntries
import FestivalPlanner.Sync.CoalescedWrites
import FestivalPlanner.Sync.BridgeReplay
import FestivalPlanner.Ledger.PaidPlan
import FestivalPlanner.Ledger.SoundPlan
import FestivalPlanner.Lineup.StageOverlaps
import FestivalPlanner.Crews.PollVotes
import FestivalPlanner.Crews.CreationLimits
import FestivalPlanner.Crews.ReformHistory
import FestivalPlanner.Crews.LiveSharing
import FestivalPlanner.Crews.LosingCrew
import FestivalPlanner.Crews.MemberStatuses
import FestivalPlanner.Crews.ActivityLog
import FestivalPlanner.Crews.CrewLists
import FestivalPlanner.Schedule.LocalReminders
import FestivalPlanner.Schedule.Surfaces
import FestivalPlanner.Auth.PasswordChange
import FestivalPlanner.Auth.SessionCap
import FestivalPlanner.Auth.Reactivation
import FestivalPlanner.Auth.RefreshLifetime
import FestivalPlanner.Auth.PasswordReset
import FestivalPlanner.Auth.SingleUse
import FestivalPlanner.Auth.EmailLinks
import FestivalPlanner.Lineup.IfMatch
import FestivalPlanner.Lineup.InsertStatements
import FestivalPlanner.Crews.SetPolls
import FestivalPlanner.Notifications.PushAgreement
import FestivalPlanner.Notifications.Reengagement
import FestivalPlanner.Notifications.ReminderScheduler
import FestivalPlanner.Server.CacheInvalidation
import FestivalPlanner.Realtime.CrewRooms
import FestivalPlanner.Realtime.Presence
import FestivalPlanner.Realtime.Revocation
import FestivalPlanner.Realtime.SharingCap
import FestivalPlanner.Realtime.Markers
import FestivalPlanner.Crews.SosAlerts
import FestivalPlanner.Lineup.PartialUpdate
import FestivalPlanner.Auth.ClientSession
import FestivalPlanner.Auth.PersistedSession
import FestivalPlanner.Lineup.FestivalStore
import FestivalPlanner.Sync.UserSwitch
import FestivalPlanner.Sync.SubmittedOnce
import FestivalPlanner.Sync.PickSync
import FestivalPlanner.Schedule.CalendarText
import FestivalPlanner.Share.SnapshotBytes
import FestivalPlanner.Share.SimultaneousExport
import FestivalPlanner.Realtime.ProfileBroadcasts
import FestivalPlanner.Server.UserTasks
import FestivalPlanner.Notifications.RetryQueue
import FestivalPlanner.Crews.MeetingPoints
import FestivalPlanner.Notifications.TokenRegistry
import FestivalPlanner.Schedule.CalendarFeed
import FestivalPlanner.Server.MemoryLimiters
import FestivalPlanner.Server.Pagination
import FestivalPlanner.Server.LogRedaction
import FestivalPlanner.Realtime.LiveLocationStore
import FestivalPlanner.Schedule.RatedHours
import FestivalPlanner.Schedule.CrewNudges
import FestivalPlanner.Sync.Hysteresis
import FestivalPlanner.Sync.OfflineReadiness
import FestivalPlanner.Schedule.ReminderRanks
import FestivalPlanner.Sync.BasemapCache
