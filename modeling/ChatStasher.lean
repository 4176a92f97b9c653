import ChatStasher.Collect.ExactSeal
import ChatStasher.Collect.OwnArchive
import ChatStasher.Collect.WholeFile
import ChatStasher.Archive.ProvenRemovals
import ChatStasher.Publish.AtomicPublish
import ChatStasher.Backfill.StopAndResume
import ChatStasher.Outbox.DrainReport
import ChatStasher.Mirror.Coverage
import ChatStasher.Mirror.CopyOnce
import ChatStasher.Mirror.Transparent
import ChatStasher.NativeHost.IdentityGate
import ChatStasher.Activity.WholeBodies
import ChatStasher.Push.NamedBeforeSnapshot
import ChatStasher.Push.PackVerdicts
import ChatStasher.RunOnce.QuietPass
import ChatStasher.Verify.PushedSessions
import ChatStasher.Inbox.InstallIdentity
import ChatStasher.Inbox.ProvenRetirement
import ChatStasher.Delivery.Agreement
import ChatStasher.Delivery.ReportStamps
import ChatStasher.Deletion.Tombstones
import ChatStasher.Deletion.NewestCopy
import ChatStasher.Deletion.AppendEvent
import ChatStasher.Fulltext.MergedIndex
import ChatStasher.Fulltext.Rebuild
import ChatStasher.GrokBot.LatestWords
import ChatStasher.GrokBot.DebtMigration
import ChatStasher.Backfill.NeverRefetched
import ChatStasher.Mirror.LeastRecentlyUsed
import ChatStasher.Collect.Coverage
import ChatStasher.Collect.FreshDigests
import ChatStasher.Collect.RacedCursor
import ChatStasher.Provenance.SessionSidecar
import ChatStasher.Export.InPlace
import ChatStasher.Readback.FoldedShards
import ChatStasher.Search.SpreadSessions
import ChatStasher.Backfill.FairRotation
import ChatStasher.Backfill.DaySlowBrake
import ChatStasher.Backfill.SharedLease
import ChatStasher.Backfill.RecordedFacts
import ChatStasher.Backfill.BatchFrames
import ChatStasher.Backfill.GeminiRefusal
import ChatStasher.Export.FilterSpec
import ChatStasher.Inbox.RawFallback
import ChatStasher.Backfill.RequestGate
import ChatStasher.Backfill.LedgerRecovery
import ChatStasher.Opencode.Views
import ChatStasher.Search.LocalDay
import ChatStasher.Inbox.FaithfulNames
import ChatStasher.Import.ChatgptReaderSpec
import ChatStasher.Normalize.FollowsCapture
import ChatStasher.Backfill.ScopeMerge
import ChatStasher.Backfill.TabRegistrySpec
