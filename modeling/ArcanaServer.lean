import ArcanaServer.Api.Send
import ArcanaServer.Rooms.AppendedState
import ArcanaServer.Api.LoginRuns
import ArcanaServer.Rooms.StateAtIncoming
import ArcanaServer.Rooms.ShortRuns
import ArcanaServer.EventHandler.PrevOrder
import ArcanaServer.EventHandler.OutlierChecks
import ArcanaServer.EventHandler.ForwardExtremities
import ArcanaServer.Sync.Interleaving
import ArcanaServer.Sync.Progress
import ArcanaServer.StateRes.Convergence
import ArcanaServer.Sync.ToDevice
import ArcanaServer.Rooms.AuthChainRuns
import ArcanaServer.Sending.NoLoss
import ArcanaServer.Sending.NoRepeat
import ArcanaServer.Sending.NoEduSkipped
import ArcanaServer.Transactions.Waits
import ArcanaServer.Utils.MutexMap
import ArcanaServer.Keys.OneTimeKeys
import ArcanaServer.Users.TokenRuns
import ArcanaServer.Users.PasswordReset
import ArcanaServer.AccountData.UpdateRuns
import ArcanaServer.Api.RegisterRuns
import ArcanaServer.Rooms.CacheRuns
import ArcanaServer.Timeline.AppendSteps
import ArcanaServer.Api.Backup
import ArcanaServer.Rooms.Alias
import ArcanaServer.Sending.RowTexts
import ArcanaServer.Uiaa.Interleavings
import ArcanaServer.Users.AccessTokens
import ArcanaServer.Rooms.Search
import ArcanaServer.Rooms.UserMembership
import ArcanaServer.Rooms.StateCalls
import ArcanaServer.StateRes.MainlineOrder
import ArcanaServer.Rooms.Spaces
import ArcanaServer.Sync.KeyTracking
import ArcanaServer.StateRes.SenderLevels
import ArcanaServer.Threepid.RateLimit
import ArcanaServer.Resolver.DeniedAddresses
import ArcanaServer.Resolver.Lookups
import ArcanaServer.EventHandler.RescindInvite
import ArcanaServer.Rooms.JoinedRooms
import ArcanaServer.Rooms.ReadReceipts
import ArcanaServer.Keys.OneTimeCounts
import ArcanaServer.Sync.ToDeviceScans
import ArcanaServer.KeyBackups.Latest
import ArcanaServer.Keys.LocalQuery
import ArcanaServer.Keys.SigningKeys
import ArcanaServer.Api.MessagePages
import ArcanaServer.Api.Relations
import ArcanaServer.Rooms.LazyLoading
import ArcanaServer.Api.MissingEvents
import ArcanaServer.Media.UrlPreview
