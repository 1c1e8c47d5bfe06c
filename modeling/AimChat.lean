import AimChat.Lib.Run
import AimChat.Lib.OrdMap
import AimChat.Lib.EdgeCopies
import AimChat.Lib.Wire
import AimChat.Lib.Sql
import AimChat.Net.IMCodec
import AimChat.Net.Endian
import AimChat.Net.GracefulClose
import AimChat.Net.Lifecycle
import AimChat.Net.BufferCodec
import AimChat.Net.Delivery
import AimChat.Net.Poller
import AimChat.Net.EventLoop
import AimChat.Net.TimerRuns
import AimChat.Store.ChatHistory
import AimChat.Store.Schema
import AimChat.Store.Cursor
import AimChat.Store.Recheck
import AimChat.Lib.SqlText
import AimChat.Store.Statements
import AimChat.Store.Injection
import AimChat.Store.Restart
import AimChat.Store.EmptyRestart
import AimChat.Store.LoginIdentity
import AimChat.Proto.Wire
import AimChat.Server.GrpcClients
import AimChat.Server.IMSer
import AimChat.Server.Connections
import AimChat.Server.World
import AimChat.Server.Step
import AimChat.Server.Authentication
import AimChat.Server.NullUser
import AimChat.Server.ChatDelivery
import AimChat.Server.ChatContent
import AimChat.Server.Requests
import AimChat.Server.AgentReplies
import AimChat.Server.Presence
import AimChat.Server.GroupLogin
import AimChat.Server.MsgCacheManager
import AimChat.Server.GroupChat
import AimChat.Server.Search
import AimChat.Server.Multicast
import AimChat.Server.GroupCreation
import AimChat.Server.Profile
import AimChat.Server.AvatarUpload
import AimChat.Server.Answers
import AimChat.Mail.MailService
import AimChat.Mail.Countdown
import AimChat.Mail.RandomDigits
import AimChat.Agent.LostAppends
import AimChat.Agent.FreshValues
import AimChat.Agent.Counters
import AimChat.Agent.KeyValue
import AimChat.Agent.Sweeps
import AimChat.Agent.EmptyProvider
import AimChat.Agent.History
import AimChat.Avatar.PerUser
import AimChat.Avatar.Uploads
import AimChat.Avatar.FailedUpload
