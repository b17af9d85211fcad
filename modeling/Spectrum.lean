import Spectrum.Lib.Machine
import Spectrum.Lib.Lists
import Spectrum.Lib.Sorted
import Spectrum.Lib.SortedMap
import Spectrum.Lib.NestedMap
import Spectrum.Lib.Arena
import Spectrum.Lib.InverseMaps
import Spectrum.Lib.ProgramOptions
import Spectrum.Lib.Frames
import Spectrum.Lib.Rfc6455
import Spectrum.Lib.Escape
import Spectrum.Lib.Text
import Spectrum.Lib.Search
import Spectrum.Lib.Table
import Spectrum.Lib.Base64
import Spectrum.Lib.Percent
import Spectrum.Lib.Retry
import Spectrum.Lib.Passes
import Spectrum.Lib.MergeJoin
import Spectrum.Lib.Scan
import Spectrum.Lib.Json
import Spectrum.Model.Stanza
import Spectrum.Model.Oracle
import Spectrum.Model.Conversations
import Spectrum.Model.World
import Spectrum.Model.Backends
import Spectrum.Model.Registry
import Spectrum.Model.Users
import Spectrum.Model.Transport
import Spectrum.Session.Model
import Spectrum.Session.Gate
import Spectrum.Session.Registry
import Spectrum.Transport.Frame
import Spectrum.Transport.Chat
import Spectrum.Transport.Frontend
import Spectrum.Transport.Selection
import Spectrum.Transport.Link
import Spectrum.Transport.Lifecycle
import Spectrum.Transport.Capacity
import Spectrum.Transport.Grace
import Spectrum.Transport.Waiting
import Spectrum.Transport.Draining
import Spectrum.Transport.Flow
import Spectrum.Transport.UserFrame
import Spectrum.Transport.Association
import Spectrum.Transport.Placement
import Spectrum.Transport.Sweep
import Spectrum.Transport.Redirect
import Spectrum.Transport.Mute
import Spectrum.Transport.Password
import Spectrum.Transport.Aware
import Spectrum.Transport.Status
import Spectrum.Transport.Handover
import Spectrum.Transport.Connected
import Spectrum.Transport.Still
import Spectrum.Transport.FrontendSteps
import Spectrum.Transport.Logins
import Spectrum.Transport.Lines
import Spectrum.Transport.Prompt
import Spectrum.Transport.Presences
import Spectrum.Transport.LoginState
import Spectrum.Transport.Answers
import Spectrum.Transport.RemovalTimers
import Spectrum.Transport.Calls
import Spectrum.Transport.Reconnects
import Spectrum.Transport.Spawning
import Spectrum.Wire.Message
import Spectrum.Wire.Server
import Spectrum.Wire.Plugin
import Spectrum.Wire.Bounds
import Spectrum.Account.Message
import Spectrum.Account.Conversation
import Spectrum.Account.User
import Spectrum.Account.Copies
import Spectrum.Account.Quiet
import Spectrum.Account.Steps
import Spectrum.Account.Lookup
import Spectrum.Account.GetConversation
import Spectrum.Account.Joins
import Spectrum.Account.Keys
import Spectrum.Account.Cache
import Spectrum.Account.Offline
import Spectrum.Account.Leaving
import Spectrum.Account.Seats
import Spectrum.Account.Occupancy
import Spectrum.Account.Departures
import Spectrum.Account.Rejoin
import Spectrum.Account.Room
import Spectrum.Account.Subject
import Spectrum.Account.Nodes
import Spectrum.Account.Media
import Spectrum.Account.Trim
import Spectrum.Account.Incoming
import Spectrum.Account.Expulsion
import Spectrum.Account.FanOut
import Spectrum.Account.Shared
import Spectrum.Storage.Tables
import Spectrum.Storage.Encoding
import Spectrum.Storage.Backend
import Spectrum.Storage.SQLite3
import Spectrum.Storage.MySQL
import Spectrum.Storage.Statement
import Spectrum.Storage.PQXX
import Spectrum.Storage.Users
import Spectrum.Storage.Reading
import Spectrum.Storage.Buddies
import Spectrum.Storage.Settings
import Spectrum.Storage.Reconnect
import Spectrum.Storage.Transaction
import Spectrum.Storage.Accounts
import Spectrum.Storage.Merge
import Spectrum.Storage.Removal
import Spectrum.Roster.Model
import Spectrum.Roster.Sound
import Spectrum.Roster.Queue
import Spectrum.Roster.Lookups
import Spectrum.Roster.Subscription
import Spectrum.Registration.Model
import Spectrum.Registration.Accounts
import Spectrum.Registration.Unregister
import Spectrum.Registration.Reregister
import Spectrum.Registration.Exclusive
import Spectrum.Server.Pids
import Spectrum.Server.RawIq
import Spectrum.Server.Names
import Spectrum.Server.RoundTrips
import Spectrum.Server.Forward
import Spectrum.Server.VCards
import Spectrum.Server.Cache
import Spectrum.Http.RequestQueue
import Spectrum.Http.ThreadPool
import Spectrum.Http.ThreadCount
import Spectrum.Http.WebSocket
import Spectrum.Irc.Model
import Spectrum.Irc.Isolation
import Spectrum.Irc.Lifetime
import Spectrum.Irc.Lines
import Spectrum.Slack.Session
import Spectrum.Slack.Ownership
import Spectrum.Slack.Rooms
import Spectrum.Slack.Registration
import Spectrum.Slack.Rtm
import Spectrum.Slack.Urlencode
import Spectrum.Admin.Model
import Spectrum.Admin.Query
import Spectrum.Admin.Safe
import Spectrum.AdHoc.Model
import Spectrum.AdHoc.Sweep
import Spectrum.AdHoc.Ownership
import Spectrum.Configuration.Load
import Spectrum.Configuration.Reload
import Spectrum.Configuration.Repeated
import Spectrum.Configuration.Backend
import Spectrum.Irc.Private
import Spectrum.Lib.Buckets
import Spectrum.Lib.Mirror
import Spectrum.Lib.PrefixCode
import Spectrum.Purple.Model
import Spectrum.Purple.Rooms
import Spectrum.Roster.Presences
import Spectrum.Roster.Reflected
import Spectrum.Session.Channel
import Spectrum.Utf8.Core
import Spectrum.Utf8.Repair
import Spectrum.Wire.Python
import Spectrum.Lib.EscapedList
import Spectrum.Manager.Access
import Spectrum.Manager.Execute
import Spectrum.Manager.Usernames
