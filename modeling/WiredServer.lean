import WiredServer.Lib.Binary64
import WiredServer.Lib.Bytes
import WiredServer.Lib.Fallible
import WiredServer.Base.Byteorder
import WiredServer.Base.XmlTree
import WiredServer.Collections.ArrayRefinement
import WiredServer.Collections.DictionaryRefinement
import WiredServer.Data.StringRuns
import WiredServer.P7.MessageBuilder
import WiredServer.P7.Verify
import WiredServer.P7.Inflate
import WiredServer.P7.EnumTables
import WiredServer.P7.CompatiblePeers
import WiredServer.P7.MergeSoundness
import WiredServer.P7.ListDecoding
import WiredServer.P7.SelfCompatibility
import WiredServer.Server.AccountPersistence
import WiredServer.Server.AccountPrivileges
import WiredServer.Server.Banlist
import WiredServer.Server.BoardViews
import WiredServer.Server.BoardOwners
import WiredServer.Server.BoardPermissions
import WiredServer.Server.ChatLife
import WiredServer.Server.ChatThreads
import WiredServer.Server.PendingConnections
import WiredServer.Server.ServerTotals
import WiredServer.Server.UserCount
import WiredServer.Transfers.Upload
import WiredServer.Transfers.QueuePass
import WiredServer.Transfers.SlotAccounting
import WiredServer.Transfers.SocketStream
import WiredServer.Transfers.WaitingTransfers
import WiredServer.Server.GroupMerge
import WiredServer.Transfers.DownloadLength
import WiredServer.Transfers.AccountStatistics
import WiredServer.Files.FileComments
import WiredServer.Transfers.TransferKeys
import WiredServer.Data.TextReplacement
import WiredServer.Server.Statements
import WiredServer.Files.LexicalPaths
import WiredServer.Base.IpPatterns
import WiredServer.Base.Ipv6Texts
import WiredServer.Files.CreateDirectory
import WiredServer.Server.Removals
import WiredServer.Server.PathSubscriptions
import WiredServer.Files.FileLines
import WiredServer.Collections.SortedInsertion
import WiredServer.Collections.ArrayDerivations
import WiredServer.Collections.DictionaryEquality
import WiredServer.Collections.SetHistories
import WiredServer.Data.Uuids
import WiredServer.Data.Urls
import WiredServer.Data.Dates
import WiredServer.Server.Settings
import WiredServer.Server.TrackerRegistration
import WiredServer.Server.Logs
import WiredServer.Server.SessionIdentity
import WiredServer.Server.SubscriptionPrivileges
import WiredServer.Server.OfflineMessages
import WiredServer.Files.Listings
