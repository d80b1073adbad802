import MediaTomb.Storage.RemoveObjects
import MediaTomb.Storage.Dangling
import MediaTomb.Storage.Roots
import MediaTomb.Storage.AutoscanTree
import MediaTomb.Storage.AutoscanFlag
import MediaTomb.Storage.BufferedObjects
import MediaTomb.Storage.ChildCounts
import MediaTomb.Storage.VirtualPath
import MediaTomb.Storage.Duplicates
import MediaTomb.Storage.ChildCountCalls
import MediaTomb.Storage.InsertBuffer
import MediaTomb.Storage.SqliteThread
import MediaTomb.Handlers.ProcessRead
import MediaTomb.Handlers.IOHandlerChainer
import MediaTomb.Handlers.BufferedIOHandler
import MediaTomb.Handlers.CurlSeek
import MediaTomb.Update.Notifications
import MediaTomb.Update.Capacity
import MediaTomb.Content.Rescans
import MediaTomb.Content.UpdateObject
import MediaTomb.Mxml.XmlToJson
import MediaTomb.Serve.CdsResourceManager
import MediaTomb.Web.AccessControl
import MediaTomb.Content.TaskQueues
import MediaTomb.ArrayBase
import MediaTomb.Content.AutoscanSlots
import MediaTomb.Content.RemoveContainer
import MediaTomb.Content.CachedURLs
import MediaTomb.Lib.OpenAddressing
import MediaTomb.Hash.DirectHash
import MediaTomb.Hash.DBRHash
import MediaTomb.Hash.DBOHash
import MediaTomb.Content.AutoscanInotify
import MediaTomb.Content.WatchMoves
import MediaTomb.Serve.ProfileOrder
import MediaTomb.Storage.KnownResources
import MediaTomb.Serve.ActiveItem
import MediaTomb.Storage.FailedFlush
import MediaTomb.Serve.TranscodeExternalHandler
import MediaTomb.Content.YouTubeService
import MediaTomb.Serve.FileRequestHandler
import MediaTomb.Layout.AddDVD
import MediaTomb.Lib.Reuse
import MediaTomb.Storage.Sound
import MediaTomb.Storage.PathComponents
import MediaTomb.Storage.NewContainers
import MediaTomb.Storage.ContainerChain
import MediaTomb.Storage.ContainerTitles
import MediaTomb.Layout.Directories
import MediaTomb.Storage.DirectoryPaths
import MediaTomb.Tools.Durations
import MediaTomb.Tools.NormalizePath
import MediaTomb.JpegResolution
import MediaTomb.Tools.FindInPath
import MediaTomb.Tools.ParseCommandLine
import MediaTomb.StringConverter
import MediaTomb.Lib.Utf8
import MediaTomb.Serve.DIDLObject
import MediaTomb.Timer
import MediaTomb.Web.SessionUpdates
import MediaTomb.Tools.Quicksort
import MediaTomb.Lib.OrderBy
import MediaTomb.Storage.Listing
import MediaTomb.Storage.BrowsePages
import MediaTomb.Web.TokenExpiry
import MediaTomb.QueueCalls
import MediaTomb.Arrays
import MediaTomb.Lib.CString
import MediaTomb.Tools.StringReduce
import MediaTomb.Tools.UnescapeAmp
import MediaTomb.Mxml.Indent
import MediaTomb.Lib.Xml
import MediaTomb.Mxml.Parser
import MediaTomb.Mxml.PrintParse
import MediaTomb.Storage.DirectoryLookup
import MediaTomb.Storage.PathExistence
import MediaTomb.Lib.Merge
import MediaTomb.Storage.AutoscanLookup
import MediaTomb.Storage.PersistentList
import MediaTomb.Lib.Records
import MediaTomb.Content.InotifyThread
import MediaTomb.StringBuffer
import MediaTomb.Content.RecursiveMonitor
import MediaTomb.Storage.FileLookup
import MediaTomb.Storage.AddFile
import MediaTomb.Content.Import
import MediaTomb.Content.ImportWalk
import MediaTomb.Content.Imported
import MediaTomb.Mxml.ElementText
import MediaTomb.Serve.BrowseAction
import MediaTomb.Serve.BrowseClient
import MediaTomb.RefCounting
