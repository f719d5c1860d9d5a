import AdManager.Lib.Run
import AdManager.Lib.PartialMap
import AdManager.Lib.TimerLoop
import AdManager.Lib.Interference
import AdManager.Wire.MessageRefine
import AdManager.Session.Promises
import AdManager.Session.RequestIds
import AdManager.Session.WriteSide
import AdManager.Session.Decode
import AdManager.Session.SendQueue
import AdManager.Client.Activity
import AdManager.Client.BackOff
import AdManager.Client.Stopping
import AdManager.Link.Matching
import AdManager.Server.EndToEnd
import AdManager.Server.ServeFile
import AdManager.Business.Retries
import AdManager.Business.AdTable
import AdManager.Business.AdIds
import AdManager.Business.Accessors
import AdManager.Business.Relay
import AdManager.Business.Coherence
import AdManager.Business.Player
import AdManager.Business.Shutdown
import AdManager.Business.FrameLimit
import AdManager.Business.Bounds
import AdManager.Business.Representation
import AdManager.Business.Integrity
import AdManager.Business.CodecRefine
import AdManager.Business.Agreement
import AdManager.Business.SharedFiles
import AdManager.Business.Progress
import AdManager.Md5.Rolled
import AdManager.Server.TcpServer
import AdManager.Server.Stopping
import AdManager.Lib.RefCount
import AdManager.Player.PlayList
import AdManager.Player.CPlayer
import AdManager.Player.MediaSource
import AdManager.Player.NullSession
import AdManager.Player.Resources
import AdManager.Player.Balance
