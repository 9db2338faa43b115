import SimpleLink.Client.ConnectBytes
import SimpleLink.Client.ConnectFail
import SimpleLink.Client.Ctx
import SimpleLink.Client.MessageBytes
import SimpleLink.Client.PoolRefs
import SimpleLink.Client.PoolRx
import SimpleLink.Client.PubRec
import SimpleLink.Client.Qos2Rx
import SimpleLink.Client.Rendezvous
import SimpleLink.Client.Send
import SimpleLink.Client.SendResult
import SimpleLink.Client.TxStream
import SimpleLink.Driver.ApiCalls
import SimpleLink.Driver.ApiLaw
import SimpleLink.Driver.FindActive
import SimpleLink.Driver.FlowCont
import SimpleLink.Driver.FrameRead
import SimpleLink.Driver.FsIo
import SimpleLink.Driver.FsMode
import SimpleLink.Driver.HdrRead
import SimpleLink.Driver.MsgWrite
import SimpleLink.Driver.NonOs
import SimpleLink.Driver.PoolEvents
import SimpleLink.Driver.PoolLists
import SimpleLink.Driver.PoolObj
import SimpleLink.Driver.PoolWakeup
import SimpleLink.Driver.RxIrq
import SimpleLink.Driver.SockSend
import SimpleLink.Driver.Spawn
import SimpleLink.Driver.SpiTransfer
import SimpleLink.Gagent.AckExchange
import SimpleLink.Gagent.Broadcast
import SimpleLink.Gagent.Cloud
import SimpleLink.Gagent.CloudSession
import SimpleLink.Gagent.LanAccounting
import SimpleLink.Gagent.LanAuth
import SimpleLink.Gagent.LanTcp
import SimpleLink.Gagent.LocalFrame
import SimpleLink.Gagent.LocalLink
import SimpleLink.Gagent.Relay
import SimpleLink.Gagent.RelayPayload
import SimpleLink.Http.Conn
import SimpleLink.Http.Fragments
import SimpleLink.Http.Frames
import SimpleLink.Http.Handlers
import SimpleLink.Http.Handshake
import SimpleLink.Http.Isolation
import SimpleLink.Http.Loop
import SimpleLink.Http.MethodLine
import SimpleLink.Http.Progress
import SimpleLink.Http.Reception
import SimpleLink.Http.Requests
import SimpleLink.Http.Response
import SimpleLink.HttpCli.Chunked
import SimpleLink.HttpCli.Lines
import SimpleLink.HttpCli.Receive
import SimpleLink.HttpCli.Request
import SimpleLink.Json.Jsmn
import SimpleLink.Json.Spelling
import SimpleLink.Json.Tokens
import SimpleLink.Lib.Base128
import SimpleLink.Lib.CString
import SimpleLink.Lib.Cut
import SimpleLink.Lib.LinkTree
import SimpleLink.Lib.Overwrite
import SimpleLink.Lib.Prefixed
import SimpleLink.Lib.PtrList
import SimpleLink.Lib.Run
import SimpleLink.Lib.Slots
import SimpleLink.Lib.Stuffing
import SimpleLink.Lib.TreeShape
import SimpleLink.Lib.TreeWalk
import SimpleLink.Lib.UntilFail
import SimpleLink.Mqtt.Builders
import SimpleLink.Mqtt.CtxList
import SimpleLink.Mqtt.FixedHeader
import SimpleLink.Mqtt.Framing
import SimpleLink.Mqtt.PubrelResend
import SimpleLink.Mqtt.Qos2Cq
import SimpleLink.Mqtt.Session
import SimpleLink.Mqtt.WaitList
import SimpleLink.NetApps.Smtp
import SimpleLink.NetApps.SmtpDialogue
import SimpleLink.NetApps.TftpClient
import SimpleLink.NetApps.TftpRecv
import SimpleLink.NetApps.TftpSend
import SimpleLink.NetApps.Xmpp
import SimpleLink.NetApps.XmppConnect
import SimpleLink.NetApps.XmppRecv
import SimpleLink.Ota.BootInfo
import SimpleLink.Ota.CdnFile
import SimpleLink.Ota.ImageSlots
import SimpleLink.Ota.OtaApp
import SimpleLink.Ota.OtaHttp
import SimpleLink.Ota.RunSafety
import SimpleLink.Pm.PowerMgmt
import SimpleLink.Server.AckIds
import SimpleLink.Server.ClientMgmt
import SimpleLink.Server.ClientRecords
import SimpleLink.Server.ConnStates
import SimpleLink.Server.ConnectRx
import SimpleLink.Server.Contexts
import SimpleLink.Server.CoreInv
import SimpleLink.Server.CoreOps
import SimpleLink.Server.CoreSteps
import SimpleLink.Server.CreateUndo
import SimpleLink.Server.Dispatch
import SimpleLink.Server.FailedSubscribe
import SimpleLink.Server.KaSweep
import SimpleLink.Server.KeepAlive
import SimpleLink.Server.LeafSearch
import SimpleLink.Server.Levels
import SimpleLink.Server.NoLoss
import SimpleLink.Server.PluginLaw
import SimpleLink.Server.PoolLaw
import SimpleLink.Server.PublishRx
import SimpleLink.Server.Queued
import SimpleLink.Server.RunLoop
import SimpleLink.Server.SessionDispatch
import SimpleLink.Server.SessionTree
import SimpleLink.Server.SubCount
import SimpleLink.Server.TopicFilter
import SimpleLink.Server.TopicLeaf
import SimpleLink.Server.TopicTable
import SimpleLink.Server.TopicTree
import SimpleLink.Server.Traverse
import SimpleLink.Server.TreeEdits
import SimpleLink.Server.TreeOk
import SimpleLink.Server.TreeRep
import SimpleLink.Server.TreeTrim
import SimpleLink.Server.WalkSafety
import SimpleLink.Server.Walks
import SimpleLink.Server.WireFormat
import SimpleLink.Timer.CcTimer
import SimpleLink.Timer.HwTimer32
import SimpleLink.Timer.RtcAlarm
import SimpleLink.Timer.TimerStop
