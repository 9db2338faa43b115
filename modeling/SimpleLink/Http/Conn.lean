import SimpleLink.Http.Strings

/-!
# The state of the web server (`HttpCore.c`)

`Session` is what the functions of a connection see: the data of this connection and the globals
that all of them share. Of the packet-send buffer it has the bytes that have been put into it. `sent`
is what the client has been sent, `handled` what the application has received over a websocket,
`opens` how often `sl_FsOpen` has been called, `closed` the files that have been closed, and `sends`
what the calls of `send` will give.
-/

namespace SimpleLink.Http.Conn

open Strings

abbrev httpCoreMaxConnections : Nat := 10
abbrev httpCoreMaxPacketSizeReceived : Nat := 1000
abbrev httpCoreMaxPacketSizeSend : Nat := 1000
abbrev httpCoreMaxHeaderLineLength : Nat := 320
abbrev fileNameSizeMax : Nat := 40
abbrev maxResource : Nat := 10

inductive HttpConnectionState where
  | inactive
  | requestMethod
  | requestHeaders
  | dropCurrentHeader
  | requestData
  | processing
  | responseData
  | responseComplete
  | webSocketRequest
  | webSocketResponse
  | webSocketDataRecv
  | webSocketDataSend
deriving DecidableEq

inductive HttpHandler where
  | none
  | httpStatic
  | httpDynamic
deriving DecidableEq

/-- `uFlags`. -/
structure Flags where
  close : Bool
  acceptGzip : Bool
  methodPost : Bool
  http11 : Bool
  contentIgnored : Bool
  browser : Bool
deriving DecidableEq

def Flags.zero : Flags := ⟨false, false, false, false, false, false⟩

/-- Of `requestContent` the length: its bytes are at the beginning of `headerStart`. -/
structure HttpConnectionData where
  connectionState : HttpConnectionState
  uFlags : Flags
  requestContent : Nat
  handler : HttpHandler
  headerStart : Bytes
  uContentLeft : Nat
  uSavedBufferSize : Nat
  sent : Bytes
  handled : List Bytes

/-- `pCbfunc` is the number of a function. -/
structure Resource where
  restMethod : Nat
  resourceString : Bytes
  pCbfunc : Nat
deriving DecidableEq

/-- The globals of `WebSockHandler.c`, and how often the byte behind a buffer has been written. -/
structure WebSock where
  globRecvBuf : Bytes
  globPayloadLen : Int
  globRecvLen : Int
  recvMore : Bool
  maskKey : Bytes
  mask : Bool
  ping : Bool
  overruns : Nat

/-- An entry of `g_RestContent` that no resource has been put into is `none`. -/
structure HttpGlobalState where
  packetSend : Bytes
  cFileName : Bytes
  fileHandle : Int
  numResource : Nat
  restContent : List (Option Resource)
  wsKey : Bytes
  wsOriginName : Option Bytes
  origin : Bool
  webSock : WebSock
  sends : List Int
  opens : Nat
  closed : List Int

structure Session extends HttpConnectionData, HttpGlobalState

/-- Why a function does not return: an assertion fails, `send` answers `SL_EAGAIN` for ever, or
memory outside of a buffer is used. -/
inductive Halt where
  | assertion
  | again
  | outOfBounds
deriving DecidableEq

/-- The files and the heap, and what the functions of the resources return. -/
structure Env where
  /-- What `sl_FsOpen` gives, call by call. -/
  fsOpen : Nat → Bytes → Int
  /-- `FileLen`. -/
  fileLen : Bytes → UInt32
  /-- The buffer after `sl_FsRead`, or nothing when it fails. -/
  fsRead : Int → Nat → (len : Nat) → Option (Vector UInt8 len)
  /-- There is room for that many bytes. -/
  malloc : Nat → Bool
  /-- The string that a function returns. -/
  callback : Nat → Bytes
  /-- `WS_HandshakeHash`, which the hardware computes. -/
  handshakeHash : Bytes → Bytes
  /-- `CloseTCPClientSocket` succeeds. -/
  socketCloses : Bool

end SimpleLink.Http.Conn
