import Mathlib.Data.List.FinRange
import Mathlib.Logic.Function.Basic
import SimpleLink.Gagent.Wire

/-!
# The TCP clients of the gateway

The gateway serves up to eight clients in its own network. Each has a slot of `tcpClient`
with its socket, the seconds that it may still stay silent and whether it has logged in. A
slot is free while its socket is `INVALID_SOCKET`.

`lanStep` is one event: a connection is accepted, something is received from a client or
the receive fails, a tick of the clock, a report of the cloud on its own clients, data of the
MCU for the clients, or the MCU opening the time to bind. What the gateway does on it is
listed as `LanAct`s.
-/

namespace SimpleLink.Gagent

abbrev LAN_TCPCLIENT_MAX : Nat := 8
def LAN_CLIENT_MAXLIVETIME : Nat := 14
def INVALID_SOCKET : Int := -1

def LAN_PROTOCOL_HEAD_LEN : Nat := 4
def LAN_PROTOCOL_FLAG_LEN : Nat := 1
def LAN_PROTOCOL_CMD_LEN : Nat := 2

def GAGENT_LAN_CMD_BINDING : UInt16 := 0x0006
def GAGENT_LAN_CMD_LOGIN : UInt16 := 0x0008
def GAGENT_LAN_CMD_INFO : UInt16 := 0x0013
def GAGENT_LAN_CMD_TICK : UInt16 := 0x0015
def GAGENT_LAN_CMD_TEST : UInt16 := 0x0017
def GAGENT_LAN_CMD_TRANSMIT : UInt16 := 0x0090

/-! ## The state of the gateway -/

abbrev Channel := Fin LAN_TCPCLIENT_MAX

inductive Login where
  | success
  | fail
  deriving DecidableEq, Repr

structure TcpClient where
  fd : Int
  timeout : Nat
  isLogin : Login
  deriving DecidableEq

/-- What the gateway knows, as far as the clients in its network are concerned. -/
structure Gateway where
  tcpClient : Channel → TcpClient
  /-- An `int32`. -/
  tcpClientNums : Int
  /-- An `int32` that is only given sixteen-bit values. -/
  wanclientNum : UInt16
  gAgentStatus : UInt16
  wifipasscode : List UInt8
  passcodeTimeout : UInt16

def WIFI_MODE_AP : UInt16 := (1 : UInt16) <<< 0
def WIFI_MODE_STATION : UInt16 := (1 : UInt16) <<< 1
def WIFI_MODE_BINDING : UInt16 := (1 : UInt16) <<< 3
def WIFI_CLIENT_ON : UInt16 := (1 : UInt16) <<< 11

variable {g g' : Gateway}

def Gateway.isSet (g : Gateway) (mask : UInt16) : Bool := g.gAgentStatus &&& mask = mask

def setWiFiStatus (g : Gateway) (mask : UInt16) (flag : Bool) : Gateway :=
  { g with gAgentStatus := if flag then g.gAgentStatus ||| mask else g.gAgentStatus &&& ~~~mask }

def Gateway.setClient (g : Gateway) (i : Channel) (x : TcpClient) : Gateway :=
  { g with tcpClient := Function.update g.tcpClient i x }

/-- A sum in an `int32`. -/
def int32 (n : Int) : Int := n.bmod (2 ^ 32)

/-- What the gateway does: it answers client `i`, passes on what client `i` sent, leaves the test
mode for client `i`, sends MCU data to client `i`, or closes the socket of client `i`. -/
inductive LanAct where
  | passcode (i : Channel) (buf : List UInt8)
  | login (i : Channel) (buf : List UInt8)
  | devInfo (i : Channel)
  | heartbeat (i : Channel) (buf : List UInt8)
  | replyTest (i : Channel) (buf : List UInt8)
  | exitTest (i : Channel)
  | transmit (i : Channel) (p0 : List UInt8)
  | relay (i : Channel) (p0 : List UInt8)
  | close (i : Channel)
  /-- All slots are taken. -/
  | denied (fd : Int)
  deriving DecidableEq

/-! ## Connections -/

def lanSetClientTimeOut (g : Gateway) (i : Channel) : Gateway :=
  let g := if g.isSet WIFI_MODE_AP then
      g.setClient i { g.tcpClient i with timeout := LAN_CLIENT_MAXLIVETIME * 5 }
    else g
  if g.isSet WIFI_MODE_STATION then
    g.setClient i { g.tcpClient i with timeout := LAN_CLIENT_MAXLIVETIME }
  else g

/-- The slot that a new client is given. -/
def Gateway.freeSlot (g : Gateway) : Option Channel :=
  (List.finRange LAN_TCPCLIENT_MAX).find? fun i => (g.tcpClient i).fd = INVALID_SOCKET

def lanAddTcpNewClient (g : Gateway) (fd : Int) : Gateway × List LanAct :=
  if fd < 0 then (g, [])
  else
    match g.freeSlot with
    | some i => (lanSetClientTimeOut (g.setClient i { g.tcpClient i with fd }) i, [])
    | none => (g, [.denied fd])

def lanTcpServerHandler (g : Gateway) (newfd : Int) : Gateway × List LanAct :=
  if newfd > 0 then lanAddTcpNewClient g newfd else (g, [])

/-! ## Packets of a client -/

/-- The command of a packet: what is behind the version, the length and the flag. -/
def lanCmd (rx : List UInt8) : UInt16 :=
  ntohsAt rx (LAN_PROTOCOL_HEAD_LEN + LAN_PROTOCOL_FLAG_LEN + mqttNumRemLenBytes (rx.drop 3))

/-- The payload of a packet, as far as its length says: from `ppayload` to `pend`. -/
def lanPayload (rx : List UInt8) : List UInt8 :=
  let varlen := mqttNumRemLenBytes (rx.drop 3)
  let ppayload := LAN_PROTOCOL_HEAD_LEN + varlen + LAN_PROTOCOL_FLAG_LEN + LAN_PROTOCOL_CMD_LEN
  let pend := LAN_PROTOCOL_HEAD_LEN + varlen + (mqttParseRemLen (rx.drop 3)).toNat
  (List.range (pend - ppayload)).map fun k => byteAt rx (ppayload + k)

/-- `memcmp` of the bytes at `phead + 10` with the passcode. -/
def passcodeMatches (rx passcode : List UInt8) : Bool :=
  (List.range passcode.length).all fun k => byteAt rx (10 + k) = byteAt passcode k

/-- Version, length, flag and command of a reply. -/
def lanHeader (len : UInt8) (cmd : UInt8) : List UInt8 := [0, 0, 0, 3, len, 0, 0, cmd]

def lanCheckAuthorization (g : Gateway) (i : Channel) : Gateway × List LanAct × Bool :=
  if (g.tcpClient i).isLogin = .fail ∧ (g.tcpClient i).fd ≠ INVALID_SOCKET then
    (g.setClient i { g.tcpClient i with fd := INVALID_SOCKET }, [.close i], false)
  else (g, [], true)

def Login.byte : Login → UInt8
  | .success => 0
  | .fail => 1

def lanHandleLogin (g : Gateway) (rx : List UInt8) (i : Channel) : Gateway × List LanAct :=
  let ok := passcodeMatches rx g.wifipasscode
  let g := if ok then
      setWiFiStatus { g with tcpClientNums := int32 (g.tcpClientNums + 1) } WIFI_CLIENT_ON true
    else g
  let isLogin := if ok then Login.success else .fail
  let g := g.setClient i { g.tcpClient i with isLogin }
  let reply := lanHeader 4 9 ++ [isLogin.byte]
  if isLogin = .fail then
    (g.setClient i { g.tcpClient i with fd := -1 }, [.login i reply, .close i])
  else (g, [.login i reply])

/-- Twenty bytes are sent, whatever the passcode. -/
def lanHandlePasscode (g : Gateway) (i : Channel) : Gateway × List LanAct :=
  let n := g.wifipasscode.length.toUInt16
  if g.isSet WIFI_MODE_BINDING then
    (g, [.passcode i (lanHeader 15 7 ++ [(n >>> 8).toUInt8, n.toUInt8] ++
      (List.range 10).map (byteAt g.wifipasscode))])
  else
    (g.setClient i { g.tcpClient i with fd := INVALID_SOCKET },
      [.passcode i (lanHeader 15 7 ++ [0, 0]), .close i])

def gAgentLanSendDevInfo (g : Gateway) (i : Channel) : List LanAct :=
  if (g.tcpClient i).fd > 0 then [.devInfo i] else []

def lanAckHeartbeak (i : Channel) : List LanAct := [.heartbeat i (lanHeader 3 0x16)]

def localAck2TcpClient (g : Gateway) (i : Channel) : List LanAct :=
  if (g.tcpClient i).fd > 0 then [.replyTest i (lanHeader 3 0x18)] else []

/-- The commands that a client may give before it has logged in. -/
def isOpenCmd (cmd : UInt16) : Bool :=
  cmd == GAGENT_LAN_CMD_BINDING || cmd == GAGENT_LAN_CMD_LOGIN || cmd == GAGENT_LAN_CMD_INFO

/-- The `switch` of `Lan_dispatchTCPData`; a payload that is not empty is passed on by the caller. -/
def lanCommand (g : Gateway) (rx : List UInt8) (i : Channel) : Gateway × List LanAct :=
  let cmd := lanCmd rx
  if cmd = GAGENT_LAN_CMD_BINDING then lanHandlePasscode g i
  else if cmd = GAGENT_LAN_CMD_LOGIN then lanHandleLogin g rx i
  else if cmd = GAGENT_LAN_CMD_TRANSMIT then
    (g, if lanPayload rx = [] then [] else [.transmit i (lanPayload rx)])
  else if cmd = GAGENT_LAN_CMD_INFO then (g, gAgentLanSendDevInfo g i)
  else if cmd = GAGENT_LAN_CMD_TICK then (g, lanAckHeartbeak i)
  else if cmd = GAGENT_LAN_CMD_TEST then (g, localAck2TcpClient g i ++ [.exitTest i])
  else (g, [])

def lanDispatchTCPData (g : Gateway) (rx : List UInt8) (i : Channel) : Gateway × List LanAct :=
  if isOpenCmd (lanCmd rx) then lanCommand g rx i
  else
    match lanCheckAuthorization g i with
    | (g, acts, false) => (g, acts)
    | (g, _, true) => lanCommand g rx i

/-- The status bit goes with the last client. -/
def clientGone (g : Gateway) : Gateway :=
  let g := if g.tcpClientNums > 0 then { g with tcpClientNums := g.tcpClientNums - 1 } else g
  if 0 = g.tcpClientNums + g.wanclientNum.toNat then setWiFiStatus g WIFI_CLIENT_ON false else g

/-- `rx` is what `recv` wrote; nothing when it failed or the client closed. -/
def lanTcpClientDataHandle (g : Gateway) (i : Channel) (rx : List UInt8) : Gateway × List LanAct :=
  if rx = [] then
    if (g.tcpClient i).fd > 0 then
      (clientGone (g.setClient i ⟨INVALID_SOCKET, 0, .fail⟩), [.close i])
    else (g, [])
  else lanDispatchTCPData (lanSetClientTimeOut g i) rx i

/-! ## Ticks, and the other sides of the gateway -/

def lanTickClient (dTime : Nat) (g : Gateway) (i : Channel) : Gateway × List LanAct :=
  if (g.tcpClient i).fd > 0 then
    if (g.tcpClient i).timeout ≤ dTime then
      let closed := g.setClient i { g.tcpClient i with fd := -1 }
      (if (g.tcpClient i).isLogin = .success then clientGone closed else closed, [.close i])
    else
      (g.setClient i { g.tcpClient i with timeout := (g.tcpClient i).timeout - dTime }, [])
  else (g, [])

/-- The loop over the slots. -/
def lanTickClients (dTime : Nat) : Gateway → List Channel → Gateway × List LanAct
  | g, [] => (g, [])
  | g, i :: is =>
    let (g, acts) := lanTickClient dTime g i
    let (g, acts') := lanTickClients dTime g is
    (g, acts ++ acts')

def passcodeTick (g : Gateway) : Gateway :=
  if g.passcodeTimeout > 0 ∧ g.isSet WIFI_MODE_BINDING then
    let g := { g with passcodeTimeout := g.passcodeTimeout - 1 }
    if g.passcodeTimeout = 0 then setWiFiStatus g WIFI_MODE_BINDING false else g
  else g

def gAgentLanTick (g : Gateway) (dTime : Nat) : Gateway × List LanAct :=
  lanTickClients dTime (passcodeTick g) (List.finRange LAN_TCPCLIENT_MAX)

def mqttResOnlineClient (g : Gateway) (buf : List UInt8) : Gateway :=
  let wanclientNum := ntohsAt buf 6
  let lanclientNum := UInt16.ofInt g.tcpClientNums
  let g := { g with wanclientNum }
  if wanclientNum ≠ 0 then setWiFiStatus g WIFI_CLIENT_ON true
  else if 0 = wanclientNum.toNat + lanclientNum.toNat then setWiFiStatus g WIFI_CLIENT_ON false
  else g

/-- The clients that `GAgent_Lan_SendTcpData` sends to. -/
def gAgentLanSendTcpData (g : Gateway) (p0 : List UInt8) : List LanAct :=
  ((List.finRange LAN_TCPCLIENT_MAX).filter fun i =>
    (g.tcpClient i).fd > 0 ∧ (g.tcpClient i).isLogin = .success).map fun i => .relay i p0

/-- `GAgent_LANInit`. -/
def gAgentLANInit (status : UInt16) (passcode : List UInt8) (passcodeTimeout : UInt16) : Gateway :=
  let g : Gateway := ⟨fun _ => ⟨-1, 0, .fail⟩, 0, 0, status, passcode, passcodeTimeout⟩
  setWiFiStatus (setWiFiStatus g WIFI_MODE_BINDING true) WIFI_CLIENT_ON false

/-! ## Events -/

inductive LanOp where
  /-- The listening socket is readable, and `accept` returns `newfd`. -/
  | accept (newfd : Int)
  /-- The socket of client `i` is readable. -/
  | recv (i : Channel) (rx : List UInt8)
  | tick (dTime : Nat)
  | online (buf : List UInt8)
  | relay (p0 : List UInt8)
  | enableBind (passcodeEnableTime : UInt16)

/-- As an access point the gateway serves its configuration page only. -/
def lanStep (g : Gateway) : LanOp → Gateway × List LanAct
  | .accept newfd => if g.isSet WIFI_MODE_AP then (g, []) else lanTcpServerHandler g newfd
  | .recv i rx =>
    if g.isSet WIFI_MODE_AP ∨ (g.tcpClient i).fd ≤ 0 then (g, [])
    else lanTcpClientDataHandle g i rx
  | .tick dTime => gAgentLanTick g dTime
  | .online buf => (mqttResOnlineClient g buf, [])
  | .relay p0 => (g, gAgentLanSendTcpData g p0)
  | .enableBind passcodeEnableTime =>
    (setWiFiStatus { g with passcodeTimeout := passcodeEnableTime } WIFI_MODE_BINDING true, [])

end SimpleLink.Gagent
