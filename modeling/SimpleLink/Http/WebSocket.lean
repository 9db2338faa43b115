import SimpleLink.Http.Requests

/-!
# Websockets (`HttpCore.c`, `WebSockHandler.c`)

The opening handshake, and the frames that are received and sent. The globals of a frame that is
being received are shared by all connections.
-/

namespace SimpleLink.Http.WebSocket

open Lib Strings Conn Response Handlers Requests

/-! ## The handshake -/

def handshakeOrigin (env : Env) (line : HttpBlob) (s : Session) : Result :=
  if s.origin then .ok (s, true)
  else if startsWith wsOrigin line then
    let value := line.skip (wsOrigin.length + 2)
    if ¬ env.malloc (value.uLength + 1) then
      .ok ({ s with wsOriginName := none, uFlags := { s.uFlags with browser := true } }, false)
    else if value.uLength ≤ value.mem.length then
      .ok ({ s with
        uFlags := { s.uFlags with browser := true }
        wsOriginName := some (value.bytes.map toLower)
        origin := true }, true)
    else .error .outOfBounds
  else .ok ({ s with uFlags := { s.uFlags with browser := false } }, true)

/-- `WSCore_HandshakeRequest`. The memory from the line on is copied before the line is looked at. -/
def wsCoreHandshakeRequest (env : Env) (line : Option HttpBlob) (s : Session) : Result :=
  match line with
  | none => .error .outOfBounds
  | some line =>
    if 0 ∉ line.mem ∨ ¬ env.malloc (cString line.mem).length then .error .outOfBounds
    else if line.uLength = 0 then .ok ({ s with connectionState := .webSocketResponse }, true)
    else if startsWith wsConnection line then
      match valueHas wsUpgrade (line.skip (wsConnection.length + 2)) with
      | .error halt => .error halt
      | .ok found => .ok (s, found)
    else if startsWith wsHost line then .ok (s, true)
    else if startsWith wsKeyRequest line then
      let key := (line.skip (wsKeyRequest.length + 2)).mem.take wsKeyLength
      if key.length = wsKeyLength then .ok ({ s with wsKey := key }, true)
      else .error .outOfBounds
    else if startsWith wsVersionRequest line then
      let value := line.skip (wsVersionRequest.length + 2)
      match valueHas wsVersion value with
      | .error halt => .error halt
      | .ok true => .ok (s, true)
      | .ok false =>
        if startsWith wsExtension value ∨ startsWith wsPragma value ∨
          startsWith wsCacheControl value then .ok (s, true)
        else handshakeOrigin env value s
    else if startsWith wsExtension line ∨ startsWith wsPragma line ∨
      startsWith wsCacheControl line then .ok (s, true)
    else handshakeOrigin env line s

/-- What `WSCore_HandshakeResponse` adds to the packet-send buffer. -/
def handshakeStrings (accept origin : Bytes) : List Bytes :=
  [httpVersion1p1, [32], utoa 101, [32], ascii "Web Socket Protocol Handshake",
    httpHeaderDelimiter] ++
  headerLine (ascii "Upgrade") wsWebsocket ++
  headerLine (ascii "Connection") (ascii "Upgrade") ++
  headerLine wsAccept accept ++
  headerLine (ascii "Server") (ascii "CC3200") ++
  headerLine (ascii "Access-Control-Allow-Origin") origin ++
  headerLine (ascii "Access-Control-Allow-Credentials") (ascii "true") ++
  headerLine (ascii "Access-Control-Allow-Headers") (ascii "content-type") ++
  headerLine (ascii "Access-Control-Allow-Headers") (ascii "authorization") ++
  headerLine (ascii "Access-Control-Allow-Headers") (ascii "x-websocket-version") ++
  headerLine (ascii "Access-Control-Allow-Headers") (ascii "x-websocket-protocol") ++
  headerLine (ascii "Access-Control-Allow-Headers") (ascii "x-websocket-extensions") ++
  [httpHeaderDelimiter]

def wsCoreHandshakeResponse (env : Env) (s : Session) : Result :=
  match s.wsOriginName with
  | none => .error .outOfBounds
  | some origin =>
    let accept := env.handshakeHash (cString s.wsKey ++ wsMagicString)
    match (handshakeStrings accept (cString origin)).foldlM addString s with
    | .error halt => .error halt
    | .ok s =>
      match httpCoreSendPacket s.packetSend s with
      | .error halt => .error halt
      | .ok (s, false) => .ok (s, false)
      | .ok (s, true) => .ok ({ s with packetSend := [], connectionState := .webSocketDataRecv }, true)

/-! ## Frames that are sent -/

abbrev wsBinary : Nat := 2
abbrev wsClose : Nat := 8
abbrev wsPing : Nat := 9
abbrev wsPong : Nat := 10

abbrev fragmentLength : Nat := httpCoreMaxPacketSizeSend

def wsSendPacket (s : Session) : Result :=
  match httpCoreSendPacket s.packetSend s with
  | .error halt => .error halt
  | .ok (s, rc) => .ok ({ s with packetSend := [], connectionState := .webSocketDataRecv }, rc)

def httpCoreCloseConnection (env : Env) (s : Session) : Session :=
  if env.socketCloses then
    httpCoreResetConnection { s with connectionState := .inactive, packetSend := [] }
  else s

def fragmentLen (total : Nat) : Nat :=
  if total ≤ 125 then total else min (fragmentLength - 4) total

def fragmentHeader (total opcode : Nat) : Bytes :=
  UInt8.ofNat ((if total < fragmentLength then 0x80 else 0) + opcode) ::
    if total ≤ 125 then [UInt8.ofNat total]
    else [126, UInt8.ofNat (fragmentLen total / 256), UInt8.ofNat (fragmentLen total)]

/-- The loop of `WSCore_DataSend`, which runs once for each byte at most, and once for none. -/
def dataSendLoop (env : Env) : Nat → Nat → Nat → Bytes → Session → Result
  | 0, _, _, _, s => .ok (s, true)
  | fuel + 1, total, opcode, payLoad, s =>
    if payLoad.length < fragmentLen total then .error .outOfBounds
    else
      match [fragmentHeader total opcode, payLoad.take (fragmentLen total)].foldlM addString s with
      | .error halt => .error halt
      | .ok s =>
        match wsSendPacket s with
        | .error halt => .error halt
        | .ok (s, false) => .ok (s, false)
        | .ok (s, true) =>
          if opcode = wsClose then .ok (httpCoreCloseConnection env s, true)
          else if total - fragmentLen total = 0 then .ok (s, true)
          else dataSendLoop env fuel (total - fragmentLen total) 0 (payLoad.drop (fragmentLen total)) s

def wsCoreDataSend (env : Env) (payLoad : HttpBlob) (opcode : Nat) (s : Session) : Result :=
  if opcode = wsBinary then
    dataSendLoop env (payLoad.uLength + 1) payLoad.uLength opcode payLoad.mem s
  else if 0 ∉ payLoad.mem then .error .outOfBounds
  else
    let total := (cString payLoad.mem).length % 2 ^ 16
    dataSendLoop env (total + 1) total opcode payLoad.mem s

/-! ## Frames that are received -/

/-- A big-endian number, as a `long long`. -/
def payloadlength (bytes : Bytes) : Int :=
  let n : Nat := bytes.foldl (fun n b => n * 256 + b.toNat) 0
  if n < 2 ^ 63 then n else (n : Int) - 2 ^ 64

/-- The length of the payload, and what is behind it. -/
def readLength (first : Nat) (data : HttpBlob) : Int × HttpBlob :=
  let (length, data) :=
    if first = 0x7E then (payloadlength (data.mem.take 2), data.skip 2) else ((first : Int), data)
  if length = 0x7F then (payloadlength (data.mem.take 8), data.skip 8) else (length, data)

def unmask (key payload : Bytes) : Bytes :=
  payload.zipIdx.map fun (b, i) => b ^^^ key.getD (i % 4) 0

/-- The payload has been received. The byte that is cleared is the first one behind the buffer, unless
the buffer is not as long as the payload. The mask of an empty payload is applied without end. -/
def wsCoreDataDone (env : Env) (s : Session) : Result :=
  let ws := s.webSock
  if ws.globPayloadLen ≠ ws.globRecvBuf.length ∨ ws.mask ∧ ws.globPayloadLen = 0 then
    .error .outOfBounds
  else
    let payload := if ws.mask then unmask ws.maskKey ws.globRecvBuf else ws.globRecvBuf
    let s := { s with webSock := { ws with
      globRecvBuf := payload
      recvMore := false
      overruns := ws.overruns + 1 } }
    if ws.ping then
      match wsCoreDataSend env ⟨payload ++ [0], payload.length % 2 ^ 16⟩ wsPong s with
      | .error halt => .error halt
      | .ok (s, _) => .ok ({ s with handled := s.handled ++ [payload] }, true)
    else .ok ({ s with handled := s.handled ++ [payload] }, true)

def copyPayload (s : Session) (globRecvLen : Int) (data : HttpBlob) : Except Halt Session :=
  if data.uLength ≤ data.mem.length ∧ 0 ≤ globRecvLen ∧
    globRecvLen + data.uLength ≤ s.webSock.globRecvBuf.length then
    .ok { s with webSock := { s.webSock with
      globRecvBuf := overwrite s.webSock.globRecvBuf globRecvLen.toNat data.bytes
      globRecvLen := globRecvLen + (data.uLength : Int) } }
  else .error .outOfBounds

/-- A packet that begins with the header of a frame, from its second byte on. -/
def wsCoreDataFrame (env : Env) (data : HttpBlob) (s : Session) : Result :=
  match data.mem with
  | [] => .error .outOfBounds
  | nextBlock :: _ =>
    let mask := 0x80 ≤ nextBlock
    let (length, data) := readLength (nextBlock.toNat % 0x80) (data.skip 1)
    let size := (length % 2 ^ 32).toNat
    if ¬ env.malloc size then .ok ({ s with webSock := { s.webSock with mask := mask } }, false)
    else
      let s := { s with webSock := { s.webSock with
        globRecvBuf := List.replicate size 0
        globPayloadLen := length
        mask := mask
        maskKey := if mask then data.mem.take 4 else s.webSock.maskKey } }
      let data := if mask then data.skip 4 else data
      match copyPayload s 0 data with
      | .error halt => .error halt
      | .ok s =>
        if length > data.uLength then
          .ok ({ s with webSock := { s.webSock with recvMore := true } }, true)
        else wsCoreDataDone env s

def wsCoreDataRecv (env : Env) (data : HttpBlob) (s : Session) : Result :=
  if s.webSock.recvMore then
    match copyPayload s s.webSock.globRecvLen data with
    | .error halt => .error halt
    | .ok s =>
      if s.webSock.globRecvLen < s.webSock.globPayloadLen then .ok (s, true)
      else wsCoreDataDone env s
  else
    match data.mem with
    | [] => .error .outOfBounds
    | nextBlock :: _ =>
      let opcode := nextBlock.toNat % 16
      let data := data.skip 1
      if opcode = wsClose then
        -- the status is written into the packet
        if data.mem.length < 6 then .error .outOfBounds
        else
          match wsCoreDataSend env ⟨overwrite data.mem 0 (utoa 1000 ++ ascii "ok"), 4⟩ opcode s with
          | .error halt => .error halt
          | .ok (s, _) => .ok (s, true)
      else
        let s := if opcode = wsPing then { s with webSock := { s.webSock with ping := true } } else s
        wsCoreDataFrame env data s

end SimpleLink.Http.WebSocket
