import SimpleLink.Lib.Overwrite
import SimpleLink.Lib.Run

/-!
# The TFTP client (`tftp.c`)

`tftpProcessPacket` with what it calls, and the loop that receives a file or sends one. One buffer
holds the packet that has been received and the one that is sent. What `recvfrom`, `recv` and
`sendto` give is the input of a step, and a step that reads or writes outside a buffer has no
outcome.
-/

namespace SimpleLink.NetApps.TftpClient

open Lib

abbrev segsize : Nat := 512
abbrev tftpHeader : Nat := 4
abbrev dataSize : Nat := segsize + tftpHeader
abbrev portTftp : Nat := 69
abbrev maxSyncTries : Int := 4

abbrev tftpRrq : Nat := 1
abbrev tftpWrq : Nat := 2
abbrev tftpData : Nat := 3
abbrev tftpAck : Nat := 4
abbrev tftpError : Nat := 5

abbrev tftperrorSocket : Int := -1
abbrev tftperrorFailed : Int := -2
abbrev tftperrorErrorreply : Int := -3

abbrev Bytes : Type := List UInt8

/-- `struct _tftp`, less the socket and the addresses that do not change. -/
structure Tftp where
  szFileName : Bytes
  buffer : Bytes
  bufferSize : Nat
  packetBuffer : Bytes
  length : Nat
  bufferUsed : Nat
  fileSize : Nat
  nextBlock : Nat
  errorCode : Nat
  maxSyncError : Int
  /-- `tmpaddr.sin_port`. -/
  tmpPort : Nat
  /-- `peeraddr.sin_port`. -/
  peerPort : Nat

/-- A 16 bit number in network byte order. -/
def htons (n : Nat) : Bytes := [UInt8.ofNat (n / 256), UInt8.ofNat n]

/-- The 16 bit number at `i`. -/
def ntohs (packet : Bytes) (i : Nat) : Nat :=
  (packet.getD i 0).toNat * 256 + (packet.getD (i + 1) 0).toNat

def opcode (packet : Bytes) : Nat := ntohs packet 0

def block (packet : Bytes) : Nat := ntohs packet 2

/-- Subtraction of `unsigned long`. -/
def subU32 (a b : Nat) : Nat := (a + 2 ^ 32 - b) % 2 ^ 32

/-- What the operations of the socket give: the datagrams that `tftpFlushPackets` reads, and whether
`sendto` sends. -/
structure Io where
  flushed : List Bytes
  sends : Bool

/-! ## Packets -/

/-- `tftpRRQBuild` and `tftpWRQBuild`. -/
def tftpRequestBuild (opcode : Nat) (t : Tftp) : Option Tftp :=
  let packet := htons opcode ++ t.szFileName ++ [0] ++ [111, 99, 116, 101, 116, 0]
  if packet.length ≤ dataSize then
    some { t with packetBuffer := overwrite t.packetBuffer 0 packet, length := packet.length }
  else none

def tftpRRQBuild (t : Tftp) : Option Tftp := tftpRequestBuild tftpRrq t

def tftpWRQBuild (t : Tftp) : Option Tftp := tftpRequestBuild tftpWrq t

def tftpACKBuild (t : Tftp) : Tftp :=
  { t with
    packetBuffer := overwrite t.packetBuffer 0 (htons tftpAck ++ htons t.nextBlock)
    length := 4 }

def tftpDATABuild (t : Tftp) : Option Tftp :=
  if t.bufferUsed + t.length ≤ t.buffer.length ∧ t.length ≤ segsize then
    some { t with
      packetBuffer := overwrite t.packetBuffer 0 (htons tftpData ++ htons t.nextBlock ++
        (t.buffer.drop t.bufferUsed).take t.length) }
  else none

/-- The packet that `tftpSend` gives to `sendto`. -/
def tftpPacket (t : Tftp) : Bytes := t.packetBuffer.take t.length

def tftpSend (io : Io) : Int := if io.sends then 0 else tftperrorSocket

/-- `tftpFlushPackets`. -/
def tftpFlushPackets (io : Io) (packetBuffer : Bytes) : Bytes :=
  io.flushed.foldl (fun packetBuffer datagram => overwrite packetBuffer 0 (datagram.take dataSize))
    packetBuffer

/-! ## Processing a packet -/

/-- What a function leaves, the packets that it has sent, and its result. -/
abbrev Result : Type := Tftp × List Bytes × Int

/-- `tftpReSync`, once the packet has been built. -/
def resend (io : Io) (t : Tftp) : Result :=
  if tftpSend io < 0 then (t, [tftpPacket t], tftpSend io)
  else ({ t with nextBlock := (t.nextBlock + 1) % 2 ^ 16 }, [tftpPacket t], tftpSend io)

def tftpReSync (io : Io) (t : Tftp) : Option Result :=
  let t := { t with
    packetBuffer := tftpFlushPackets io t.packetBuffer
    maxSyncError := t.maxSyncError - 1 }
  if t.maxSyncError = 0 then some (t, [], tftperrorFailed)
  else
    let t := { t with nextBlock := (t.nextBlock + (2 ^ 16 - 1)) % 2 ^ 16 }
    let opCode := opcode t.packetBuffer
    if opCode = tftpData then
      if t.nextBlock = 0 then (tftpRRQBuild t).map (resend io)
      else some (resend io (tftpACKBuild t))
    else if opCode = tftpAck then
      if t.nextBlock = 0xFFFF then (tftpWRQBuild t).map (resend io)
      else (tftpDATABuild t).map (resend io)
    else some (t, [], tftperrorFailed)

/-- The first `n` bytes behind the header. -/
def packetData (t : Tftp) (n : Nat) : Option Bytes :=
  if n ≤ segsize then some ((t.packetBuffer.drop tftpHeader).take n) else none

def processError (t : Tftp) : Option Result :=
  let t := { t with
    errorCode := block t.packetBuffer
    length := subU32 t.length tftpHeader }
  if t.bufferSize ≥ t.length then
    (packetData t t.length).map fun data =>
      ({ t with buffer := overwrite t.buffer 0 data, bufferUsed := t.length }, [],
        tftperrorErrorreply)
  else some ({ t with bufferUsed := 0 }, [], tftperrorErrorreply)

/-- A block of data is copied as far as there is room. -/
def copyData (t : Tftp) (copySize : Nat) : Option Tftp :=
  if t.bufferSize > t.bufferUsed then
    let copySize := if t.bufferSize - t.bufferUsed < copySize then t.bufferSize - t.bufferUsed
      else copySize
    (packetData t copySize).map fun data =>
      { t with
        buffer := overwrite t.buffer t.bufferUsed data
        bufferUsed := t.bufferUsed + copySize }
  else some t

def processBlock (io : Io) (t : Tftp) : Option Result :=
  let length := subU32 t.length tftpHeader
  let t := { t with
    peerPort := if t.nextBlock = 1 then t.tmpPort else t.peerPort
    maxSyncError := maxSyncTries
    length := length
    fileSize := (t.fileSize + length) % 2 ^ 32 }
  (copyData t length).map fun t =>
    let done : Int := if t.length < segsize then 1 else 0
    let t := tftpACKBuild t
    if tftpSend io < 0 then (t, [tftpPacket t], tftpSend io)
    else ({ t with nextBlock := (t.nextBlock + 1) % 2 ^ 16 }, [tftpPacket t], done)

/-- The acknowledgement that is expected. -/
def processAck (io : Io) (t : Tftp) : Option Result :=
  let copySize := subU32 t.bufferSize t.bufferUsed
  let t := { t with
    peerPort := if t.nextBlock = 0 then t.tmpPort else t.peerPort
    length := if copySize < segsize then copySize else segsize
    nextBlock := (t.nextBlock + 1) % 2 ^ 16 }
  let done : Int := if copySize = 0 then 1 else 0
  (tftpDATABuild t).map fun t =>
    let t := { t with
      bufferUsed := (t.bufferUsed + t.length) % 2 ^ 32
      length := t.length + 4 }
    (t, [tftpPacket t], if tftpSend io < 0 then tftpSend io else done)

def processOther (io : Io) (t : Tftp) : Option Result :=
  (tftpReSync io t).map fun (t, sent, rc) => ({ t with length := 0 }, sent, rc)

def tftpProcessPacket (io : Io) (t : Tftp) : Option Result :=
  if t.length = 0 then tftpReSync io t
  else
    let opCode := opcode t.packetBuffer
    if opCode = tftpError then processError t
    else if opCode = tftpData then
      if t.nextBlock ≠ block t.packetBuffer then processOther io t else processBlock io t
    else if opCode = tftpAck then
      if t.nextBlock ≠ block t.packetBuffer then processOther io t else processAck io t
    else some (t, [], tftperrorFailed)

/-! ## The loop -/

inductive Phase where
  | start
  | loop
  /-- What `sl_TftpRecv` or `sl_TftpSend` returns, with `*FileSize`. -/
  | returned (rc : Int) (fileSize : Nat)
deriving DecidableEq

/-- What `recvfrom` gives. -/
inductive Act where
  /-- The request has been built and is sent. -/
  | start (io : Io)
  /-- A datagram of `PeerAddress` or of another host. -/
  | recv (peer : Bool) (port : Nat) (bytes : Bytes) (io : Io)
  | timeout (io : Io)
  | error

def finish (t : Tftp) (rc : Int) : Phase :=
  if rc < 0 then .returned rc t.bufferUsed
  else if rc = 1 then .returned (if t.bufferUsed < t.fileSize then 0 else 1) t.fileSize
  else .loop

/-- A step of a transfer: where it is then, and the packets that it has sent. -/
abbrev Outcome : Type := Tftp × Phase × List Bytes

/-- `tftpProcessPacket` in the loop. -/
def process (io : Io) (t : Tftp) : Option Outcome :=
  (tftpProcessPacket io t).map fun (t, sent, rc) => (t, finish t rc, sent)

def fromPeer (t : Tftp) (peer : Bool) (port : Nat) : Bool :=
  peer && (t.peerPort = portTftp || port = t.peerPort)

/-- `recvfrom` has put a datagram into the packet buffer. -/
def recvfrom (t : Tftp) (port : Nat) (bytes : Bytes) : Tftp :=
  { t with packetBuffer := overwrite t.packetBuffer 0 (bytes.take dataSize), tmpPort := port }

def loopStep (t : Tftp) : Act → Option Outcome
  | .start _ => some (t, .loop, [])
  | .recv peer port bytes io =>
    let received := recvfrom t port bytes
    if fromPeer t peer port then
      process io { received with length := (bytes.take dataSize).length }
    else some (received, .loop, [])
  | .timeout io => process io { t with length := 0 }
  | .error => some (t, finish t tftperrorSocket, [])

/-- The beginning of `tftpGetFile` and of `tftpSendFile`. -/
def transferStart (build : Tftp → Option Tftp) (nextBlock : Nat) (io : Io) (t : Tftp) :
    Option Outcome :=
  (build t).map fun t =>
    if tftpSend io < 0 then (t, finish t (tftpSend io), [tftpPacket t])
    else ({ t with maxSyncError := maxSyncTries, nextBlock := nextBlock }, .loop, [tftpPacket t])

def transferStep (build : Tftp → Option Tftp) (nextBlock : Nat) (t : Tftp) (phase : Phase)
    (act : Act) : Option Outcome :=
  match phase, act with
  | .start, .start io => transferStart build nextBlock io t
  | .start, _ => some (t, .start, [])
  | .loop, act => loopStep t act
  | .returned rc fileSize, _ => some (t, .returned rc fileSize, [])

def tftpGetFile : Tftp → Phase → Act → Option Outcome := transferStep tftpRRQBuild 1

def tftpSendFile : Tftp → Phase → Act → Option Outcome := transferStep tftpWRQBuild 0

/-- What `sl_TftpRecv` and `sl_TftpSend` set up. What the packet buffer holds is not defined. -/
def tftpInit (szFileName buffer : Bytes) (packetBuffer : Vector UInt8 dataSize) : Tftp where
  szFileName := szFileName
  buffer := buffer
  bufferSize := buffer.length
  packetBuffer := packetBuffer.toList
  length := 0
  bufferUsed := 0
  fileSize := 0
  nextBlock := 0
  errorCode := 0
  maxSyncError := 0
  tmpPort := 0
  peerPort := portTftp

/-! ## Lemmas -/

theorem htons_value (n : Nat) :
    (UInt8.ofNat (n / 256)).toNat * 256 + (UInt8.ofNat n).toNat = n % 2 ^ 16 := by
  simp only [UInt8.toNat_ofNat']
  omega

theorem htons_mod (n : Nat) : htons (n % 2 ^ 16) = htons n := by
  unfold htons
  congr 1
  · apply UInt8.toNat_inj.1
    simp only [UInt8.toNat_ofNat']
    omega
  · congr 1
    apply UInt8.toNat_inj.1
    simp only [UInt8.toNat_ofNat']
    omega

@[simp] theorem length_htons (n : Nat) : (htons n).length = 2 := rfl

theorem opcode_htons (n : Nat) (rest : Bytes) : opcode (htons n ++ rest) = n % 2 ^ 16 :=
  htons_value n

theorem block_htons (m n : Nat) (rest : Bytes) : block (htons m ++ htons n ++ rest) = n % 2 ^ 16 :=
  htons_value n

theorem tftpPacket_overwrite (t : Tftp) (packet : Bytes) :
    tftpPacket { t with
      packetBuffer := overwrite t.packetBuffer 0 packet
      length := packet.length } = packet :=
  take_overwrite_zero _ _

end SimpleLink.NetApps.TftpClient
