import Mathlib.Data.List.Basic
import SimpleLink.NetApps.Smtp

/-!
# The XMPP client (`xmpp.c`)

`sl_NetAppXmppConnect` opens a socket and runs `_SlXmppConnectionSM` on it: a loop that receives, if
the round before asked for it, acts on the state and sends what there is to send. The state of the
machine is a global and outlives the call. A call is cut here where it waits for the network: `Call`
is what the function has then, and the network answers with a piece of data, a close or a failure.

The receive buffer is the data and the zeros after it; reading behind it, using a null search
result, and writing behind `MyJid` or `g_RosterJid` have no outcome.
-/

namespace SimpleLink.NetApps.Xmpp

open Smtp (Bytes ascii)

/-- `sizeof(g_RecvBuf)`. -/
abbrev recvBufSize : Nat := 2048

/-- The size of `MyJid` and of `g_RosterJid`. -/
abbrev jidSize : Nat := 128

def SL_ESECSNOVERIFY : Int := -453

/-- `_SlXMPPStatus_e`. -/
inductive XmppStatus where
  | inactive
  | init
  | firstStreamSent
  | firstStreamRecv
  | starttlsResponseRecv
  | authQuerySet
  | authResultRecv
  | bindFeatureRequest
  | bindFeatureResponse
  | bindConfigSet
  | bindConfigRecv
  | sessionSet
  | sessionRecv
  | presenceSet
  | connectionEstablished
  | rosterRequest
  | rosterResponse
  deriving DecidableEq, Repr

/-- What `sl_Send` is called for. -/
inductive Request where
  | stream
  | auth
  | bind
  | session
  | presence
  | roster
  /-- `ROSTER_RESPONSE` sends an empty buffer. -/
  | empty
  deriving DecidableEq, Repr

/-- What is done with the socket of a call. -/
inductive Ev where
  | sent (r : Request) (text : Bytes) (ok : Bool)
  | received (p : Bytes)
  | eof
  | recvFailed
  deriving DecidableEq, Repr

/-- What `sl_Recv` returns: data, zero or an error. -/
inductive Recv where
  | data (p : Bytes)
  | closed
  | failed

/-- What `sl_NetAppXmppSet` has stored. -/
structure Opts where
  userName : Bytes
  password : Bytes
  domain : Bytes
  resource : Bytes
  setStatus : Nat

structure Globals where
  gXMPPStatus : XmppStatus
  myBaseKey : Bytes
  myJid : Bytes
  rosterJid : Bytes
  gSockID : Int

def globalsInit : Globals where
  gXMPPStatus := .init
  myBaseKey := []
  myJid := List.replicate jidSize 0
  rosterJid := List.replicate jidSize 0
  gSockID := 0

/-- The results of the calls before the state machine, and the sends that fail. -/
structure Attempt where
  socket : Int
  method : Int
  cipher : Int
  connect : Int
  refuses : Request → Bool

/-- A run of the state machine. -/
structure Call where
  g : Globals
  refuses : Request → Bool
  recvRetVal : Int
  needToReceive : Bool
  log : List Ev

/-! ## Strings in the buffer -/

/-- `strstr`: from the first place in the string where the needle is. -/
def strstr (needle : Bytes) : Bytes → Option (Option Bytes)
  | [] => none
  | c :: s =>
    if needle.isPrefixOf (c :: s) then some (some (c :: s))
    else if c = 0 then some none
    else strstr needle s

/-- Whether `strncmp` finds no difference, for the length of the second string. -/
def strncmpEq : Bytes → Bytes → Option Bool
  | _, [] => some true
  | [], _ :: _ => none
  | c :: s, d :: ds => if c ≠ d then some false else if c = 0 then some true else strncmpEq s ds

/-- The loops that copy up to a character; `room` is what is left of the target. -/
def copyUntil (stop : UInt8) : Nat → Bytes → Option (Bytes × Bytes)
  | _, [] => none
  | room, c :: s =>
    if c = stop then some ([], c :: s)
    else match room with
      | 0 => none
      | room + 1 => (copyUntil stop room s).map fun (copied, rest) => (c :: copied, rest)

/-- `strlen` is zero. -/
def isEmptyString (buf : Bytes) : Option Bool :=
  if 0 ∈ buf then some (buf.head? = some 0) else none

def overwrite (array bytes : Bytes) : Bytes := bytes ++ array.drop bytes.length

def cString (array : Bytes) : Bytes := array.takeWhile (· ≠ 0)

/-! ## The validators -/

def streamTag : Bytes := ascii "stream:stream"
def fromTag : Bytes := ascii "from="
def successTag : Bytes := ascii "<success"
def bindTag : Bytes := ascii "xmpp-bind"
def resultWord : Bytes := ascii "result"
def bindWord : Bytes := ascii "bind"
def jidTag : Bytes := ascii "<jid>"
def rosterTag : Bytes := ascii "jabber:iq:roster"
def rosterId : Bytes := ascii "roster_1"
def itemTag : Bytes := ascii "item jid="

/-- `_SlValidateServerInfo`. -/
def slValidateServerInfo (domain buf : Bytes) : Option Bool :=
  match strstr streamTag buf with
  | none => none
  | some none => some false
  | some (some _) =>
    match strstr fromTag buf with
    | some (some pServerStr) => strncmpEq (pServerStr.drop 6) domain
    | _ => none

/-- `_SlValidateQueryResult`. -/
def slValidateQueryResult (buf : Bytes) : Option Bool := (strstr successTag buf).map (·.isSome)

/-- `_SlValidateBindFeature`. -/
def slValidateBindFeature (buf : Bytes) : Option Bool := (strstr bindTag buf).map (·.isSome)

/-- `_SlXMPPSessionConfig`. -/
def slXMPPSessionConfig (buf : Bytes) : Option Bool := (strstr resultWord buf).map (·.isSome)

/-- Both words are in the string; the second is looked for if the first is there. -/
def hasBoth (first second buf : Bytes) : Option Bool :=
  match strstr first buf with
  | none => none
  | some none => some false
  | some (some _) => (strstr second buf).map (·.isSome)

/-- `_SlBindingConfigure`, with the new `MyJid` if there is one. -/
def slBindingConfigure (myJid buf : Bytes) : Option (Option Bytes) :=
  match hasBoth resultWord bindWord buf with
  | none => none
  | some false => some none
  | some true =>
    match strstr jidTag buf with
    | none => none
    | some none => some none
    | some (some pJid) =>
      match copyUntil 0x3C jidSize (pJid.drop 5) with
      | none => none
      | some (jid, _) =>
        if jid.length < jidSize then some (some (overwrite myJid (jid ++ [0]))) else none

/-- The loop of `_SlValidateRoster`, from the search result `pJid`. -/
def rosterLoop : Nat → Bytes → Option Bytes → Option Bytes
  | _, rosterJid, none => some rosterJid
  | 0, _, some _ => none
  | fuel + 1, rosterJid, some pJid =>
    match copyUntil 0x20 jidSize (pJid.drop 10) with
    | none => none
    | some (jid, rest) =>
      if jid = [] then none
      else
        match strstr itemTag rest with
        | none => none
        | some next => rosterLoop fuel (overwrite rosterJid (jid.dropLast ++ [0])) next

/-- `_SlValidateRoster`, with `g_RosterJid` if the answer is one. -/
def slValidateRoster (rosterJid buf : Bytes) : Option (Option Bytes) :=
  match hasBoth rosterTag rosterId buf with
  | none => none
  | some false => some none
  | some true =>
    match strstr itemTag buf with
    | none => none
    | some pJid => (rosterLoop buf.length rosterJid pJid).map some

/-! ## The state machine -/

def streamText (o : Opts) : Bytes :=
  ascii "<stream:stream to='" ++ o.domain ++ ascii "' " ++
    ascii "version='1.0' xmlns:stream='http://etherx.jabber.org/streams' xmlns='jabber:client'>"

def authText (key : Bytes) : Bytes :=
  ascii "<auth xmlns='urn:ietf:params:xml:ns:xmpp-sasl' mechanism='PLAIN'>" ++ cString key ++
    ascii "</auth>"

def bindText (o : Opts) : Bytes :=
  ascii "<iq id='JAJSBind' type='set'><bind xmlns='urn:ietf:params:xml:ns:xmpp-bind'><resource>" ++
    o.resource ++ ascii "</resource></bind></iq>"

def sessionText : Bytes :=
  ascii "<iq type='set' id='2'><session xmlns='urn:ietf:params:xml:ns:xmpp-session'/></iq>"

def presenceText : Bytes :=
  ascii "<presence><priority>4</priority><status>Online</status><c xmlns='http://jabber.org/protocol/caps' node='http://jajc.jrudevels.org/caps' ver='0.0.8.125 (04.01.2012)'/></presence>"

def rosterText (myJid : Bytes) : Bytes :=
  ascii "<iq type='get' id='roster_1' from='" ++ cString myJid ++
    ascii "'> <query xmlns='jabber:iq:roster'/></iq>"

/-- `GenerateBase64Key`, which always succeeds. -/
def generateBase64Key (o : Opts) : Bytes :=
  Smtp.convertToBase64
    (o.userName ++ ascii "@" ++ o.domain ++ [0] ++ o.userName ++ [0] ++ o.password)

def Call.goto (c : Call) (st : XmppStatus) (needToReceive : Bool) : Call :=
  { c with g := { c.g with gXMPPStatus := st }, needToReceive := needToReceive }

/-- `sl_Send` of what is in the buffer, up to its NUL. -/
def Call.send (c : Call) (r : Request) (text : Bytes) : Call :=
  { c with log := c.log ++ [.sent r (cString text) (!c.refuses r)] }

/-- The states that wait for an answer: if it is the right one, on to the next state. -/
def answered (c : Call) (valid : Option Bool) (next : XmppStatus) : Option Call :=
  if 0 < c.recvRetVal then
    valid.map fun ok => if ok then c.goto next false else { c with needToReceive := true }
  else some { c with needToReceive := true }

/-- The `switch` and what is sent after it. -/
def smSwitch (o : Opts) (buf : Bytes) (c : Call) : Option Call :=
  match c.g.gXMPPStatus with
  | .init => some ((c.goto .firstStreamSent true).send .stream (streamText o))
  | .firstStreamSent => answered c (slValidateServerInfo o.domain buf) .firstStreamRecv
  | .firstStreamRecv => some (c.goto .starttlsResponseRecv c.needToReceive)
  | .starttlsResponseRecv =>
    some ((c.goto .authQuerySet true).send .auth (authText c.g.myBaseKey))
  | .authQuerySet => answered c (slValidateQueryResult buf) .authResultRecv
  | .authResultRecv => some ((c.goto .bindFeatureResponse true).send .stream (streamText o))
  | .bindFeatureRequest => some (c.goto .bindFeatureResponse false)
  | .bindFeatureResponse => answered c (slValidateBindFeature buf) .bindConfigSet
  | .bindConfigSet => some ((c.goto .bindConfigRecv true).send .bind (bindText o))
  | .bindConfigRecv =>
    if 0 < c.recvRetVal then
      (slBindingConfigure c.g.myJid buf).map fun
        | some myJid => { c with g := { c.g with myJid := myJid } }.goto .sessionSet false
        | none => c.goto .init false
    else some (c.goto .init false)
  | .sessionSet => some ((c.goto .sessionRecv true).send .session sessionText)
  | .sessionRecv => answered c (slXMPPSessionConfig buf) .presenceSet
  | .presenceSet => some ((c.goto .rosterRequest false).send .presence presenceText)
  | .rosterRequest => some ((c.goto .rosterResponse false).send .roster (rosterText c.g.myJid))
  | .rosterResponse =>
    (slValidateRoster c.g.rosterJid buf).map fun
      | some rosterJid => { c with g := { c.g with rosterJid := rosterJid } }.goto .connectionEstablished false
      | none => { c with needToReceive := true }.send .empty []
  | .inactive => some c
  | .connectionEstablished => some c

def zeros : Bytes := List.replicate recvBufSize 0

/-- `sl_Recv` into the flushed buffer. -/
def fill (p : Bytes) : Bytes := overwrite zeros p

/-- The rounds without a receive, up to one that receives or to the end of the loop. -/
def settle (o : Opts) : Nat → Call → Option Call
  | fuel, c =>
    if c.g.gXMPPStatus = .connectionEstablished ∨ c.needToReceive then some c
    else match fuel with
      | 0 => none
      | fuel + 1 => (smSwitch o zeros c).bind (settle o fuel)

/-- No state is this many rounds from a receive. -/
abbrev quietRounds : Nat := 4

def recvRound (o : Opts) (c : Call) : Recv → Option Call
  | .closed => some { c with recvRetVal := 0, log := c.log ++ [.eof] }
  | .failed => some { c with recvRetVal := -1, log := c.log ++ [.recvFailed] }
  | .data p =>
    let p := p.take recvBufSize
    let c := { c with recvRetVal := p.length, log := c.log ++ [.received p] }
    match isEmptyString (fill p) with
    | none => none
    | some true => some c
    | some false => (smSwitch o (fill p) c).bind (settle o quietRounds)

/-- `_SlXmppConnectionSM`, up to the first receive. -/
def slXmppConnectionSM (o : Opts) (g : Globals) (refuses : Request → Bool) : Option Call :=
  let g := { g with
    myJid := List.replicate jidSize 0
    rosterJid := List.replicate jidSize 0 }
  if g.gXMPPStatus = .inactive then some ⟨g, refuses, 0, false, []⟩
  else settle o quietRounds ⟨{ g with myBaseKey := generateBase64Key o }, refuses, 0, false, []⟩

/-! ## The calls -/

/-- The globals, and the call that waits for the network, if there is one. -/
structure Client where
  g : Globals
  call : Option Call

/-- What happens next: the application connects, or the network answers a receive. -/
inductive Input where
  | connect (a : Attempt)
  | recv (r : Recv)

/-- What a call returns, the state machine's status then, and what it did with its socket. -/
structure Returned where
  value : Int
  status : XmppStatus
  log : List Ev

def Call.done (c : Call) : Bool :=
  c.g.gXMPPStatus = .connectionEstablished || c.g.gXMPPStatus = .inactive

def Client.settled (c : Call) : Client × Option Returned :=
  if c.done then (⟨c.g, none⟩, some ⟨c.g.gSockID, c.g.gXMPPStatus, c.log⟩)
  else (⟨c.g, some c⟩, none)

def Client.refused (g : Globals) : Client × Option Returned :=
  (⟨g, none⟩, some ⟨-1, g.gXMPPStatus, []⟩)

/-- `sl_NetAppXmppConnect`, up to its first receive or its end. -/
def slNetAppXmppConnect (o : Opts) (g : Globals) (a : Attempt) : Option (Client × Option Returned) :=
  if o.setStatus ≠ 0x1F then some (Client.refused g)
  else
    let g := { g with gSockID := a.socket }
    if a.socket < 0 then some (Client.refused g)
    else if a.method < 0 then some (Client.refused g)
    else if a.cipher < 0 then some (Client.refused g)
    else if a.connect < 0 ∧ a.connect ≠ SL_ESECSNOVERIFY then some (Client.refused g)
    else (slXmppConnectionSM o g a.refuses).map Client.settled

/-- The client is one thread: while a call waits there is no other, and without one no receive. -/
def clientStep (o : Opts) (s : Client) : Input → Option (Client × Option Returned)
  | .connect a =>
    match s.call with
    | none => slNetAppXmppConnect o s.g a
    | some _ => some (s, none)
  | .recv r =>
    match s.call with
    | none => some (s, none)
    | some c => (recvRound o c r).map Client.settled

end SimpleLink.NetApps.Xmpp
