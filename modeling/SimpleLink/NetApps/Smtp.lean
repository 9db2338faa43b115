import SimpleLink.Lib.Run

/-!
# The mail client (`email.c`)

`smtpStateMachine` runs the whole dialogue of one mail over the socket in `g_lSmtpSocket`. The
globals of the file are `Globals`; the socket they name is a `Conn`, which holds what the network
still has to deliver on it and the log of what was done with it. A string in a buffer is the list
of its bytes, and the zeros after a reply are left out.
-/

namespace SimpleLink.NetApps.Smtp

abbrev Bytes : Type := List UInt8

def ascii (s : String) : Bytes := s.toList.map fun c => UInt8.ofNat c.toNat

theorem ascii_ofList {s : String} {l : List Char} (h : s = String.ofList l) :
    ascii s = l.map fun c => UInt8.ofNat c.toNat := by
  subst h
  rw [ascii, String.toList_ofList]

abbrev SMTP_BUF_LEN : Nat := 100

def cSmtpMailFrom : Bytes := ascii "MAIL FROM: "
def cSmtpRcpt : Bytes := ascii "RCPT TO: "
def cSmtpData : Bytes := ascii "DATA"
def cSmtpCrlf : Bytes := [13, 10]
def cSmtpSubject : Bytes := ascii "Subject: "
def cSmtpTo : Bytes := ascii "To: "
def cSmtpFrom : Bytes := ascii "From: "
def cSmtpDataEnd : Bytes := [13, 10, 46, 13, 10]
def cSmtpQuit : Bytes := ascii "QUIT" ++ cSmtpCrlf

def cSmtpCodeReady : Bytes := [50, 50, 48]
def cSmtpCodeOkReply : Bytes := [50, 53, 48]
def cSmtpCodeIntermedReply : Bytes := [51, 53, 52]
def cSmtpCodeAuthReply : Bytes := [51, 51, 52]
def cSmtpCodeAuthSuccess : Bytes := [50, 51, 53]

def SL_EMAIL_ERROR_FAILED : Int := -1
def SL_EMAIL_ERROR_NONE : Int := 0
def SL_EMAIL_ERROR_INIT : Int := 1
def SL_EMAIL_ERROR_HELO : Int := 2
def SL_EMAIL_ERROR_AUTH : Int := 3
def SL_EMAIL_ERROR_FROM : Int := 4
def SL_EMAIL_ERROR_RCPT : Int := 5
def SL_EMAIL_ERROR_DATA : Int := 6
def SL_EMAIL_ERROR_MESSAGE : Int := 7

def SL_ESECSNOVERIFY : Int := -453

/-- `_SlsmtpStatus_e`. -/
inductive SmtpStatus where
  | inactive
  | init
  | helo
  | auth
  | rcptFrom
  | rcpt
  | data
  | message
  | quit
  | error
  deriving DecidableEq, Repr

/-- What `sl_Send` is called for. -/
inductive Cmd where
  | helo
  | authLogin
  | user
  | password
  | mailFrom (rfc : Bool)
  | rcptTo (rfc : Bool)
  | data
  | subject
  | to
  | sender
  | crlf
  | body
  | dataEnd
  | quit
  deriving DecidableEq, Repr

/-- What is done with a socket. -/
inductive Ev where
  | send (c : Cmd) (text : Bytes) (ok : Bool)
  | received (p : Bytes)
  /-- `sl_Recv` returns zero. -/
  | eof
  | recvFailed
  | close
  deriving DecidableEq, Repr

/-- A socket. -/
structure Conn where
  /-- The pieces in which the bytes of the server still arrive. -/
  left : List Bytes
  /-- After the last piece the server closes; otherwise receiving fails. -/
  ends : Bool
  /-- The sends that fail. -/
  refuses : Cmd → Bool
  connected : Bool
  isOpen : Bool
  log : List Ev

/-- What `sl_NetAppEmailSet` has stored. -/
structure Email where
  securityMethod : UInt32
  username : Bytes
  password : Bytes
  destination : Bytes
  subject : Bytes

structure Globals where
  uiSmtpStatus : SmtpStatus
  uiEmailErrorInfo : Int
  cBuf : Bytes
  /-- `g_lSmtpSocket` is the number of `conn`, and not -1. -/
  held : Bool
  conn : Conn

/-! ## The socket -/

def Conn.done (c : Conn) (e : Ev) : Conn := { c with log := c.log ++ [e] }

/-- `sl_Send`. -/
def slSend (s : Globals) (c : Cmd) (text : Bytes) : Bool × Globals :=
  if s.held then
    let ok := s.conn.isOpen && !s.conn.refuses c
    (ok, { s with conn := s.conn.done (.send c text ok) })
  else (false, s)

/-- `sl_Recv` into a buffer of `SMTP_BUF_LEN` bytes. -/
def slRecv (s : Globals) : Option Bytes × Globals :=
  if s.held && s.conn.isOpen then
    match s.conn.left with
    | p :: ps =>
      let rest := p.drop SMTP_BUF_LEN
      (some (p.take SMTP_BUF_LEN),
        { s with conn := { s.conn with
            left := if rest = [] then ps else rest :: ps
            log := s.conn.log ++ [.received (p.take SMTP_BUF_LEN)] } })
    | [] =>
      if s.conn.ends then (some [], { s with conn := s.conn.done .eof })
      else (none, { s with conn := s.conn.done .recvFailed })
  else (none, s)

/-- `sl_Close`. -/
def slClose (s : Globals) : Globals :=
  if s.held then { s with conn := { s.conn.done .close with isOpen := false } } else s

/-- The receives of the file clear the buffer first. -/
def recvReply (s : Globals) : Bool × Globals :=
  match slRecv s with
  | (none, s) => (false, { s with cBuf := [] })
  | (some p, s) => (true, { s with cBuf := p })

/-- `_sendSMTPCommand`; `resp` is whether a buffer for the reply is given. -/
def sendSMTPCommand (s : Globals) (c : Cmd) (cmd cmdparam : Bytes) (resp : Bool) : Bool × Globals :=
  match slSend s c (cmd ++ cmdparam ++ cSmtpCrlf) with
  | (false, s) => (false, s)
  | (true, s) => if resp then recvReply s else (true, s)

/-- The first three bytes of the buffer are those of the code. -/
def hasCode (cBuf code : Bytes) : Bool :=
  cBuf.getD 0 0 = code.getD 0 0 && cBuf.getD 1 0 = code.getD 1 0 && cBuf.getD 2 0 = code.getD 2 0

/-! ## The states -/

def Globals.goto (s : Globals) (st : SmtpStatus) : Globals := { s with uiSmtpStatus := st }

def Globals.fail (s : Globals) (info : Int) : Globals :=
  { s with uiSmtpStatus := .error, uiEmailErrorInfo := info }

def base64Char (n : UInt8) : UInt8 :=
  (ascii "ABCDEFGHIJKLMNOPQRSTUVWXYZabcdefghijklmnopqrstuvwxyz0123456789+/").getD n.toNat 0

def convertToBase64 : Bytes → Bytes
  | a :: b :: c :: rest =>
    base64Char (a >>> 2) :: base64Char ((a &&& 0x03) <<< 4 ||| b >>> 4) ::
      base64Char ((b &&& 0x0F) <<< 2 ||| c >>> 6) :: base64Char (c &&& 0x3f) ::
      convertToBase64 rest
  | [a, b] =>
    [base64Char (a >>> 2), base64Char ((a &&& 0x03) <<< 4 ||| b >>> 4),
      base64Char ((b &&& 0x0F) <<< 2), 61]
  | [a] => [base64Char (a >>> 2), base64Char ((a &&& 0x03) <<< 4), 61, 61]
  | [] => []

/-- An address in angle brackets. -/
def rfc (address : Bytes) : Bytes := [60] ++ address ++ [62]

def smtpINIT (s : Globals) : Globals :=
  match recvReply s with
  | (false, s) => s.fail SL_EMAIL_ERROR_INIT
  | (true, s) =>
    if hasCode s.cBuf cSmtpCodeReady then s.goto .helo else s.fail SL_EMAIL_ERROR_INIT

/-- The states that send one command and go on if the reply has the code. -/
def command (s : Globals) (c : Cmd) (cmd cmdparam code : Bytes) (next : SmtpStatus)
    (info : Int) : Globals :=
  match sendSMTPCommand s c cmd cmdparam true with
  | (false, s) => s.fail info
  | (true, s) => if hasCode s.cBuf code then s.goto next else s.fail info

/-- The states that send a command with an address, and if the reply has not the code send it once
more with the address in angle brackets. -/
def addressed (s : Globals) (c : Bool → Cmd) (cmd address : Bytes) (next : SmtpStatus)
    (info : Int) : Globals :=
  match sendSMTPCommand s (c false) cmd address true with
  | (false, s) => s.fail info
  | (true, s) =>
    if hasCode s.cBuf cSmtpCodeOkReply then s.goto next
    else command s (c true) cmd (rfc address) cSmtpCodeOkReply next info

def smtpHELO (s : Globals) : Globals :=
  command s .helo (ascii "HELO localhost") [] cSmtpCodeOkReply .auth SL_EMAIL_ERROR_HELO

/-- The reply in the buffer decides, whichever of the three commands it answers. -/
def authOutcome (s : Globals) : Globals :=
  if hasCode s.cBuf cSmtpCodeAuthSuccess then s.goto .rcptFrom else s.fail SL_EMAIL_ERROR_AUTH

def smtpAUTH (m : Email) (s : Globals) : Globals :=
  match sendSMTPCommand s .authLogin (ascii "AUTH LOGIN") [] true with
  | (false, s) => s.fail SL_EMAIL_ERROR_AUTH
  | (true, s) =>
    if hasCode s.cBuf cSmtpCodeAuthReply then
      match sendSMTPCommand s .user (convertToBase64 m.username) [] true with
      | (false, s) => s.fail SL_EMAIL_ERROR_AUTH
      | (true, s) =>
        if hasCode s.cBuf cSmtpCodeAuthReply then
          match sendSMTPCommand s .password (convertToBase64 m.password) [] true with
          | (false, s) => s.fail SL_EMAIL_ERROR_AUTH
          | (true, s) => authOutcome s
        else authOutcome s
    else authOutcome s

def smtpFROM (m : Email) (s : Globals) : Globals :=
  addressed s .mailFrom cSmtpMailFrom m.username .rcpt SL_EMAIL_ERROR_FROM

def smtpRCPT (m : Email) (s : Globals) : Globals :=
  addressed s .rcptTo cSmtpRcpt m.destination .data SL_EMAIL_ERROR_RCPT

def smtpDATA (s : Globals) : Globals :=
  command s .data cSmtpData [] cSmtpCodeIntermedReply .message SL_EMAIL_ERROR_DATA

/-- The header and the body go out one after the other, until a send fails. -/
def sendAll : Globals → List (Cmd × Bytes) → Bool × Globals
  | s, [] => (true, s)
  | s, (c, text) :: rest =>
    match slSend s c text with
    | (false, s) => (false, s)
    | (true, s) => sendAll s rest

/-- What is sent before the end of the data; all but the empty line go through
`_sendSMTPCommand`. -/
def content (m : Email) (message : Bytes) : List (Cmd × Bytes) :=
  [(.subject, cSmtpSubject ++ m.subject ++ cSmtpCrlf), (.to, cSmtpTo ++ m.destination ++ cSmtpCrlf),
    (.sender, cSmtpFrom ++ m.username ++ cSmtpCrlf), (.crlf, cSmtpCrlf),
    (.body, message ++ cSmtpCrlf)]

/-- The flag is that the state machine returns. -/
def smtpMESSAGE (m : Email) (message : Bytes) (s : Globals) : Bool × Globals :=
  match sendAll s (content m message) with
  | (false, s) => (false, s.fail SL_EMAIL_ERROR_MESSAGE)
  | (true, s) =>
    match sendSMTPCommand s .dataEnd cSmtpDataEnd [] true with
    | (false, s) => (false, s.fail SL_EMAIL_ERROR_MESSAGE)
    | (true, s) =>
      if hasCode s.cBuf cSmtpCodeOkReply then
        match slSend s .quit cSmtpQuit with
        | (false, s) => (false, s.fail SL_EMAIL_ERROR_MESSAGE)
        | (true, s) => (true, { slClose s with held := false, uiSmtpStatus := .init })
      else (false, s.fail SL_EMAIL_ERROR_MESSAGE)

/-- The loop of `_smtpStateMachine`, for at most `n` rounds. -/
def smtpLoop (m : Email) (message : Bytes) : Nat → Globals → Option (Int × Globals)
  | 0, _ => none
  | n + 1, s =>
    match s.uiSmtpStatus with
    | .init => smtpLoop m message n (smtpINIT s)
    | .helo => smtpLoop m message n (smtpHELO s)
    | .auth => smtpLoop m message n (smtpAUTH m s)
    | .rcptFrom => smtpLoop m message n (smtpFROM m s)
    | .rcpt => smtpLoop m message n (smtpRCPT m s)
    | .data => smtpLoop m message n (smtpDATA s)
    | .message =>
      match smtpMESSAGE m message s with
      | (true, s) => some (s.uiEmailErrorInfo, s)
      | (false, s) => smtpLoop m message n s
    | .error => some (s.uiEmailErrorInfo, (slClose s).goto .init)
    | .inactive => smtpLoop m message n s
    | .quit => smtpLoop m message n s

def smtpStateMachine (m : Email) (message : Bytes) (s : Globals) : Option (Int × Globals) :=
  smtpLoop m message 8 { s with uiEmailErrorInfo := SL_EMAIL_ERROR_NONE }

/-! ## The calls -/

/-- All globals, and the sockets that `g_lSmtpSocket` has named before. -/
structure Session where
  email : Email
  uiEmailSetStatus : UInt32
  iConnectStatus : Int
  smtp : Globals
  past : List Conn

/-- What the device answers to the calls of `_smtpConnect`. -/
structure Attempt where
  /-- The pieces that will arrive, how the stream ends and the sends that will fail; `none` is that
  there is no socket. -/
  socket : Option (List Bytes × Bool × (Cmd → Bool))
  method : Int
  cipher : Int
  status : Int

def Session.opened (s : Session) (left : List Bytes) (ends : Bool) (refuses : Cmd → Bool) :
    Session :=
  { s with
    smtp := { s.smtp with held := true, conn := ⟨left, ends, refuses, false, true, []⟩ }
    past := s.smtp.conn :: s.past }

def Session.refused (s : Session) : Session := { s with smtp := slClose s.smtp }

def Session.connected (s : Session) : Session :=
  { s with smtp := { s.smtp with conn := { s.smtp.conn with connected := true } } }

/-- `_smtpConnect`. -/
def smtpConnect (s : Session) (a : Attempt) : Int × Session :=
  match a.socket with
  | none => (-1, { s with smtp := { s.smtp with held := false } })
  | some (left, ends, refuses) =>
    let s := s.opened left ends refuses
    let secure := s.email.securityMethod ≤ 5
    if secure ∧ a.method < 0 then (-2, s.refused)
    else if secure ∧ a.cipher < 0 then (-2, s.refused)
    else if a.status < 0 ∧ a.status ≠ SL_ESECSNOVERIFY then (-1, s)
    else (0, s.connected)

/-- `sl_NetAppEmailConnect`. -/
def slNetAppEmailConnect (s : Session) (a : Attempt) : Int × Session :=
  if s.uiEmailSetStatus ≥ 0x07 then
    let (ret, s) := smtpConnect s a
    (ret, { s with iConnectStatus := ret })
  else (-1, s)

/-- `sl_NetAppEmailSend`; the second result is what it leaves of the reply for the caller. -/
def slNetAppEmailSend (s : Session) (message : Bytes) : Option ((Int × Bytes) × Session) :=
  if s.iConnectStatus ≠ 0 then some ((SL_EMAIL_ERROR_FAILED, []), s)
  else
    (smtpStateMachine s.email message s.smtp).map fun r =>
      ((r.1, (r.2.cBuf.take 100).takeWhile (· ≠ 0)), { s with smtp := r.2 })

/-! ## Runs of calls -/

inductive Call where
  | connect (a : Attempt)
  | send (message : Bytes)

def smtpStep (s : Session) : Call → Option (Session × (Int × Bytes))
  | .connect a =>
    let (ret, s) := slNetAppEmailConnect s a
    some (s, (ret, []))
  | .send message => (slNetAppEmailSend s message).map fun r => (r.2, r.1)

/-- No socket yet. -/
def Conn.absent : Conn := ⟨[], false, fun _ => true, false, false, []⟩

/-- Before the first call, whatever `sl_NetAppEmailSet` has stored. -/
def smtpInit (email : Email) (uiEmailSetStatus : UInt32) : Session where
  email := email
  uiEmailSetStatus := uiEmailSetStatus
  iConnectStatus := -1
  smtp := ⟨.init, SL_EMAIL_ERROR_NONE, [], false, Conn.absent⟩
  past := []

end SimpleLink.NetApps.Smtp
