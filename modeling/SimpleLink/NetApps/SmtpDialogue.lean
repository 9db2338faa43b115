import SimpleLink.NetApps.Smtp
import SimpleLink.Lib.Cut
import SimpleLink.Lib.History

/-!
# The mail dialogue

A reply is one or more lines, of which all but the last have a hyphen after the code (`replyCutter`).
`Dialogue` is what a caller relies on, at every call of a run: header and body go out only after
every command has been accepted, a mail is reported as sent exactly if it was taken, the outcome is
that of the replies however they were cut, and the socket of every connection is closed once. The
runs within `DialogueCond` have it: each piece that is received is one reply, and no mail is sent
over a socket that is closed.
-/

namespace SimpleLink.NetApps.Smtp

open Lib

/-! ## Replies -/

/-- A reply is read line by line; the state is the line so far. -/
def replyCutter : Cutter UInt8 Bytes where
  start := []
  next line b := if b = 10 then [] else line ++ [b]
  ends line b := b = 10 && getElem? line 3 ≠ some 45

def replies (stream : Bytes) : List Bytes := replyCutter.cut stream

def code (reply : Bytes) : Bytes := reply.take 3

/-! ## What has been said -/

def Cmd.asks : Cmd → Bool
  | .helo | .authLogin | .user | .password | .mailFrom _ | .rcptTo _ | .data | .dataEnd => true
  | _ => false

def Cmd.isContent : Cmd → Bool
  | .subject | .to | .sender | .crlf | .body | .dataEnd => true
  | _ => false

def askedBy : Ev → List Cmd
  | .send c _ true => if c.asks then [c] else []
  | _ => []

def receivedBy : Ev → List Bytes
  | .received p => [p]
  | _ => []

def asked (log : List Ev) : List Cmd := log.flatMap askedBy

def pieces (log : List Ev) : List Bytes := log.flatMap receivedBy

def codes (log : List Ev) : List Bytes := (replies (pieces log).flatten).map code

/-- The command with the plain address is accepted, or rejected and the one in brackets accepted. -/
inductive Retried (c : Bool → Cmd) : List Cmd → List Bytes → Prop where
  | first : Retried c [c false] [cSmtpCodeOkReply]
  | second {rejected : Bytes} (h : rejected ≠ cSmtpCodeOkReply) :
      Retried c [c false, c true] [rejected, cSmtpCodeOkReply]

/-- Whenever a command is sent, all before it have been replied to. -/
def InStep (log : List Ev) : Prop :=
  Throughout (fun before e => match e with
    | .send c _ true => c.asks = true → (codes before).length = (asked before).length + 1
    | _ => True) log

/-- Everything up to DATA has been accepted, one command after the other. -/
def Accepted (log : List Ev) : Prop :=
  InStep log ∧ ∃ fromCmds fromCodes rcptCmds rcptCodes,
    Retried .mailFrom fromCmds fromCodes ∧ Retried .rcptTo rcptCmds rcptCodes ∧
    asked log = [.helo, .authLogin, .user, .password] ++ fromCmds ++ rcptCmds ++ [.data] ∧
    codes log = [cSmtpCodeReady, cSmtpCodeOkReply, cSmtpCodeAuthReply, cSmtpCodeAuthReply,
      cSmtpCodeAuthSuccess] ++ fromCodes ++ rcptCodes ++ [cSmtpCodeIntermedReply]

/-- Header and body are sent, or tried, only after all commands have been accepted. -/
def Guarded (log : List Ev) : Prop :=
  Throughout (fun before e => match e with
    | .send c _ _ => c.isContent = true → Accepted before
    | _ => True) log

/-- The last command is the end of the data, and its reply is 250. -/
def Confirmed (log : List Ev) : Prop :=
  (asked log).getLast? = some .dataEnd ∧
    (codes log)[(asked log).length]? = some cSmtpCodeOkReply

/-- No command is sent, or tried, after the socket has been closed. -/
def Silent (log : List Ev) : Prop :=
  Throughout (fun before e => match e with
    | .send _ _ _ => .close ∉ before
    | _ => True) log

/-! ## What the caller relies on -/

def Session.live (s : Session) : Bool := s.smtp.held && s.smtp.conn.connected && s.smtp.conn.isOpen

structure SocketKept (c : Conn) : Prop where
  guarded : Guarded c.log
  silent : Silent c.log
  /-- A connection is closed once, as soon as it is not open. -/
  closed : c.connected = true → c.log.count .close = if c.isOpen then 0 else 1

/-- Of the connections only the one of a live session is not closed yet. -/
structure SocketsKept (s : Session) : Prop where
  now : SocketKept s.smtp.conn
  open_live : s.smtp.conn.connected = true → s.smtp.conn.isOpen = true → s.live = true
  past : ∀ c ∈ s.past, SocketKept c ∧ (c.connected = true → c.isOpen = false)

def Session.recut (s : Session) : Session :=
  { s with smtp := { s.smtp with conn := { s.smtp.conn with
      left := replies s.smtp.conn.left.flatten } } }

def outcome (r : Session × (Int × Bytes)) : (Int × Bytes) × List Cmd × List Bytes :=
  (r.2, asked r.1.smtp.conn.log, codes r.1.smtp.conn.log)

def Reported (s s' : Session) (ret : Int) : Prop :=
  ret = SL_EMAIL_ERROR_NONE ↔
    s.iConnectStatus = 0 ∧ s.smtp.held = true ∧ Confirmed s'.smtp.conn.log

def Dialogue (s : Session) (i : Call) : Prop :=
  ∃ s' out, smtpStep s i = some (s', out) ∧ SocketsKept s' ∧
    match i with
    | .connect _ => True
    | .send _ => Reported s s' out.1 ∧ (smtpStep s.recut i).map outcome = some (outcome (s', out))

/-- The code of reply `k`, if there is one. -/
def codeAt (ps : List Bytes) (k : Nat) : Option Bytes := ps[k]?.map code

/-- AUTH LOGIN or the user name is answered as if it were the password. -/
def EarlyAuth (ps : List Bytes) : Prop :=
  codeAt ps 0 = some cSmtpCodeReady ∧ codeAt ps 1 = some cSmtpCodeOkReply ∧
    (codeAt ps 2 = some cSmtpCodeAuthSuccess ∨
      codeAt ps 2 = some cSmtpCodeAuthReply ∧ codeAt ps 3 = some cSmtpCodeAuthSuccess)

instance (ps : List Bytes) : Decidable (EarlyAuth ps) := by
  unfold EarlyAuth; infer_instance

/-- Each piece is one reply that fits the buffer, no password is asked for in vain, and QUIT goes
out. -/
structure Cooperative (c : Conn) : Prop where
  cut : c.left = replies c.left.flatten
  fits : ∀ p ∈ c.left, p.length ≤ SMTP_BUF_LEN
  auth : ¬ EarlyAuth c.left
  quit : c.refuses .quit = false

/-- When the calls can be made: a new connection only when none is live, and a mail only over a
socket that is open, or none. -/
def DialogueCond (s : Session) : Call → Prop
  | .connect _ => s.uiEmailSetStatus ≥ 0x07 → s.live = false
  | .send _ =>
    s.iConnectStatus = 0 → s.smtp.held = true →
      s.smtp.conn.isOpen = true ∧ Cooperative s.smtp.conn

/-! ## Logs -/

variable {c₀ : Conn} {s s' : Globals} {log : List Ev} {cs : List Cmd} {ks : List Bytes}

theorem pieces_append (l₁ l₂ : List Ev) : pieces (l₁ ++ l₂) = pieces l₁ ++ pieces l₂ :=
  List.flatMap_append

theorem codes_eq (h : ∀ q ∈ pieces log, replyCutter.Whole q) : codes log = (pieces log).map code := by
  rw [codes, replies, replyCutter.cut_flatten h]

theorem hasCode_iff {buf k : Bytes} (hk : k.length = 3) (h0 : 0 ∉ k) :
    hasCode buf k = true ↔ code buf = k := by
  obtain ⟨a, b, c, rfl⟩ := List.length_eq_three.1 hk
  simp only [List.mem_cons, List.not_mem_nil, or_false, not_or] at h0
  rcases buf with _ | ⟨x, _ | ⟨y, _ | ⟨z, rest⟩⟩⟩ <;> simp [hasCode, code] <;> grind

theorem asked_of_dataEnd (h : .dataEnd ∈ asked log) : ∃ text, .send .dataEnd text true ∈ log := by
  obtain ⟨e, he, hc⟩ := List.mem_flatMap.1 h
  rcases e with ⟨c, text, _ | _⟩ | _ | _ | _ | _
  · cases hc
  · rw [askedBy] at hc
    split at hc
    · exact ⟨text, List.mem_singleton.1 hc ▸ he⟩
    · cases hc
  all_goals cases hc

/-! ## The dialogue up to DATA -/

def Bare (log : List Ev) : Prop := ∀ c text ok, .send c text ok ∈ log → c.isContent = false

theorem Bare.guarded (h : Bare log) : Guarded log := by
  refine throughout_of_mem fun e he before => ?_
  rcases e with ⟨c, text, ok⟩ | _ | _ | _ | _
  · intro hc
    rw [h c text ok he] at hc
    cases hc
  all_goals trivial

theorem Bare.not_confirmed (h : Bare log) : ¬ Confirmed log := by
  intro hc
  obtain ⟨text, hm⟩ := asked_of_dataEnd (List.mem_of_getLast? hc.1)
  exact Bool.noConfusion (h _ _ _ hm)

theorem Bare.append {l : List Ev} (h : Bare log) (hl : Bare l) : Bare (log ++ l) := by
  intro c text ok hm
  rcases List.mem_append.1 hm with hm | hm
  · exact h c text ok hm
  · exact hl c text ok hm

/-- What the server sends on the connection, every piece a reply. -/
structure Fed (c₀ : Conn) : Prop where
  whole : ∀ p ∈ c₀.left, replyCutter.Whole p
  fits : ∀ p ∈ c₀.left, p.length ≤ SMTP_BUF_LEN

theorem Cooperative.fed {c : Conn} (h : Cooperative c) : Fed c where
  whole _ hp := replyCutter.whole_of_mem_cut (h.cut ▸ hp)
  fits := h.fits

/-- The socket is the one the dialogue began with. -/
structure Calm (c₀ : Conn) (s : Globals) : Prop where
  held : s.held = true
  isOpen : s.conn.isOpen = true
  connected : s.conn.connected = c₀.connected
  refuses : s.conn.refuses = c₀.refuses
  fed : pieces s.conn.log ++ s.conn.left = c₀.left
  noClose : .close ∉ s.conn.log

theorem Calm.codes_eq (h : Calm c₀ s) (hf : Fed c₀) :
    codes s.conn.log = (pieces s.conn.log).map code :=
  Smtp.codes_eq fun p hp => hf.whole p (h.fed ▸ List.mem_append_left _ hp)

/-- What a command and its reply do. -/
inductive Asks (s : Globals) (c : Cmd) (text : Bytes) : Bool × Globals → Prop where
  | replied {p : Bytes} {ps : List Bytes} (h : s.conn.left = p :: ps) :
      Asks s c text (true, { s with cBuf := p, conn := { s.conn with
        left := ps, log := s.conn.log ++ [.send c text true, .received p] } })
  | ended (h : s.conn.left = []) :
      Asks s c text (true, { s with cBuf := [], conn := { s.conn with
        log := s.conn.log ++ [.send c text true, .eof] } })
  | refused :
      Asks s c text (false, { s with conn := { s.conn with
        log := s.conn.log ++ [.send c text false] } })
  | failed :
      Asks s c text (false, { s with cBuf := [], conn := { s.conn with
        log := s.conn.log ++ [.send c text true, .recvFailed] } })

theorem Calm.asks (h : Calm c₀ s) (hf : Fed c₀) (c : Cmd) (cmd cmdparam : Bytes) :
    Asks s c (cmd ++ cmdparam ++ cSmtpCrlf) (sendSMTPCommand s c cmd cmdparam true) := by
  obtain ⟨st, info, buf, held, left, ends, refuses, connected, isOpen, log⟩ := s
  obtain rfl : held = true := h.held
  obtain rfl : isOpen = true := h.isOpen
  simp only [sendSMTPCommand, slSend, Bool.true_and, if_true, Conn.done]
  cases hr : refuses c
  · simp only [Bool.not_false, recvReply, slRecv, Bool.and_true, if_true, Conn.done]
    cases left with
    | nil =>
      cases ends
      · simp only [Bool.false_eq_true, if_false]
        rw [List.append_assoc log]
        exact Asks.failed
      · rw [if_pos rfl, List.append_assoc log]
        exact Asks.ended rfl
    | cons p ps =>
      have hp : p.length ≤ SMTP_BUF_LEN :=
        hf.fits p (h.fed ▸ List.mem_append_right _ List.mem_cons_self)
      simp only [List.drop_eq_nil_of_le hp, List.take_of_length_le hp, if_true]
      rw [List.append_assoc log]
      exact Asks.replied rfl
  · exact Asks.refused

theorem Asks.calm {c : Cmd} {text : Bytes} {r : Bool × Globals} (ha : Asks s c text r)
    (h : Calm c₀ s) : Calm c₀ r.2 := by
  have hfed := h.fed
  have hno := h.noClose
  cases ha with
  | replied hl =>
    rw [hl] at hfed
    exact ⟨h.held, h.isOpen, h.connected, h.refuses, by
      simpa [pieces_append, pieces, receivedBy] using hfed, by simpa using hno⟩
  | ended hl =>
    exact ⟨h.held, h.isOpen, h.connected, h.refuses, by
      simpa [pieces_append, pieces, receivedBy] using hfed, by simpa using hno⟩
  | refused =>
    exact ⟨h.held, h.isOpen, h.connected, h.refuses, by
      simpa [pieces_append, pieces, receivedBy] using hfed, by simpa using hno⟩
  | failed =>
    exact ⟨h.held, h.isOpen, h.connected, h.refuses, by
      simpa [pieces_append, pieces, receivedBy] using hfed, by simpa using hno⟩

theorem Asks.bare {c : Cmd} {text : Bytes} {r : Bool × Globals} (ha : Asks s c text r)
    (hc : c.isContent = false) (h : Bare s.conn.log) : Bare r.2.conn.log := by
  cases ha <;> exact h.append fun c' text' ok' hm => by simp at hm; rw [hm.1]; exact hc

theorem Asks.info {c : Cmd} {text : Bytes} {r : Bool × Globals} (ha : Asks s c text r) :
    r.2.uiEmailErrorInfo = s.uiEmailErrorInfo := by
  cases ha <;> rfl

theorem Calm.goto (h : Calm c₀ s) (st : SmtpStatus) : Calm c₀ (s.goto st) :=
  ⟨h.held, h.isOpen, h.connected, h.refuses, h.fed, h.noClose⟩

theorem Calm.fail (h : Calm c₀ s) (info : Int) : Calm c₀ (s.fail info) :=
  ⟨h.held, h.isOpen, h.connected, h.refuses, h.fed, h.noClose⟩

/-- Commands `cs` have been sent, each in its turn, and replies with codes `ks` have come. -/
structure Stage (c₀ : Conn) (cs : List Cmd) (ks : List Bytes) (s : Globals) : Prop
    extends Calm c₀ s where
  askedAre : asked s.conn.log = cs
  codesAre : (pieces s.conn.log).map code = ks
  inStep : InStep s.conn.log
  inTurn : ks.length = cs.length + 1
  info : s.uiEmailErrorInfo = SL_EMAIL_ERROR_NONE
  bare : Bare s.conn.log

theorem Stage.goto (h : Stage c₀ cs ks s) (st : SmtpStatus) : Stage c₀ cs ks (s.goto st) :=
  ⟨h.toCalm.goto st, h.askedAre, h.codesAre, h.inStep, h.inTurn, h.info, h.bare⟩

/-- The dialogue has failed, and the mail was not taken. -/
structure Failing (c₀ : Conn) (s : Globals) : Prop extends Calm c₀ s where
  status : s.uiSmtpStatus = .error
  info : s.uiEmailErrorInfo ≠ SL_EMAIL_ERROR_NONE
  guarded : Guarded s.conn.log
  notConfirmed : ¬ Confirmed s.conn.log

theorem Calm.failing (h : Calm c₀ s) (hb : Bare s.conn.log) {info : Int}
    (hi : info ≠ SL_EMAIL_ERROR_NONE) : Failing c₀ (s.fail info) :=
  ⟨h.fail info, rfl, hi, hb.guarded, hb.not_confirmed⟩

/-- A state of the dialogue is left for the next one, or for the error. -/
def Advances (c₀ : Conn) (next : SmtpStatus) (cs : List Cmd) (ks : List Bytes) (s : Globals) :
    Prop :=
  s.uiSmtpStatus = next ∧ Stage c₀ cs ks s ∨ Failing c₀ s

theorem Stage.replied (h : Stage c₀ cs ks s) (hf : Fed c₀) {c : Cmd} (hc : c.asks = true)
    (hn : c.isContent = false) {text : Bytes} (ha : Asks s c text (true, s'))
    (hr : s'.cBuf ≠ []) :
    Stage c₀ (cs ++ [c]) (ks ++ [code s'.cBuf]) s' := by
  have hcalm : Calm c₀ s' := ha.calm h.toCalm
  have hbare : Bare s'.conn.log := ha.bare hn h.bare
  have hlen : (codes s.conn.log).length = (asked s.conn.log).length + 1 := by
    rw [h.toCalm.codes_eq hf, h.codesAre, h.askedAre, h.inTurn]
  cases ha with
  | replied hl =>
    refine ⟨hcalm, ?_, ?_, ?_, ?_, h.info, hbare⟩
    · simp [asked, askedBy, hc, ← h.askedAre]
    · simp [pieces, receivedBy, ← h.codesAre]
    · rw [List.append_cons, InStep, throughout_snoc, throughout_snoc]
      exact ⟨⟨h.inStep, fun _ => hlen⟩, trivial⟩
    · simp only [List.length_append, List.length_singleton, h.inTurn]
  | ended hl => exact absurd rfl hr

theorem not_hasCode_nil {k : Bytes} (hk : k.length = 3) (h0 : 0 ∉ k) : hasCode [] k = false := by
  rw [Bool.eq_false_iff]
  intro h
  rw [hasCode_iff hk h0] at h
  subst h
  cases hk

theorem Stage.accepted (h : Stage c₀ cs ks s) (hf : Fed c₀) {c : Cmd} (hc : c.asks = true)
    (hn : c.isContent = false) {text k : Bytes} (hk : k.length = 3) (h0 : 0 ∉ k)
    (ha : Asks s c text (true, s')) (hr : hasCode s'.cBuf k = true) :
    Stage c₀ (cs ++ [c]) (ks ++ [k]) s' := by
  have hne : s'.cBuf ≠ [] := by
    intro he
    rw [he, not_hasCode_nil hk h0] at hr
    cases hr
  have hs := h.replied hf hc hn ha hne
  rwa [(hasCode_iff hk h0).1 hr] at hs

theorem Stage.sends (h : Stage c₀ cs ks s) (hf : Fed c₀) {c : Cmd} (hc : c.asks = true)
    (hn : c.isContent = false) {cmd cmdparam : Bytes} {r : Bool × Globals}
    (hr : sendSMTPCommand s c cmd cmdparam true = r) :
    Calm c₀ r.2 ∧ Bare r.2.conn.log ∧ (r.1 = true → ∀ k, k.length = 3 → 0 ∉ k →
      hasCode r.2.cBuf k = true → Stage c₀ (cs ++ [c]) (ks ++ [k]) r.2) := by
  have ha := h.toCalm.asks hf c cmd cmdparam
  rw [hr] at ha
  refine ⟨ha.calm h.toCalm, ha.bare hn h.bare, fun hok k hk h0 hcode => ?_⟩
  obtain ⟨ok, s'⟩ := r
  obtain rfl : ok = true := hok
  exact h.accepted hf hc hn hk h0 ha hcode

/-! ## The states -/

theorem Stage.command (h : Stage c₀ cs ks s) (hf : Fed c₀) {c : Cmd} (cmd cmdparam : Bytes)
    {k : Bytes} (next : SmtpStatus) {info : Int} (hc : c.asks = true) (hn : c.isContent = false)
    (hk : k.length = 3) (h0 : 0 ∉ k) (hi : info ≠ SL_EMAIL_ERROR_NONE) :
    Advances c₀ next (cs ++ [c]) (ks ++ [k]) (command s c cmd cmdparam k next info) := by
  rw [Smtp.command]
  generalize hr : sendSMTPCommand s c cmd cmdparam true = r
  obtain ⟨hcalm, hbare, hnext⟩ := h.sends hf hc hn hr
  obtain ⟨_ | _, s'⟩ := r
  · exact .inr (hcalm.failing hbare hi)
  · by_cases hcode : hasCode s'.cBuf k = true
    · simp only [hcode, if_true]
      exact .inl ⟨rfl, (hnext rfl k hk h0 hcode).goto next⟩
    · simp only [hcode]
      exact .inr (hcalm.failing hbare hi)

theorem Calm.command_ended (h : Calm c₀ s) (hf : Fed c₀) (hb : Bare s.conn.log)
    (hl : s.conn.left = []) {c : Cmd} (hn : c.isContent = false) {cmd cmdparam k : Bytes}
    (hk : k.length = 3) (h0 : 0 ∉ k) {next : SmtpStatus} {info : Int}
    (hi : info ≠ SL_EMAIL_ERROR_NONE) : Failing c₀ (command s c cmd cmdparam k next info) := by
  have ha := h.asks hf c cmd cmdparam
  rw [Smtp.command]
  generalize sendSMTPCommand s c cmd cmdparam true = r at ha
  have hcalm : Calm c₀ r.2 := ha.calm h
  have hbare : Bare r.2.conn.log := ha.bare hn hb
  cases ha with
  | replied hl' =>
    rw [hl] at hl'
    cases hl'
  | ended _ =>
    simp only [not_hasCode_nil hk h0]
    exact hcalm.failing hbare hi
  | refused => exact hcalm.failing hbare hi
  | failed => exact hcalm.failing hbare hi

theorem Whole.ne_nil {q : Bytes} (h : replyCutter.Whole q) : q ≠ [] := by
  rintro rfl
  exact h

theorem Stage.addressed (h : Stage c₀ cs ks s) (hf : Fed c₀) {c : Bool → Cmd}
    (cmd address : Bytes) (next : SmtpStatus) {info : Int} (hc : ∀ b, (c b).asks = true)
    (hn : ∀ b, (c b).isContent = false) (hi : info ≠ SL_EMAIL_ERROR_NONE) :
    ∃ fc fr, Retried c fc fr ∧
      Advances c₀ next (cs ++ fc) (ks ++ fr) (addressed s c cmd address next info) := by
  have ha := h.toCalm.asks hf (c false) cmd address
  rw [Smtp.addressed]
  generalize sendSMTPCommand s (c false) cmd address true = r at ha
  obtain ⟨ok, s'⟩ := r
  have hcalm : Calm c₀ s' := ha.calm h.toCalm
  have hbare : Bare s'.conn.log := ha.bare (hn false) h.bare
  cases ok with
  | false => exact ⟨_, _, .first, .inr (hcalm.failing hbare hi)⟩
  | true =>
    by_cases hr : hasCode s'.cBuf cSmtpCodeOkReply = true
    · simp only [hr, if_true]
      have hs := h.accepted hf (hc false) (hn false) rfl (by decide) ha hr
      exact ⟨_, _, .first, .inl ⟨rfl, hs.goto next⟩⟩
    · simp only [hr]
      by_cases hne : s'.cBuf = []
      · have hleft : s'.conn.left = [] := by
          cases ha with
          | replied hl =>
            subst hne
            have hmem : [] ∈ c₀.left :=
              h.fed ▸ List.mem_append_right _ (hl ▸ List.mem_cons_self)
            exact absurd rfl (Whole.ne_nil (hf.whole [] hmem))
          | ended hl => exact hl
        exact ⟨_, _, .first, .inr (hcalm.command_ended hf hbare hleft (hn true) rfl (by decide) hi)⟩
      · have hs := h.replied hf (hc false) (hn false) ha hne
        have hrej : code s'.cBuf ≠ cSmtpCodeOkReply := fun he =>
          hr ((hasCode_iff rfl (by decide)).2 he)
        refine ⟨_, _, .second hrej, ?_⟩
        have hcmd := hs.command (k := cSmtpCodeOkReply) hf cmd (rfc address) next (hc true) (hn true)
          rfl (by decide) hi
        simpa only [List.append_assoc, List.singleton_append, Bool.false_eq_true, if_false] using hcmd

theorem Stage.codeAt (h : Stage c₀ cs ks s) {k : Nat} (hk : k < ks.length) :
    codeAt c₀.left k = ks[k]? := by
  have hlen : k < (pieces s.conn.log).length := by
    rw [← h.codesAre, List.length_map] at hk
    exact hk
  rw [Smtp.codeAt, ← h.fed, List.getElem?_append_left hlen, ← List.getElem?_map, h.codesAre]

theorem Calm.authOutcome_failing (h : Calm c₀ s) (hb : Bare s.conn.log)
    (hr : ¬ hasCode s.cBuf cSmtpCodeAuthSuccess = true) : Failing c₀ (authOutcome s) := by
  rw [authOutcome, if_neg hr]
  exact h.failing hb (by decide)

/-- What AUTH needs of the replies before it. -/
abbrev greeted : List Bytes := [cSmtpCodeReady, cSmtpCodeOkReply]

theorem Stage.auth (h : Stage c₀ [.helo] greeted s) (hf : Fed c₀) (hauth : ¬ EarlyAuth c₀.left)
    (m : Email) :
    Advances c₀ .rcptFrom [.helo, .authLogin, .user, .password]
      (greeted ++ [cSmtpCodeAuthReply, cSmtpCodeAuthReply, cSmtpCodeAuthSuccess])
      (smtpAUTH m s) := by
  have h0 : (0 : UInt8) ∉ cSmtpCodeAuthReply := by decide
  have h0' : (0 : UInt8) ∉ cSmtpCodeAuthSuccess := by decide
  have hi : SL_EMAIL_ERROR_AUTH ≠ SL_EMAIL_ERROR_NONE := by decide
  rw [smtpAUTH]
  generalize hr₁ : sendSMTPCommand s .authLogin (ascii "AUTH LOGIN") [] true = r₁
  obtain ⟨hcalm₁, hbare₁, hnext₁⟩ := h.sends hf rfl rfl hr₁
  obtain ⟨_ | _, s₁⟩ := r₁
  · exact .inr (hcalm₁.failing hbare₁ hi)
  by_cases hcode₁ : hasCode s₁.cBuf cSmtpCodeAuthReply = true
  case neg =>
    simp only [hcode₁]
    refine .inr (hcalm₁.authOutcome_failing hbare₁ fun hs => hauth ?_)
    have h₁ := hnext₁ rfl _ rfl h0' hs
    exact ⟨h₁.codeAt (by decide), h₁.codeAt (by decide), .inl (h₁.codeAt (by decide))⟩
  have h₁ := hnext₁ rfl _ rfl h0 hcode₁
  simp only [hcode₁, if_true]
  generalize hr₂ : sendSMTPCommand s₁ .user (convertToBase64 m.username) [] true = r₂
  obtain ⟨hcalm₂, hbare₂, hnext₂⟩ := h₁.sends hf rfl rfl hr₂
  obtain ⟨_ | _, s₂⟩ := r₂
  · exact .inr (hcalm₂.failing hbare₂ hi)
  by_cases hcode₂ : hasCode s₂.cBuf cSmtpCodeAuthReply = true
  case neg =>
    simp only [hcode₂]
    refine .inr (hcalm₂.authOutcome_failing hbare₂ fun hs => hauth ?_)
    have h₂ := hnext₂ rfl _ rfl h0' hs
    exact ⟨h₂.codeAt (by decide), h₂.codeAt (by decide),
      .inr ⟨h₂.codeAt (by decide), h₂.codeAt (by decide)⟩⟩
  have h₂ := hnext₂ rfl _ rfl h0 hcode₂
  simp only [hcode₂, if_true]
  generalize hr₃ : sendSMTPCommand s₂ .password (convertToBase64 m.password) [] true = r₃
  obtain ⟨hcalm₃, hbare₃, hnext₃⟩ := h₂.sends hf rfl rfl hr₃
  obtain ⟨_ | _, s₃⟩ := r₃
  · exact .inr (hcalm₃.failing hbare₃ hi)
  by_cases hcode₃ : hasCode s₃.cBuf cSmtpCodeAuthSuccess = true
  · simp only [authOutcome, hcode₃, if_true]
    exact .inl ⟨rfl, (hnext₃ rfl _ rfl h0' hcode₃).goto .rcptFrom⟩
  · exact .inr (hcalm₃.authOutcome_failing hbare₃ hcode₃)

/-- A socket over which nothing has been said. -/
structure Fresh (c₀ : Conn) (s : Globals) : Prop where
  held : s.held = true
  isOpen : s.conn.isOpen = true
  conn : s.conn = c₀
  log : s.conn.log = []
  info : s.uiEmailErrorInfo = SL_EMAIL_ERROR_NONE

theorem Fresh.calm (h : Fresh c₀ s) : Calm c₀ s where
  held := h.held
  isOpen := h.isOpen
  connected := congrArg Conn.connected h.conn
  refuses := congrArg Conn.refuses h.conn
  fed := by rw [h.log, h.conn]; rfl
  noClose := by rw [h.log]; exact List.not_mem_nil

theorem Fresh.init (h : Fresh c₀ s) (hf : Fed c₀) :
    Advances c₀ .helo [] [cSmtpCodeReady] (smtpINIT s) := by
  have hi : SL_EMAIL_ERROR_INIT ≠ SL_EMAIL_ERROR_NONE := by decide
  have hcalm := h.calm
  have hlog := h.log
  have hinfo := h.info
  obtain ⟨st, info, buf, held, left, ends, refuses, connected, isOpen, log⟩ := s
  obtain rfl : held = true := hcalm.held
  obtain rfl : isOpen = true := hcalm.isOpen
  obtain rfl : log = [] := hlog
  obtain rfl : left = c₀.left := hcalm.fed
  simp only [smtpINIT, recvReply, slRecv, Bool.and_true, if_true, Conn.done, List.nil_append]
  cases hl : c₀.left with
  | nil =>
    have hfail : ∀ e, receivedBy e = [] → e ≠ .close → (∀ c text ok, e ≠ .send c text ok) →
        Failing c₀ (Globals.fail ⟨st, info, [], true, [], ends, refuses, connected, true, [e]⟩
          SL_EMAIL_ERROR_INIT) := by
      intro e he hclose hsend
      have hcalm' : Calm c₀ ⟨st, info, [], true, [], ends, refuses, connected, true, [e]⟩ := by
        refine ⟨rfl, rfl, hcalm.connected, hcalm.refuses, ?_, ?_⟩
        · simp [pieces, he, hl]
        · simpa using hclose.symm
      refine hcalm'.failing (fun c text ok hm => ?_) hi
      exact absurd (List.mem_singleton.1 hm).symm (hsend c text ok)
    cases ends
    · exact .inr (hfail .recvFailed rfl nofun nofun)
    · exact .inr (hfail .eof rfl nofun nofun)
  | cons p ps =>
    have hp : p.length ≤ SMTP_BUF_LEN := hf.fits p (hl ▸ List.mem_cons_self)
    simp only [List.drop_eq_nil_of_le hp, List.take_of_length_le hp, if_true]
    have hcalm' : Calm c₀ ⟨st, info, p, true, ps, ends, refuses, connected, true,
        [.received p]⟩ :=
      ⟨rfl, rfl, hcalm.connected, hcalm.refuses, hl.symm, fun hm => nomatch List.mem_singleton.1 hm⟩
    have hbare : Bare [.received p] := fun c text ok hm => nomatch List.mem_singleton.1 hm
    by_cases hcode : hasCode p cSmtpCodeReady = true
    · simp only [hcode, if_true]
      have hstage : Stage c₀ [] [cSmtpCodeReady] ⟨st, info, p, true, ps, ends, refuses, connected,
          true, [.received p]⟩ := by
        refine ⟨hcalm', rfl, ?_, ?_, rfl, hinfo, hbare⟩
        · exact congrArg (fun k => [k]) ((hasCode_iff rfl (by decide)).1 hcode)
        · exact throughout_snoc.2 ⟨throughout_nil, trivial⟩
      exact .inl ⟨rfl, hstage.goto .helo⟩
    · simp only [hcode]
      exact .inr (hcalm'.failing hbare hi)

/-! ## The mail -/

theorem Retried.length {c : Bool → Cmd} {fc : List Cmd} {fr : List Bytes} (h : Retried c fc fr) :
    fc.length = fr.length := by
  cases h <;> rfl

theorem Accepted.length (h : Accepted log) : (codes log).length = (asked log).length + 1 := by
  obtain ⟨-, fc, fr, rc, rr, hf, hr, hcs, hks⟩ := h
  have hf' := hf.length
  have hr' := hr.length
  rw [hcs, hks]
  simp only [List.length_append, List.length_cons, List.length_nil]
  omega

theorem asked_snoc {e : Ev} (he : askedBy e = []) : asked (log ++ [e]) = asked log := by
  simp [asked, he]

theorem codes_snoc {e : Ev} (he : receivedBy e = []) : codes (log ++ [e]) = codes log := by
  simp [codes, pieces, he]

theorem confirmed_snoc {e : Ev} (ha : askedBy e = []) (hp : receivedBy e = []) :
    Confirmed (log ++ [e]) ↔ Confirmed log := by
  rw [Confirmed, Confirmed, asked_snoc ha, codes_snoc hp]

theorem Accepted.snoc (h : Accepted log) {c : Cmd} (hc : c.asks = false) (text : Bytes)
    (ok : Bool) : Accepted (log ++ [.send c text ok]) := by
  have ha : askedBy (.send c text ok) = [] := by
    cases ok
    · rfl
    · rw [askedBy, hc, if_neg Bool.false_ne_true]
  refine ⟨throughout_snoc.2 ⟨h.1, ?_⟩, ?_⟩
  · cases ok
    · trivial
    · intro h'
      rw [hc] at h'
      cases h'
  · rw [asked_snoc ha, codes_snoc rfl]
    exact h.2

/-- The server waits for the mail. -/
structure Granted (c₀ : Conn) (s : Globals) : Prop extends Calm c₀ s where
  guarded : Guarded s.conn.log
  accepted : Accepted s.conn.log
  noEnd : .dataEnd ∉ asked s.conn.log
  info : s.uiEmailErrorInfo = SL_EMAIL_ERROR_NONE

theorem Stage.granted {fc rc : List Cmd} {fr rr : List Bytes} (hf : Fed c₀)
    (hfr : Retried .mailFrom fc fr) (hrr : Retried .rcptTo rc rr)
    (h : Stage c₀ ([.helo, .authLogin, .user, .password] ++ fc ++ rc ++ [.data])
      (greeted ++ [cSmtpCodeAuthReply, cSmtpCodeAuthReply, cSmtpCodeAuthSuccess] ++ fr ++ rr ++
        [cSmtpCodeIntermedReply]) s) : Granted c₀ s where
  toCalm := h.toCalm
  guarded := h.bare.guarded
  accepted := by
    refine ⟨h.inStep, fc, fr, rc, rr, hfr, hrr, h.askedAre, ?_⟩
    rw [h.toCalm.codes_eq hf, h.codesAre]
    rfl
  noEnd hm := by
    obtain ⟨text, ht⟩ := asked_of_dataEnd hm
    exact Bool.noConfusion (h.bare _ _ _ ht)
  info := h.info

theorem Granted.not_confirmed (h : Granted c₀ s) : ¬ Confirmed s.conn.log :=
  fun hc => h.noEnd (List.mem_of_getLast? hc.1)

theorem Granted.send (h : Granted c₀ s) {c : Cmd} (hc : c.asks = false) (text : Bytes) :
    Granted c₀ (slSend s c text).2 := by
  simp only [slSend, h.held, if_true, Conn.done]
  generalize (s.conn.isOpen && !s.conn.refuses c) = ok
  have ha : askedBy (.send c text ok) = [] := by
    cases ok
    · rfl
    · rw [askedBy, hc, if_neg Bool.false_ne_true]
  refine ⟨⟨rfl, h.isOpen, h.connected, h.refuses, ?_, ?_⟩, ?_, h.accepted.snoc hc text ok, ?_,
    h.info⟩
  · simpa [pieces_append, pieces, receivedBy] using h.fed
  · simpa using h.noClose
  · exact throughout_snoc.2 ⟨h.guarded, fun _ => h.accepted⟩
  · simpa only [asked_snoc ha] using h.noEnd

theorem Granted.sendAll (items : List (Cmd × Bytes)) :
    ∀ {s}, Granted c₀ s → (∀ i ∈ items, i.1.asks = false) → Granted c₀ (sendAll s items).2 := by
  induction items with
  | nil => exact fun h _ => h
  | cons i items ih =>
    intro s h hi
    have hs : Granted c₀ (slSend s i.1 i.2).2 := h.send (hi i List.mem_cons_self) i.2
    rw [Smtp.sendAll]
    generalize slSend s i.1 i.2 = r at hs
    obtain ⟨_ | _, s'⟩ := r
    · exact hs
    · exact ih hs fun j hj => hi j (List.mem_cons_of_mem _ hj)

theorem Granted.failing (h : Granted c₀ s) : Failing c₀ (s.fail SL_EMAIL_ERROR_MESSAGE) :=
  have hi : SL_EMAIL_ERROR_MESSAGE ≠ SL_EMAIL_ERROR_NONE := by decide
  ⟨h.toCalm.fail _, rfl, hi, h.guarded, h.not_confirmed⟩

/-- The state machine has returned `ret`. -/
structure Finished (c₀ : Conn) (ret : Int) (s : Globals) : Prop where
  status : s.uiSmtpStatus = .init
  connected : s.conn.connected = c₀.connected
  isClosed : s.conn.isOpen = false
  kept : SocketKept s.conn
  reported : ret = SL_EMAIL_ERROR_NONE ↔ Confirmed s.conn.log

theorem silent_of_noClose (h : .close ∉ log) : Silent log := by
  intro before e after heq
  have hb : .close ∉ before := fun hm => h (heq ▸ List.mem_append_left _ hm)
  cases e with
  | send c text ok => exact hb
  | received _ => trivial
  | eof => trivial
  | recvFailed => trivial
  | close => trivial

theorem Calm.close (h : Calm c₀ s) (hg : Guarded s.conn.log) {ret : Int}
    (hr : ret = SL_EMAIL_ERROR_NONE ↔ Confirmed s.conn.log) {s' : Globals}
    (hs : s'.conn = (slClose s).conn) (hst : s'.uiSmtpStatus = .init) : Finished c₀ ret s' := by
  have hconn : s'.conn = { s.conn.done .close with isOpen := false } := by
    rw [hs, slClose, if_pos h.held]
  refine ⟨hst, ?_, ?_, ⟨?_, ?_, ?_⟩, ?_⟩
  · rw [hconn]
    exact h.connected
  · rw [hconn]
  · rw [hconn]
    exact throughout_snoc.2 ⟨hg, trivial⟩
  · rw [hconn]
    exact throughout_snoc.2 ⟨silent_of_noClose h.noClose, trivial⟩
  · intro _
    rw [hconn]
    simp [Conn.done, List.count_eq_zero_of_not_mem h.noClose]
  · rw [hconn]
    exact hr.trans (confirmed_snoc rfl rfl).symm

theorem Asks.guarded {c : Cmd} {text : Bytes} {r : Bool × Globals} (ha : Asks s c text r)
    (h : Guarded s.conn.log) (hacc : Accepted s.conn.log) : Guarded r.2.conn.log := by
  have hsent : ∀ ok, Guarded (s.conn.log ++ [.send c text ok]) := fun ok =>
    throughout_snoc.2 ⟨h, fun _ => hacc⟩
  have hboth : ∀ e, (∀ c text ok, e ≠ .send c text ok) →
      Guarded (s.conn.log ++ [.send c text true, e]) := by
    intro e he
    rw [List.append_cons]
    refine throughout_snoc.2 ⟨hsent true, ?_⟩
    cases e with
    | send c text ok => exact absurd rfl (he c text ok)
    | received _ => trivial
    | eof => trivial
    | recvFailed => trivial
    | close => trivial
  cases ha with
  | replied _ => exact hboth _ nofun
  | ended _ => exact hboth _ nofun
  | refused => exact hsent false
  | failed => exact hboth _ nofun

theorem Granted.taken (h : Granted c₀ s) (hf : Fed c₀) {text : Bytes} {r : Bool × Globals}
    (ha : Asks s .dataEnd text r) :
    Confirmed r.2.conn.log ↔ r.1 = true ∧ hasCode r.2.cBuf cSmtpCodeOkReply = true := by
  have hlen := h.accepted.length
  have hcodes := (ha.calm h.toCalm).codes_eq hf
  have hcodes₀ := h.toCalm.codes_eq hf
  cases ha with
  | replied hl =>
    rename_i p ps
    have hk : codes (s.conn.log ++ [.send .dataEnd text true, .received p]) =
        codes s.conn.log ++ [code p] := by
      rw [hcodes, hcodes₀]
      simp [pieces, receivedBy]
    have hasked : asked (s.conn.log ++ [.send .dataEnd text true, .received p]) =
        asked s.conn.log ++ [.dataEnd] := by
      simp [asked, askedBy, Cmd.asks]
    rw [Confirmed, hk, hasked, List.length_append, List.length_singleton, ← hlen,
      hasCode_iff rfl (by decide)]
    simp
  | ended hl =>
    have hk : codes (s.conn.log ++ [.send .dataEnd text true, .eof]) = codes s.conn.log := by
      rw [hcodes, hcodes₀]
      simp [pieces, receivedBy]
    have hasked : asked (s.conn.log ++ [.send .dataEnd text true, .eof]) =
        asked s.conn.log ++ [.dataEnd] := by
      simp [asked, askedBy, Cmd.asks]
    rw [Confirmed, hk, hasked, List.length_append, List.length_singleton, ← hlen,
      not_hasCode_nil rfl (by decide)]
    simp
  | refused =>
    have hk : ¬ Confirmed (s.conn.log ++ [.send .dataEnd text false]) := by
      rw [confirmed_snoc rfl rfl]
      exact h.not_confirmed
    exact iff_of_false hk fun hr => Bool.noConfusion hr.1
  | failed =>
    have hk : codes (s.conn.log ++ [.send .dataEnd text true, .recvFailed]) =
        codes s.conn.log := by
      rw [hcodes, hcodes₀]
      simp [pieces, receivedBy]
    have hasked : asked (s.conn.log ++ [.send .dataEnd text true, .recvFailed]) =
        asked s.conn.log ++ [.dataEnd] := by
      simp [asked, askedBy, Cmd.asks]
    rw [Confirmed, hk, hasked, List.length_append, List.length_singleton, ← hlen]
    simp

theorem content_asks {m : Email} {message : Bytes} :
    ∀ i ∈ content m message, i.1.asks = false := by
  intro i hi
  simp only [content, List.mem_cons, List.not_mem_nil, or_false] at hi
  rcases hi with rfl | rfl | rfl | rfl | rfl <;> rfl

theorem Granted.message (h : Granted c₀ s) (hf : Fed c₀) (hq : c₀.refuses .quit = false)
    (m : Email) (message : Bytes) {r : Bool × Globals} (hr : smtpMESSAGE m message s = r) :
    if r.1 = true then Finished c₀ r.2.uiEmailErrorInfo r.2 else Failing c₀ r.2 := by
  have hall := h.sendAll (content m message) content_asks
  rw [smtpMESSAGE] at hr
  generalize Smtp.sendAll s (content m message) = r₁ at hall hr
  obtain ⟨_ | _, s₁⟩ := r₁
  · subst hr
    exact hall.failing
  have ha := hall.toCalm.asks hf .dataEnd cSmtpDataEnd []
  have htaken := hall.taken hf ha
  have hguard := ha.guarded hall.guarded hall.accepted
  have hcalm := ha.calm hall.toCalm
  have hinfo := ha.info.trans hall.info
  have hi : SL_EMAIL_ERROR_MESSAGE ≠ SL_EMAIL_ERROR_NONE := by decide
  dsimp only at hr
  generalize sendSMTPCommand s₁ .dataEnd cSmtpDataEnd [] true = r₂ at *
  obtain ⟨_ | _, s₂⟩ := r₂
  · subst hr
    refine ⟨hcalm.fail _, rfl, hi, hguard, fun hc => ?_⟩
    exact Bool.noConfusion (htaken.1 hc).1
  by_cases hcode : hasCode s₂.cBuf cSmtpCodeOkReply = true
  · have hsent : slSend s₂ .quit cSmtpQuit =
        (true, { s₂ with conn := s₂.conn.done (.send .quit cSmtpQuit true) }) := by
      have hno : s₂.conn.refuses .quit = false := by rw [hcalm.refuses, hq]
      rw [slSend, if_pos hcalm.held, hcalm.isOpen, hno]
      rfl
    simp only [hcode, if_true, hsent] at hr
    subst hr
    have hcalm' : Calm c₀ { s₂ with conn := s₂.conn.done (.send .quit cSmtpQuit true) } := by
      refine ⟨hcalm.held, hcalm.isOpen, hcalm.connected, hcalm.refuses, ?_, ?_⟩
      · simpa [Conn.done, pieces, receivedBy] using hcalm.fed
      · simpa [Conn.done] using hcalm.noClose
    have hguard' : Guarded (s₂.conn.log ++ [.send .quit cSmtpQuit true]) :=
      throughout_snoc.2 ⟨hguard, fun hc => Bool.noConfusion hc⟩
    have hfin : Finished c₀ SL_EMAIL_ERROR_NONE
        { slClose { s₂ with conn := s₂.conn.done (.send .quit cSmtpQuit true) } with
          held := false, uiSmtpStatus := .init } := by
      refine hcalm'.close hguard' (iff_of_true rfl ?_) rfl rfl
      exact (confirmed_snoc rfl rfl).2 (htaken.2 ⟨rfl, hcode⟩)
    rw [if_pos rfl]
    have hinfo' : (slClose { s₂ with conn := s₂.conn.done (.send .quit cSmtpQuit true) }
        ).uiEmailErrorInfo = SL_EMAIL_ERROR_NONE := by
      rw [slClose, if_pos hcalm'.held]
      exact hinfo
    rwa [← hinfo'] at hfin
  · simp only [hcode] at hr
    subst hr
    refine ⟨hcalm.fail _, rfl, hi, hguard, fun hc => hcode (htaken.1 hc).2⟩

/-! ## The state machine -/

/-- The loop ends within `n` rounds. -/
def Runs (c₀ : Conn) (m : Email) (message : Bytes) (n : Nat) (s : Globals) : Prop :=
  ∃ ret s', smtpLoop m message n s = some (ret, s') ∧ Finished c₀ ret s'

variable {m : Email} {message : Bytes}

theorem Failing.runs (h : Failing c₀ s) (n : Nat) : Runs c₀ m message (n + 1) s := by
  refine ⟨s.uiEmailErrorInfo, (slClose s).goto .init, ?_, ?_⟩
  · rw [smtpLoop, h.status]
  · exact h.toCalm.close h.guarded (iff_of_false h.info h.notConfirmed) rfl rfl

theorem Advances.runs {next : SmtpStatus} {n : Nat} (h : Advances c₀ next cs ks s)
    (hnext : s.uiSmtpStatus = next → Stage c₀ cs ks s → Runs c₀ m message (n + 1) s) :
    Runs c₀ m message (n + 1) s := by
  obtain ⟨hst, hs⟩ | hf := h
  · exact hnext hst hs
  · exact hf.runs n

theorem Granted.runs (h : Granted c₀ s) (hf : Fed c₀) (hq : c₀.refuses .quit = false)
    (hst : s.uiSmtpStatus = .message) : Runs c₀ m message 2 s := by
  have hm := h.message hf hq m message rfl
  unfold Runs
  rw [smtpLoop, hst]
  generalize smtpMESSAGE m message s = r at hm
  obtain ⟨_ | _, s'⟩ := r
  · exact Failing.runs (by simpa using hm) 0
  · exact ⟨_, _, rfl, by simpa using hm⟩

theorem Fresh.runs (h : Fresh c₀ s) (m : Email) (message : Bytes) (hc : Cooperative c₀)
    (hst : s.uiSmtpStatus = .init) : Runs c₀ m message 8 s := by
  have hf := hc.fed
  unfold Runs
  rw [smtpLoop, hst]
  refine (h.init hf).runs fun hst₁ h₁ => ?_
  unfold Runs
  rw [smtpLoop, hst₁]
  have hhelo := h₁.command (c := .helo) (k := cSmtpCodeOkReply) hf (ascii "HELO localhost") [] .auth
    rfl rfl rfl (by decide)
    (show SL_EMAIL_ERROR_HELO ≠ SL_EMAIL_ERROR_NONE by decide)
  refine hhelo.runs fun hst₂ h₂ => ?_
  unfold Runs
  rw [smtpLoop, hst₂]
  refine (Stage.auth h₂ hf hc.auth m).runs fun hst₃ h₃ => ?_
  unfold Runs
  rw [smtpLoop, hst₃]
  obtain ⟨fc, fr, hfr, hfrom⟩ := h₃.addressed (c := .mailFrom) hf cSmtpMailFrom m.username .rcpt
    (fun _ => rfl) (fun _ => rfl)
    (show SL_EMAIL_ERROR_FROM ≠ SL_EMAIL_ERROR_NONE by decide)
  refine hfrom.runs fun hst₄ h₄ => ?_
  unfold Runs
  rw [smtpLoop, hst₄]
  obtain ⟨rc, rr, hrr, hrcpt⟩ := h₄.addressed (c := .rcptTo) hf cSmtpRcpt m.destination .data
    (fun _ => rfl) (fun _ => rfl)
    (show SL_EMAIL_ERROR_RCPT ≠ SL_EMAIL_ERROR_NONE by decide)
  refine hrcpt.runs fun hst₅ h₅ => ?_
  unfold Runs
  rw [smtpLoop, hst₅]
  have hdata := h₅.command (c := .data) (k := cSmtpCodeIntermedReply) hf cSmtpData [] .message
    rfl rfl rfl (by decide)
    (show SL_EMAIL_ERROR_DATA ≠ SL_EMAIL_ERROR_NONE by decide)
  refine hdata.runs fun hst₆ h₆ => ?_
  exact (h₆.granted hf hfr hrr).runs hf hc.quit hst₆

theorem smtpStateMachine_unheld (hst : s.uiSmtpStatus = .init) (hh : s.held = false) :
    smtpStateMachine m message s = some (SL_EMAIL_ERROR_INIT,
      { s with cBuf := [], uiEmailErrorInfo := SL_EMAIL_ERROR_INIT }) := by
  obtain ⟨st, info, buf, held, conn⟩ := s
  obtain rfl : held = false := hh
  obtain rfl : st = .init := hst
  rfl

/-! ## Runs of calls -/

structure Inv (x : Session) : Prop where
  kept : SocketsKept x
  status : x.smtp.uiSmtpStatus = .init
  usable : x.iConnectStatus = 0 → x.smtp.conn.connected = true
  unused : x.smtp.conn.connected = true → x.smtp.conn.isOpen = true → x.smtp.conn.log = []

theorem socketKept_new {c : Conn} (hlog : c.log = []) (ho : c.isOpen = true) : SocketKept c where
  guarded := by rw [hlog]; exact throughout_nil
  silent := by rw [hlog]; exact throughout_nil
  closed _ := by rw [hlog, ho]; rfl

theorem Inv.smtpInit (email : Email) (uiEmailSetStatus : UInt32) :
    Inv (smtpInit email uiEmailSetStatus) where
  kept :=
    { now := ⟨throughout_nil, throughout_nil, nofun⟩, open_live := nofun, past := nofun }
  status := rfl
  usable := nofun
  unused := nofun

theorem Inv.past_closed {x : Session} (h : Inv x) (hl : x.live = false) :
    ∀ c ∈ x.smtp.conn :: x.past, SocketKept c ∧ (c.connected = true → c.isOpen = false) := by
  intro c hc
  rcases List.mem_cons.1 hc with rfl | hc
  · refine ⟨h.kept.now, fun hconn => Bool.eq_false_iff.2 fun ho => ?_⟩
    rw [h.kept.open_live hconn ho] at hl
    cases hl
  · exact h.kept.past c hc

theorem Inv.smtpConnect {x : Session} (h : Inv x) (hl : x.live = false) (a : Attempt) :
    Inv { (smtpConnect x a).2 with iConnectStatus := (smtpConnect x a).1 } := by
  have hpast := h.past_closed hl
  rw [Smtp.smtpConnect]
  cases a.socket with
  | none =>
    refine ⟨⟨h.kept.now, fun hc ho => ?_, h.kept.past⟩, h.status, nofun, h.unused⟩
    rw [(hpast _ List.mem_cons_self).2 hc] at ho
    cases ho
  | some feed =>
    obtain ⟨left, ends, refuses⟩ := feed
    have hrefused : Inv { (x.opened left ends refuses).refused with iConnectStatus := -2 } := by
      refine ⟨⟨⟨?_, ?_, nofun⟩, nofun, hpast⟩, h.status, nofun, nofun⟩
      · exact throughout_snoc.2 ⟨throughout_nil, trivial⟩
      · exact throughout_snoc.2 ⟨throughout_nil, trivial⟩
    dsimp only
    split
    · exact hrefused
    split
    · exact hrefused
    split
    · exact ⟨⟨socketKept_new rfl rfl, nofun, hpast⟩, h.status, nofun, nofun⟩
    · exact ⟨⟨socketKept_new rfl rfl, fun _ _ => rfl, hpast⟩, h.status, fun _ => rfl,
        fun _ _ => rfl⟩

theorem Inv.connect {x : Session} (h : Inv x) {a : Attempt} (hc : DialogueCond x (.connect a)) :
    Dialogue x (.connect a) ∧ ∀ {x' out}, smtpStep x (.connect a) = some (x', out) → Inv x' := by
  have hinv : Inv (slNetAppEmailConnect x a).2 := by
    rw [slNetAppEmailConnect]
    split
    · rename_i hset
      exact h.smtpConnect (hc hset) a
    · exact h
  refine ⟨⟨_, _, rfl, hinv.kept, trivial⟩, fun he => ?_⟩
  obtain rfl := congrArg Prod.fst (Option.some.inj he)
  exact hinv

theorem Dialogue.idle {x : Session} {ret : Int} {buf : Bytes} {g g' : Globals}
    (hk : SocketsKept { x with smtp := g }) (hret : ret ≠ SL_EMAIL_ERROR_NONE)
    (hx : x.iConnectStatus ≠ 0 ∨ x.smtp.held = false)
    (hs : smtpStep x (.send message) = some ({ x with smtp := g }, (ret, buf)))
    (hr : smtpStep x.recut (.send message) = some ({ x with smtp := g' }, (ret, buf)))
    (hlog : g'.conn.log = g.conn.log) : Dialogue x (.send message) := by
  refine ⟨_, _, hs, hk, iff_of_false hret ?_, ?_⟩
  · rintro ⟨h0, hheld, -⟩
    rcases hx with hx | hx
    · exact hx h0
    · rw [hx] at hheld
      cases hheld
  · rw [hr, Option.map_some, outcome, outcome, hlog]

theorem Cooperative.recut {x : Session} (h : Cooperative x.smtp.conn) : x.recut = x := by
  rw [Session.recut, ← h.cut]

theorem Inv.send {x : Session} (h : Inv x) (hc : DialogueCond x (.send message)) :
    Dialogue x (.send message) ∧
      ∀ {x' out}, smtpStep x (.send message) = some (x', out) → Inv x' := by
  by_cases h0 : x.iConnectStatus = 0
  case neg =>
    have hs : ∀ y : Session, y.iConnectStatus ≠ 0 →
        smtpStep y (.send message) = some (y, (SL_EMAIL_ERROR_FAILED, [])) := by
      intro y hy
      rw [smtpStep, slNetAppEmailSend, if_pos hy]
      rfl
    refine ⟨Dialogue.idle h.kept (by decide) (.inl h0) (hs x h0) (hs x.recut h0) rfl, ?_⟩
    intro x' out he
    rw [hs x h0] at he
    obtain rfl := congrArg Prod.fst (Option.some.inj he)
    exact h
  cases hh : x.smtp.held with
  | false =>
    have hs : ∀ y : Session, y.iConnectStatus = 0 → y.smtp.uiSmtpStatus = .init →
        y.smtp.held = false → smtpStep y (.send message) = some ({ y with smtp := { y.smtp with
          cBuf := [], uiEmailErrorInfo := SL_EMAIL_ERROR_INIT } }, (SL_EMAIL_ERROR_INIT, [])) := by
      intro y hy hst hheld
      rw [smtpStep, slNetAppEmailSend, if_neg (not_not_intro hy),
        smtpStateMachine_unheld hst hheld]
      rfl
    have hkept : SocketsKept { x with smtp := { x.smtp with
        cBuf := [], uiEmailErrorInfo := SL_EMAIL_ERROR_INIT } } :=
      ⟨h.kept.now, h.kept.open_live, h.kept.past⟩
    refine ⟨Dialogue.idle hkept (by decide) (.inr hh) (hs x h0 h.status hh)
      (hs x.recut h0 h.status hh) rfl, ?_⟩
    intro x' out he
    rw [hs x h0 h.status hh] at he
    obtain rfl := congrArg Prod.fst (Option.some.inj he)
    exact ⟨hkept, h.status, h.usable, h.unused⟩
  | true =>
    obtain ⟨hopen, hcoop⟩ := hc h0 hh
    have hconn := h.usable h0
    have hfresh : Fresh x.smtp.conn
        { x.smtp with uiEmailErrorInfo := SL_EMAIL_ERROR_NONE } :=
      ⟨hh, hopen, rfl, h.unused hconn hopen, rfl⟩
    obtain ⟨ret, g, hrun, hfin⟩ := hfresh.runs x.email message hcoop h.status
    have hs : smtpStep x (.send message) = some ({ x with smtp := g },
        (ret, (g.cBuf.take 100).takeWhile (· ≠ 0))) := by
      rw [smtpStep, slNetAppEmailSend, if_neg (not_not_intro h0), smtpStateMachine, hrun]
      rfl
    have hkept : SocketsKept { x with smtp := g } :=
      ⟨hfin.kept, fun _ ho => Bool.noConfusion (hfin.isClosed.symm.trans ho), h.kept.past⟩
    refine ⟨⟨_, _, hs, hkept, ?_, ?_⟩, ?_⟩
    · exact hfin.reported.trans ⟨fun hr => ⟨h0, hh, hr⟩, fun hr => hr.2.2⟩
    · rw [hcoop.recut, hs]
      rfl
    · intro x' out he
      rw [hs] at he
      obtain rfl := congrArg Prod.fst (Option.some.inj he)
      exact ⟨hkept, hfin.status, fun _ => hfin.connected.trans hconn,
        fun _ ho => Bool.noConfusion (hfin.isClosed.symm.trans ho)⟩

/-- A server that says `left`, and a network that works. -/
def works (left : List Bytes) : Attempt := ⟨some (left, true, fun _ => false), 0, 0, 0⟩

def plainMail : Email := ⟨6, ascii "a@b.c", ascii "pw", ascii "d@e.f", ascii "hi"⟩

/-- The plain address of the receiver is rejected, and the one in brackets is not. -/
def pickyServer : List Bytes :=
  [ascii "220 b.c\r\n", ascii "250-b.c\r\n250 AUTH\r\n", ascii "334 a\r\n", ascii "334 b\r\n",
    ascii "235 ok\r\n", ascii "250 ok\r\n", ascii "501 no\r\n", ascii "250 ok\r\n",
    ascii "354 go\r\n", ascii "250 ok\r\n"]

end SimpleLink.NetApps.Smtp
