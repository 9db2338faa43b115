import SimpleLink.Ota.OtaApp

/-!
# What an update run may leave behind

`Ledger` is kept by what happens, not by the machine: which storage files are open for writing and
what was written to them, which have been closed, and whether the image of the MCU was downloaded since
the machine was idle, with no later attempt at it that failed. A run is right when the bootloader is
armed only for such an image, and no file and no socket is left open.
-/

namespace SimpleLink.Ota

open Lib

/-! ## What has happened -/

structure StorageFile where
  resource : Resource
  written : Int
  deriving DecidableEq

structure Ledger where
  /-- The resource that was taken from the list last. -/
  current : Resource
  openFiles : List StorageFile
  closed : List StorageFile
  /-- The image of the MCU is there. -/
  image : Bool

def StorageFile.full (f : StorageFile) : Bool := decide (f.written = f.resource.size)

def Ledger.next (l : Ledger) : OtaEv → Ledger
  | .request r => { l with current := r }
  | .opened => { l with openFiles := ⟨l.current, 0⟩ :: l.openFiles }
  | .wrote n =>
    match l.openFiles with
    | [] => l
    | f :: fs => { l with openFiles := { f with written := f.written + n } :: fs }
  | .closed =>
    match l.openFiles with
    | [] => l
    | f :: fs =>
      { l with
        openFiles := fs
        closed := f :: l.closed
        image := l.image || f.resource.isMcuImage && f.full }
  | .aborted => { l with openFiles := l.openFiles.tail }
  | .failed => { l with image := l.image && !l.current.isMcuImage }
  | .idle => { l with image := false }
  | .flcTest _ => l
  | .flcCommit _ => l

structure OtaLog where
  app : OtaApp
  ledger : Ledger

def logStep (s : OtaLog) (op : OtaOp) : Option (OtaLog × List OtaEv) :=
  some (⟨(otaStep s.app op).1, (otaStep s.app op).2.foldl Ledger.next s.ledger⟩,
    (otaStep s.app op).2)

def logInit : OtaLog := ⟨otaInit, ⟨⟨[], 0⟩, [], [], false⟩⟩

/-! ## The property and the condition -/

def armsBootloader (flags : Nat) : Prop :=
  flags &&& BootInfo.flcTestResetMcu ≠ 0 ∧ flags &&& BootInfo.flcTestResetMcuWithApp ≠ 0

/-- Every socket that was connected to a server has been closed. -/
def SocketsClosed (s : OtaApp) : Prop := s.openSocks = [] ∧ s.cdn.openSocks = []

/-- The run has ended, or none was begun. -/
def OtaApp.settled (s : OtaApp) : Prop := s.state = .idle ∨ s.state = .waitConfirm

/-- A step from `s` to `s'` in which `evs` happened. -/
structure RunRight (s s' : OtaLog) (evs : List OtaEv) : Prop where
  /-- The bootloader is armed only when the image is there. -/
  armed : ∀ flags, .flcTest flags ∈ evs → armsBootloader flags → s.ledger.image = true
  /-- What is open is one file of the resource that is being downloaded. -/
  oneFile : s'.ledger.openFiles.length ≤ 1 ∧
    ∀ f ∈ s'.ledger.openFiles, f.resource = s'.app.resource ∧ s'.app.state = .downloading
  /-- What was closed has the size that was announced. -/
  full : ∀ f ∈ s'.ledger.closed, f.full = true
  requested : ∀ r, .request r ∈ evs → s.ledger.openFiles = []
  files : s'.app.settled → s'.ledger.openFiles = []
  sockets : s'.app.settled → SocketsClosed s'.app

def OtaRight (s : OtaLog) (op : OtaOp) : Prop :=
  ∀ s' evs, logStep s op = some (s', evs) → RunRight s s' evs

/-- A step that gives up on the resource. -/
def OtaApp.fails (s : OtaApp) (e : Env) : Prop :=
  match s.state with
  | .resourceList => e.resourceMetadata.isNone
  | .metadata =>
    e.domain = none ∨ (s.cdn.cdnServerName ≠ e.domain ∧ e.connectCdn < 0) ∨ e.headers = false
  | .connectCdn => e.openFile = false
  | .downloading =>
    e.recv ≤ 0 ∨ (s.cdn.aligns e ∧ e.recvAlign ≤ 0) ∨ e.writeFile < 0 ∨
      (s.cdn.atEnd e ∧ e.closeFile = false)
  | _ => False

def OtaApp.subject (s : OtaApp) : Resource :=
  match s.state with
  | .resourceList => s.updates.headD s.resource
  | _ => s.resource

/-- What is written is written whole, no image of the MCU fails after one was downloaded, and no test
or commit is asked for in the middle of a download. -/
def OtaCond (s : OtaLog) : OtaOp → Prop
  | .run e =>
    (s.app.state = .downloading → e.writeFile < 0 ∨ e.writeFile = s.app.cdn.chunk e) ∧
      (s.app.isMCUAppUpdate = true → s.app.subject.isMcuImage = true → ¬ s.app.fails e)
  | .set .imageTest => s.app.state ≠ .downloading
  | .set (.imageCommit _) => s.app.state ≠ .downloading
  | .set _ => True

/-! ## The invariant -/

/-- The only socket that is open is the one that is recorded. -/
def Tracked (sockId : Int) (socks : List Int) : Prop := socks = connected sockId []

def SocksOk (s : OtaApp) : Prop :=
  Tracked s.serverSockId s.openSocks ∧ Tracked s.cdn.fileSockId s.cdn.openSocks

/-- What is open, in each state of the machine. -/
def StateInv (s : OtaApp) (l : Ledger) : Prop :=
  match s.state with
  | .idle | .waitConfirm => SocketsClosed s ∧ l.openFiles = []
  | .connectServer | .resourceList => l.openFiles = []
  | .metadata => l.openFiles = [] ∧ l.current = s.resource
  | .connectCdn =>
    l.openFiles = [] ∧ l.current = s.resource ∧ s.cdn.state = .cdnServerConnected ∧
      s.cdn.totalBytesReceived = 0
  | .downloading =>
    l.openFiles = [⟨s.resource, s.cdn.totalBytesReceived⟩] ∧ l.current = s.resource ∧
      s.cdn.state = .fileDownloadAndSave ∧ s.cdn.fileSize = s.resource.size

structure OtaInv (s : OtaApp) (l : Ledger) : Prop where
  image : s.isMCUAppUpdate = true → l.image = true
  full : ∀ f ∈ l.closed, f.full = true
  socks : SocksOk s
  state : StateInv s l

section

variable {s : OtaApp} {l : Ledger} {e : Env}

theorem Tracked.none {sockId : Int} {socks : List Int} (h : Tracked sockId socks)
    (hneg : ¬ 0 ≤ sockId) : socks = [] := h.trans (if_neg hneg)

theorem Tracked.slClose {sockId : Int} {socks : List Int} (h : Tracked sockId socks)
    (hpos : 0 ≤ sockId) : slClose sockId socks = [] := by
  have hone : socks = [sockId] := h.trans (if_pos hpos)
  unfold Ota.slClose
  rw [hone, List.erase_cons_head]

theorem cdnCloseServer_closed {c : Cdn} (h : Tracked c.fileSockId c.openSocks) :
    Tracked (cdnCloseServer c).fileSockId (cdnCloseServer c).openSocks ∧
      (cdnCloseServer c).openSocks = [] := by
  unfold cdnCloseServer
  dsimp only
  split
  · rename_i hpos
    exact ⟨h.slClose hpos, h.slClose hpos⟩
  · rename_i hneg
    exact ⟨h, h.none hneg⟩

theorem otaCloseServer_closed (h : Tracked s.serverSockId s.openSocks) :
    Tracked (otaCloseServer s).serverSockId (otaCloseServer s).openSocks ∧
      (otaCloseServer s).openSocks = [] ∧ (otaCloseServer s).cdn = s.cdn := by
  unfold otaCloseServer
  split
  · rename_i hpos
    exact ⟨h.slClose hpos, h.slClose hpos, rfl⟩
  · rename_i hneg
    exact ⟨h, h.none hneg, rfl⟩

theorem otaCleanToIdle_inv (hsocks : SocksOk s) (hfull : ∀ f ∈ l.closed, f.full = true)
    (hopen : l.openFiles = []) : OtaInv (otaCleanToIdle s) (l.next .idle) := by
  obtain ⟨hserver, hnone, hcdn⟩ := otaCloseServer_closed hsocks.1
  have hclosed := cdnCloseServer_closed (hcdn.symm ▸ hsocks.2)
  exact ⟨fun h => absurd h Bool.false_ne_true, hfull, ⟨hserver, hclosed.1⟩, ⟨hnone, hclosed.2⟩, hopen⟩

theorem failed_inv {s' : OtaApp} (hsocks : SocksOk s')
    (himage : s'.isMCUAppUpdate = true → l.image = true)
    (hfull : ∀ f ∈ l.closed, f.full = true) (hopen : l.openFiles = [])
    (hcond : s'.isMCUAppUpdate = true → l.current.isMcuImage = false)
    (hstate : s'.state = .resourceList) : OtaInv s' (l.next .failed) where
  image h := by
    show (l.image && !l.current.isMcuImage) = true
    rw [himage h, hcond h]
    rfl
  full := hfull
  socks := hsocks
  state := by
    unfold StateInv
    rw [hstate]
    exact hopen

/-- What a step keeps, and what it says of the events in it. -/
structure StepOk (l : Ledger) (s' : OtaApp) (evs : List OtaEv) : Prop where
  inv : OtaInv s' (evs.foldl Ledger.next l)
  armed : ∀ flags, .flcTest flags ∈ evs → armsBootloader flags → l.image = true
  requested : ∀ r, .request r ∈ evs → l.openFiles = []

def OtaEv.plain : OtaEv → Bool
  | .request _ => false
  | .flcTest _ => false
  | _ => true

theorem stepOk_plain {s' : OtaApp} {evs : List OtaEv}
    (hinv : OtaInv s' (evs.foldl Ledger.next l)) (hevs : ∀ ev ∈ evs, ev.plain = true) :
    StepOk l s' evs where
  inv := hinv
  armed _ h := nomatch hevs _ h
  requested _ h := nomatch hevs _ h

theorem not_image_of_fails
    (hcond : s.isMCUAppUpdate = true → s.subject.isMcuImage = true → ¬ s.fails e)
    (hfails : s.fails e) (h : s.isMCUAppUpdate = true) : s.subject.isMcuImage = false := by
  by_contra himage
  exact hcond h (by simpa using himage) hfails

/-! ### The steps -/

theorem idle_ok (h : OtaInv s l) (hs : s.state = .idle) :
    StepOk l (otaRun s e).1 (otaRun s e).2.2 := by
  have hstate := h.state
  unfold StateInv at hstate
  rw [hs] at hstate
  unfold otaRun
  rw [hs]
  dsimp only
  split
  · exact stepOk_plain h nofun
  · have hsocks : Tracked e.connectServer (connected e.connectServer s.openSocks) := by
      rw [hstate.1.1]
      rfl
    split
    · refine stepOk_plain (otaCleanToIdle_inv ⟨hsocks, h.socks.2⟩ h.full hstate.2) fun ev hev => ?_
      rw [List.mem_singleton.1 hev]
      rfl
    · exact stepOk_plain ⟨h.image, h.full, ⟨hsocks, h.socks.2⟩, hstate.2⟩ nofun

theorem connectServer_ok (h : OtaInv s l) (hs : s.state = .connectServer) :
    StepOk l (otaRun s e).1 (otaRun s e).2.2 := by
  have hstate := h.state
  unfold StateInv at hstate
  rw [hs] at hstate
  have hidle : ∀ ev ∈ [OtaEv.idle], ev.plain = true := fun ev hev => by
    rw [List.mem_singleton.1 hev]
    rfl
  unfold otaRun
  rw [hs]
  dsimp only
  split
  · exact stepOk_plain (otaCleanToIdle_inv h.socks h.full hstate) hidle
  · exact stepOk_plain (otaCleanToIdle_inv h.socks h.full hstate) hidle
  · exact stepOk_plain ⟨h.image, h.full, h.socks, hstate⟩ nofun

theorem resourceList_ok (h : OtaInv s l) (hs : s.state = .resourceList)
    (hcond : s.isMCUAppUpdate = true → s.subject.isMcuImage = true → ¬ s.fails e) :
    StepOk l (otaRun s e).1 (otaRun s e).2.2 := by
  have hstate := h.state
  unfold StateInv at hstate
  rw [hs] at hstate
  have hsubject : s.subject = s.updates.headD s.resource := by
    unfold OtaApp.subject
    rw [hs]
  unfold otaRun
  rw [hs]
  dsimp only
  split
  · obtain ⟨hserver, hnone, hcdn⟩ := otaCloseServer_closed h.socks.1
    have hclosed := cdnCloseServer_closed (hcdn.symm ▸ h.socks.2)
    have himage : (otaCloseServer s).isMCUAppUpdate = s.isMCUAppUpdate := by
      unfold otaCloseServer
      split <;> rfl
    refine stepOk_plain ⟨fun happ => h.image ?_, h.full, ⟨hserver, hclosed.1⟩, ?_⟩ nofun
    · rw [← himage]
      exact happ
    · exact ⟨⟨hnone, hclosed.2⟩, hstate⟩
  · rename_i r updates hupdates
    rw [hupdates] at hsubject
    split
    · rename_i hmeta
      have hfails : s.fails e := by
        unfold OtaApp.fails
        rw [hs, hmeta]
        rfl
      refine ⟨?_, fun flags hev => ?_, fun r' _ => hstate⟩
      · have hnot := not_image_of_fails hcond hfails
        rw [hsubject] at hnot
        exact failed_inv (l := l.next (.request r)) h.socks h.image h.full hstate hnot rfl
      · simp at hev
    · refine ⟨⟨h.image, h.full, h.socks, hstate, rfl⟩, fun flags hev => ?_, fun r' _ => hstate⟩
      simp at hev

theorem cdnReadHeaders_ok (c : Cdn) :
    ((cdnReadHeaders c e).2 < 0 → e.headers = false) ∧
      (¬ (cdnReadHeaders c e).2 < 0 → (cdnReadHeaders c e).1.state = .cdnServerConnected ∧
        (cdnReadHeaders c e).1.totalBytesReceived = 0) := by
  have hok : ¬ OTA_STATUS_OK < 0 := by decide
  have herror : CDN_STATUS_ERROR_READ_HDRS < 0 := by decide
  unfold cdnReadHeaders
  split
  · exact ⟨fun h => absurd h hok, fun _ => ⟨rfl, rfl⟩⟩
  · rename_i hheaders
    exact ⟨fun _ => by simpa using hheaders, fun h => absurd herror h⟩

theorem cdnConnectByUrl_ok (c : Cdn) :
    ((cdnConnectByUrl c e).2 < 0 →
        e.domain = none ∨ (c.cdnServerName ≠ e.domain ∧ e.connectCdn < 0) ∨ e.headers = false) ∧
      (¬ (cdnConnectByUrl c e).2 < 0 → (cdnConnectByUrl c e).1.state = .cdnServerConnected ∧
        (cdnConnectByUrl c e).1.totalBytesReceived = 0) := by
  have herror : OTA_STATUS_ERROR < 0 := by decide
  have haccess : OTA_STATUS_ERROR_CONTINUOUS_ACCESS < 0 := by decide
  have hconnect : CDN_STATUS_ERROR_CONNECT_CDN < 0 := by decide
  unfold cdnConnectByUrl
  split
  · rename_i hdomain
    exact ⟨fun _ => .inl hdomain, fun h => absurd herror h⟩
  · rename_i name hdomain
    split
    · exact ⟨fun h => .inr (.inr ((cdnReadHeaders_ok _).1 h)), (cdnReadHeaders_ok _).2⟩
    · rename_i hname
      dsimp only
      split
      · rename_i hsock
        refine ⟨fun _ => .inr (.inl ⟨by rw [hdomain]; exact hname, hsock⟩), fun h => absurd ?_ h⟩
        split
        · exact haccess
        · exact hconnect
      · exact ⟨fun h => .inr (.inr ((cdnReadHeaders_ok _).1 h)), (cdnReadHeaders_ok _).2⟩

theorem cdnReadHeaders_socks {c : Cdn} (h : Tracked c.fileSockId c.openSocks) :
    Tracked (cdnReadHeaders c e).1.fileSockId (cdnReadHeaders c e).1.openSocks := by
  unfold cdnReadHeaders
  split
  · exact h
  · exact (cdnCloseServer_closed h).1

theorem cdnConnectByUrl_socks {c : Cdn} (h : Tracked c.fileSockId c.openSocks) :
    Tracked (cdnConnectByUrl c e).1.fileSockId (cdnConnectByUrl c e).1.openSocks := by
  have hsocks : Tracked e.connectCdn (connected e.connectCdn (cdnCloseServer c).openSocks) := by
    rw [(cdnCloseServer_closed h).2]
    rfl
  unfold cdnConnectByUrl
  split
  · exact h
  · split
    · exact cdnReadHeaders_socks h
    · dsimp only
      split
      · exact (cdnCloseServer_closed hsocks).1
      · exact cdnReadHeaders_socks hsocks

theorem metadata_ok (h : OtaInv s l) (hs : s.state = .metadata)
    (hcond : s.isMCUAppUpdate = true → s.subject.isMcuImage = true → ¬ s.fails e) :
    StepOk l (otaRun s e).1 (otaRun s e).2.2 := by
  have hstate := h.state
  unfold StateInv at hstate
  rw [hs] at hstate
  obtain ⟨hopen, hcurrent⟩ := hstate
  have hsubject : s.subject = s.resource := by
    unfold OtaApp.subject
    rw [hs]
  obtain ⟨hfail, hconnected⟩ := cdnConnectByUrl_ok (e := e) s.cdn
  have hsocks := And.intro h.socks.1 (cdnConnectByUrl_socks (e := e) h.socks.2)
  unfold otaRun
  rw [hs]
  dsimp only
  split
  · rename_i hstatus
    have hfails : s.fails e := by
      unfold OtaApp.fails
      rw [hs]
      exact hfail hstatus
    refine stepOk_plain ?_ fun ev hev => ?_
    · have hnot := not_image_of_fails hcond hfails
      rw [hsubject, ← hcurrent] at hnot
      exact failed_inv hsocks h.image h.full hopen hnot rfl
    · rw [List.mem_singleton.1 hev]
      rfl
  · rename_i hstatus
    exact stepOk_plain ⟨h.image, h.full, hsocks, hopen, hcurrent, hconnected hstatus⟩ nofun

theorem connectCdn_ok (h : OtaInv s l) (hs : s.state = .connectCdn)
    (hcond : s.isMCUAppUpdate = true → s.subject.isMcuImage = true → ¬ s.fails e) :
    StepOk l (otaRun s e).1 (otaRun s e).2.2 := by
  have hstate := h.state
  unfold StateInv at hstate
  rw [hs] at hstate
  obtain ⟨hopen, hcurrent, hcdn, htotal⟩ := hstate
  have hsubject : s.subject = s.resource := by
    unfold OtaApp.subject
    rw [hs]
  unfold otaRun cdnRun
  rw [hs]
  dsimp only
  rw [hcdn]
  dsimp only
  cases hfile : e.openFile with
  | false =>
    have hfails : s.fails e := by
      unfold OtaApp.fails
      rw [hs]
      exact hfile
    refine stepOk_plain ?_ fun ev hev => ?_
    · have hnot := not_image_of_fails hcond hfails
      rw [hsubject, ← hcurrent] at hnot
      exact failed_inv h.socks h.image h.full hopen hnot rfl
    · rw [List.mem_singleton.1 hev]
      rfl
  | true =>
    refine stepOk_plain ⟨h.image, h.full, h.socks, ?_⟩ fun ev hev => ?_
    · refine ⟨?_, hcurrent, rfl, rfl⟩
      show (⟨l.current, 0⟩ : StorageFile) :: l.openFiles = [⟨s.resource, s.cdn.totalBytesReceived⟩]
      rw [hopen, hcurrent, htotal]
    · rw [List.mem_singleton.1 hev]
      rfl

/-- A piece of the file is not received, or not written, or the file cannot be closed. -/
def Cdn.fails (c : Cdn) (e : Env) : Prop :=
  e.recv ≤ 0 ∨ (c.aligns e ∧ e.recvAlign ≤ 0) ∨ e.writeFile < 0 ∨ (c.atEnd e ∧ e.closeFile = false)

/-- A step of the download: it fails and aborts the file, or it closes the file, or it goes on. -/
theorem cdnRun_cases {c : Cdn} (hc : c.state = .fileDownloadAndSave) :
    ((cdnRun c e).2.1 < 0 ∧ c.fails e ∧
        ((cdnRun c e).2.2 = [.aborted] ∨ (cdnRun c e).2.2 = [.wrote e.writeFile, .aborted])) ∨
      ((cdnRun c e).2.1 = CDN_STATUS_DOWNLOAD_DONE ∧ c.atEnd e ∧ ¬ e.writeFile < 0 ∧
        (cdnRun c e).2.2 = [.wrote e.writeFile, .closed]) ∨
      ((cdnRun c e).2.1 = CDN_STATUS_CONTINUE ∧ ¬ e.writeFile < 0 ∧
        (cdnRun c e).1 = { c with totalBytesReceived := c.totalBytesReceived + c.chunk e } ∧
        (cdnRun c e).2.2 = [.wrote e.writeFile]) := by
  have hsave : CDN_STATUS_ERROR_SAVE_CHUNK < 0 := by decide
  have hclose : OTA_STATUS_ERROR < 0 := by decide
  unfold cdnRun
  rw [hc]
  dsimp only
  split
  · rename_i hrecv
    exact .inl ⟨recvError_neg _, .inl hrecv, .inl rfl⟩
  split
  · rename_i halign
    exact .inl ⟨recvError_neg _, .inr (.inl halign), .inl rfl⟩
  split
  · rename_i hwrite
    exact .inl ⟨hsave, .inr (.inr (.inl hwrite)), .inl rfl⟩
  rename_i hwrite
  split
  · rename_i hend
    split
    · exact .inr (.inl ⟨rfl, hend, hwrite, rfl⟩)
    · rename_i hfile
      exact .inl ⟨hclose, .inr (.inr (.inr ⟨hend, by simpa using hfile⟩)), .inr rfl⟩
  · exact .inr (.inr ⟨rfl, hwrite, rfl, rfl⟩)

theorem cdnRun_socks {c : Cdn} (h : Tracked c.fileSockId c.openSocks) :
    Tracked (cdnRun c e).1.fileSockId (cdnRun c e).1.openSocks := by
  unfold cdnRun
  split
  · split <;> exact h
  · split_ifs <;> exact h
  · exact h

theorem downloading_ok (h : OtaInv s l) (hs : s.state = .downloading)
    (hwhole : e.writeFile < 0 ∨ e.writeFile = s.cdn.chunk e)
    (hcond : s.isMCUAppUpdate = true → s.subject.isMcuImage = true → ¬ s.fails e) :
    StepOk l (otaRun s e).1 (otaRun s e).2.2 := by
  have hstate := h.state
  unfold StateInv at hstate
  rw [hs] at hstate
  obtain ⟨hopen, hcurrent, hcdn, hsize⟩ := hstate
  have hsocks := And.intro h.socks.1 (cdnRun_socks (e := e) h.socks.2)
  have hsubject : s.subject = s.resource := by
    unfold OtaApp.subject
    rw [hs]
  unfold otaRun
  rw [hs]
  dsimp only
  rcases cdnRun_cases (e := e) hcdn with ⟨hstatus, hfail, hevs⟩ | ⟨hstatus, hend, hwrite, hevs⟩ |
    ⟨hstatus, hwrite, hnext, hevs⟩
  · have hfails : s.fails e := by
      unfold OtaApp.fails
      rw [hs]
      exact hfail
    have hnot := not_image_of_fails hcond hfails
    rw [hsubject, ← hcurrent] at hnot
    rw [if_pos hstatus]
    rcases hevs with hevs | hevs
    · rw [hevs]
      refine stepOk_plain ?_ fun ev hev => ?_
      · have htail : (l.next .aborted).openFiles = [] := by
          show l.openFiles.tail = []
          rw [hopen]
          rfl
        exact failed_inv (l := l.next .aborted) hsocks h.image h.full htail hnot rfl
      · rcases List.mem_append.1 hev with hev | hev <;> rw [List.mem_singleton.1 hev] <;> rfl
    · rw [hevs]
      have hwrote : l.next (.wrote e.writeFile) =
          { l with openFiles := [⟨s.resource, s.cdn.totalBytesReceived + e.writeFile⟩] } := by
        unfold Ledger.next
        rw [hopen]
      refine stepOk_plain ?_ fun ev hev => ?_
      · show OtaInv _ (((l.next (.wrote e.writeFile)).next .aborted).next .failed)
        rw [hwrote]
        exact failed_inv (l := { l with openFiles := [] }) hsocks h.image h.full rfl hnot rfl
      · simp only [List.cons_append, List.nil_append, List.mem_cons, List.not_mem_nil, or_false] at hev
        rcases hev with rfl | rfl | rfl <;> rfl
  · have hchunk : s.cdn.totalBytesReceived + e.writeFile = s.resource.size := by
      have hw := hwhole.resolve_left hwrite
      rw [Cdn.chunk, if_pos hend] at hw
      omega
    have hclosed : [OtaEv.wrote e.writeFile, .closed].foldl Ledger.next l =
        { l with
          openFiles := []
          closed := ⟨s.resource, s.resource.size⟩ :: l.closed
          image := l.image || s.resource.isMcuImage } := by
      show (l.next (.wrote e.writeFile)).next .closed = _
      simp [Ledger.next, hopen, StorageFile.full, hchunk]
    have hdone : ¬ CDN_STATUS_DOWNLOAD_DONE < 0 := by decide
    rw [hevs, hstatus, if_neg hdone, if_pos rfl]
    refine stepOk_plain ?_ fun ev hev => ?_
    · rw [hclosed]
      refine ⟨fun himage => ?_, fun f hf => ?_, hsocks, rfl⟩
      · have himage : (s.isMCUAppUpdate || s.resource.isMcuImage) = true := himage
        show (l.image || s.resource.isMcuImage) = true
        rw [Bool.or_eq_true] at himage ⊢
        exact himage.imp_left h.image
      · rcases List.mem_cons.1 hf with rfl | hf
        · simp [StorageFile.full]
        · exact h.full f hf
    · simp only [List.mem_cons, List.not_mem_nil, or_false] at hev
      rcases hev with rfl | rfl <;> rfl
  · have hw := hwhole.resolve_left hwrite
    have hgoes : ¬ CDN_STATUS_CONTINUE < 0 := by decide
    have hmore : CDN_STATUS_CONTINUE ≠ CDN_STATUS_DOWNLOAD_DONE := by decide
    rw [hevs, hstatus, if_neg hgoes, if_neg hmore]
    refine stepOk_plain ⟨?_, ?_, hsocks, ?_⟩ fun ev hev => ?_
    · show s.isMCUAppUpdate = true → (l.next (.wrote e.writeFile)).image = true
      simpa [Ledger.next, hopen] using h.image
    · show ∀ f ∈ (l.next (.wrote e.writeFile)).closed, f.full = true
      simpa [Ledger.next, hopen] using h.full
    · show StateInv _ (l.next (.wrote e.writeFile))
      unfold StateInv
      rw [hnext]
      simp [Ledger.next, hopen, hw, hcurrent, hcdn, hsize]
    · rw [List.mem_singleton.1 hev]
      rfl

theorem OtaInv.openFiles (h : OtaInv s l) (hs : s.state ≠ .downloading) : l.openFiles = [] := by
  have hstate := h.state
  unfold StateInv at hstate
  cases hst : s.state with
  | downloading => exact absurd hst hs
  | idle => rw [hst] at hstate; exact hstate.2
  | waitConfirm => rw [hst] at hstate; exact hstate.2
  | connectServer => rw [hst] at hstate; exact hstate
  | resourceList => rw [hst] at hstate; exact hstate
  | metadata => rw [hst] at hstate; exact hstate.1
  | connectCdn => rw [hst] at hstate; exact hstate.1

theorem armsBootloader_testFlags (h : armsBootloader s.testFlags) : s.isMCUAppUpdate = true := by
  have hflags : ∀ mcu nwp : Bool, ¬ armsBootloader ((if mcu then BootInfo.flcTestResetMcu else 0) |||
      (if false then BootInfo.flcTestResetMcuWithApp else 0) |||
      (if nwp then BootInfo.flcTestResetNwp else 0)) := by
    unfold armsBootloader
    decide
  by_contra happ
  unfold OtaApp.testFlags at h
  rw [(Bool.not_eq_true _).mp happ] at h
  exact hflags _ _ h

theorem otaStep_ok {op : OtaOp} (h : OtaInv s l) (hcond : OtaCond ⟨s, l⟩ op) :
    StepOk l (otaStep s op).1 (otaStep s op).2 := by
  cases op with
  | run e =>
    obtain ⟨hwhole, himage⟩ := hcond
    cases hs : s.state with
    | idle => exact idle_ok h hs
    | connectServer => exact connectServer_ok h hs
    | resourceList => exact resourceList_ok h hs himage
    | metadata => exact metadata_ok h hs himage
    | connectCdn => exact connectCdn_ok h hs himage
    | downloading => exact downloading_ok h hs (hwhole hs) himage
    | waitConfirm =>
      have hstay : otaStep s (.run e) = (s, []) := by
        unfold otaStep otaRun
        rw [hs]
      rw [hstay]
      exact stepOk_plain h nofun
  | set opt =>
    cases opt with
    | serverInfo given => exact stepOk_plain ⟨h.image, h.full, h.socks, h.state⟩ nofun
    | vendorId given => exact stepOk_plain ⟨h.image, h.full, h.socks, h.state⟩ nofun
    | imageTest =>
      refine ⟨otaCleanToIdle_inv h.socks h.full (h.openFiles hcond), fun flags hev harms => ?_,
        fun _ _ => h.openFiles hcond⟩
      simp only [otaStep, otaSet, List.mem_cons, OtaEv.flcTest.injEq, reduceCtorEq, List.not_mem_nil,
        or_false] at hev
      subst hev
      exact h.image (armsBootloader_testFlags harms)
    | imageCommit commited =>
      refine stepOk_plain (otaCleanToIdle_inv h.socks h.full (h.openFiles hcond)) fun ev hev => ?_
      simp only [otaStep, otaSet, List.mem_cons, List.not_mem_nil, or_false] at hev
      rcases hev with rfl | rfl <;> rfl

end

/-! ## Every run -/

theorem OtaInv.oneFile {s : OtaApp} {l : Ledger} (h : OtaInv s l) :
    l.openFiles.length ≤ 1 ∧
      ∀ f ∈ l.openFiles, f.resource = s.resource ∧ s.state = .downloading := by
  by_cases hs : s.state = .downloading
  · have hstate := h.state
    unfold StateInv at hstate
    rw [hs] at hstate
    rw [hstate.1]
    refine ⟨Nat.le_refl _, fun f hf => ?_⟩
    rw [List.mem_singleton.1 hf]
    exact ⟨rfl, hs⟩
  · rw [h.openFiles hs]
    exact ⟨Nat.zero_le _, nofun⟩

theorem OtaInv.sockets {s : OtaApp} {l : Ledger} (h : OtaInv s l) (hs : s.settled) :
    SocketsClosed s := by
  have hstate := h.state
  unfold StateInv at hstate
  rcases hs with hs | hs
  · rw [hs] at hstate
    exact hstate.1
  · rw [hs] at hstate
    exact hstate.1

theorem OtaApp.settled.ne {s : OtaApp} (h : s.settled) : s.state ≠ .downloading := by
  rcases h with h | h <;> rw [h] <;> decide

theorem OtaInv.right {s : OtaLog} {op : OtaOp} (h : OtaInv s.app s.ledger) (hcond : OtaCond s op) :
    OtaRight s op := by
  intro s' evs hs
  cases hs
  obtain ⟨hinv, harmed, hrequested⟩ := otaStep_ok h hcond
  exact ⟨harmed, hinv.oneFile, hinv.full, hrequested, fun hs => hinv.openFiles hs.ne, hinv.sockets⟩

theorem OtaInv.next {s s' : OtaLog} {op : OtaOp} {evs : List OtaEv} (h : OtaInv s.app s.ledger)
    (hcond : OtaCond s op) (hs : logStep s op = some (s', evs)) : OtaInv s'.app s'.ledger := by
  cases hs
  exact (otaStep_ok h hcond).inv

/-- In every run in which files are written whole, no image of the MCU fails after one was downloaded,
and no test or commit is asked for in the middle of a download. -/
theorem ota_run {ops : List OtaOp} (h : Meets logStep OtaCond logInit ops) :
    Meets logStep OtaRight logInit ops := by
  have hinit : OtaInv otaInit logInit.ledger :=
    ⟨nofun, fun _ => nofun, ⟨rfl, rfl⟩, ⟨rfl, rfl⟩, rfl⟩
  exact Meets.imp (I := fun s : OtaLog => OtaInv s.app s.ledger) OtaInv.right OtaInv.next hinit h

def image : Resource := ⟨"/f80_sys_mcuimgA.bin".toList, 32⟩

/-- Everything succeeds, and the image comes in two pieces. -/
def answers (updates : List Resource) : Env where
  connectServer := 1
  updateCheck := some updates
  resourceMetadata := some ⟨true, false⟩
  domain := some "cdn".toList
  connectCdn := 2
  headers := true
  openFile := true
  recv := 16
  recvAlign := 0
  writeFile := 16
  closeFile := true

/-- A run up to the download of the first update. -/
def opening (updates : List Resource) : List OtaOp :=
  .set (.serverInfo true) :: .set (.vendorId true) :: List.replicate 5 (.run (answers updates))

theorem ota_run_image :
    Meets logStep OtaRight logInit
        (opening [image] ++ List.replicate 3 (.run (answers [image])) ++ [.set .imageTest]) ∧
      (runs logStep logInit (opening [image] ++ List.replicate 3 (.run (answers [image])) ++
        [.set .imageTest])).map (fun r => r.2.getLast?) = some (some [.flcTest 5, .idle]) := by
  refine ⟨ota_run ?_, by decide +kernel⟩
  refine ⟨trivial, trivial, ⟨nofun, nofun⟩, ⟨nofun, nofun⟩, ⟨nofun, nofun⟩, ⟨nofun, nofun⟩,
    ⟨nofun, nofun⟩, ⟨fun _ => .inr rfl, nofun⟩, ⟨fun _ => .inr rfl, nofun⟩,
    ⟨nofun, fun _ _ h => nomatch h⟩, ?_⟩
  exact ⟨nofun, trivial⟩

/-- A test that is asked for in the middle of a download leaves the file open. And when the image is
in the list twice, and cannot be opened the second time, the bootloader is armed all the same. -/
theorem file_left_open :
    ¬ Meets logStep OtaRight logInit (opening [image] ++ [.set .imageTest]) ∧
      ¬ Meets logStep OtaRight logInit
        (opening [image, image] ++ List.replicate 4 (.run (answers [image, image])) ++
          [.run { answers [image, image] with openFile := false }, .set .imageTest]) := by
  constructor
  · intro h
    have hright : RunRight _ _ _ := h.2.2.2.2.2.2.2.1 _ _ rfl
    exact nomatch hright.files (.inl rfl)
  · intro h
    have hright : RunRight _ _ _ := h.2.2.2.2.2.2.2.2.2.2.2.2.1 _ _ rfl
    have himage := hright.armed 5 (by decide +kernel) ⟨by decide, by decide⟩
    revert himage
    decide +kernel

end SimpleLink.Ota
