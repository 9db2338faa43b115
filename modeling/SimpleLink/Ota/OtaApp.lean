import Mathlib.Data.List.Infix
import SimpleLink.Ota.BootInfo

/-!
# The update run (`OtaApp.c`, `CdnClient.c`)

`sl_extLib_OtaRun` does one step of a run: it asks the OTA server for the list of resources and for the
metadata of each, connects to the CDN server of the resource, and downloads it into a file piece by
piece. The machine for the download (`Cdn`) is nested in that for the run (`OtaApp`). What the servers
and the file system answer in a step is its `Env`; what it does with them is listed as `OtaEv`s.
`openSocks` are the sockets that `http_connect_server` has given and `sl_Close` has not closed.
-/

namespace SimpleLink.Ota

abbrev RUN_STAT_CONTINUE : Int := 0
abbrev RUN_STAT_NO_UPDATES : Int := 1
abbrev RUN_STAT_DOWNLOAD_DONE : Int := 2
abbrev RUN_STAT_ERROR : Int := -1
abbrev RUN_STAT_ERROR_CONNECT_OTA_SERVER : Int := -3
abbrev RUN_STAT_ERROR_RESOURCE_LIST : Int := -4
abbrev RUN_STAT_ERROR_METADATA : Int := -5
abbrev RUN_STAT_ERROR_CONNECT_CDN_SERVER : Int := -6
abbrev RUN_STAT_ERROR_DOWNLOAD_SAVE : Int := -7
abbrev RUN_STAT_ERROR_CONTINUOUS_ACCESS_FAILURES : Int := -1000

abbrev OTA_STATUS_OK : Int := 0
abbrev OTA_STATUS_ERROR : Int := -1
abbrev OTA_STATUS_ERROR_CONTINUOUS_ACCESS : Int := -1000

abbrev CDN_STATUS_DOWNLOAD_DONE : Int := 1
abbrev CDN_STATUS_CONTINUE : Int := 0
abbrev CDN_STATUS_ERROR : Int := -1
abbrev CDN_STATUS_ERROR_OPEN_FILE : Int := -2
abbrev CDN_STATUS_ERROR_RECV_CHUNK : Int := -3
abbrev CDN_STATUS_ERROR_SAVE_CHUNK : Int := -4
abbrev CDN_STATUS_ERROR_MAX_EAGAIN : Int := -5
abbrev CDN_STATUS_ERROR_CONNECT_CDN : Int := -6
abbrev CDN_STATUS_ERROR_READ_HDRS : Int := -7

abbrev SL_EAGAIN : Int := -11

/-! ## The state -/

/-- An entry of the list of updates. -/
structure Resource where
  path : List Char
  /-- The size that the server announces. -/
  size : Int
  deriving DecidableEq

def Resource.isMcuImage (r : Resource) : Bool := decide ("mcuimgA.bin".toList <:+: r.path)

/-- The flags of a resource, as far as the run looks at them. -/
structure Metadata where
  resetMcu : Bool
  resetNwp : Bool

inductive CdnState where
  | idle
  | cdnServerConnected
  | fileDownloadAndSave
  deriving DecidableEq, Repr

structure Cdn where
  state : CdnState
  /-- The server that `fileSockId` is connected to. -/
  cdnServerName : Option (List Char)
  fileSockId : Int
  openSocks : List Int
  fileSize : Int
  totalBytesReceived : Int

inductive OtaState where
  | idle
  | connectServer
  | resourceList
  | metadata
  | connectCdn
  | downloading
  | waitConfirm
  deriving DecidableEq, Repr

structure OtaApp where
  state : OtaState
  hasServerInfo : Bool
  hasVendor : Bool
  serverSockId : Int
  openSocks : List Int
  cdn : Cdn
  /-- What `OtaClient_GetNextUpdate` has not returned yet. -/
  updates : List Resource
  /-- `file_path` and `file_size`. -/
  resource : Resource
  metadata : Metadata
  resetMcu : Bool
  resetNwp : Bool
  isMCUAppUpdate : Bool

def otaInit : OtaApp where
  state := .idle
  hasServerInfo := false
  hasVendor := false
  serverSockId := -1
  openSocks := []
  cdn := ⟨.idle, none, -1, [], 0, 0⟩
  updates := []
  resource := ⟨[], 0⟩
  metadata := ⟨false, false⟩
  resetMcu := false
  resetNwp := false
  isMCUAppUpdate := false

/-- What a step is answered, whatever it asks for. -/
structure Env where
  /-- `http_connect_server` to the OTA server. -/
  connectServer : Int
  /-- `OtaClient_UpdateCheck`; `none` is an error. -/
  updateCheck : Option (List Resource)
  /-- `OtaClient_ResourceMetadata`; `none` is an error. -/
  resourceMetadata : Option Metadata
  /-- The server in the URL of the resource, if it has one. -/
  domain : Option (List Char)
  /-- `http_connect_server` to the CDN server. -/
  connectCdn : Int
  /-- `_ReadFileHeaders` succeeds. -/
  headers : Bool
  /-- `_OpenStorageFile` succeeds. -/
  openFile : Bool
  /-- `_RecvFileChunk`, and again to align the length. -/
  recv : Int
  recvAlign : Int
  writeFile : Int
  /-- `pCloseFile` succeeds. -/
  closeFile : Bool

inductive OtaEv where
  /-- The next resource is taken from the list. -/
  | request (r : Resource)
  /-- A storage file is opened for writing. -/
  | opened
  /-- So many bytes are written to it. -/
  | wrote (n : Int)
  | closed
  | aborted
  /-- The run gives up on a resource. -/
  | failed
  /-- `sl_extlib_FlcTest` and `sl_extlib_FlcCommit`. -/
  | flcTest (flags : Nat)
  | flcCommit (commitFlag : Int)
  /-- The machine goes idle. -/
  | idle
  deriving DecidableEq

/-! ## The download -/

/-- The open sockets after `http_connect_server`, which closes its socket when it fails. -/
def connected (sock : Int) (socks : List Int) : List Int := if 0 ≤ sock then sock :: socks else socks

def slClose (sock : Int) (socks : List Int) : List Int := socks.erase sock

/-- `CdnClient_CloseServer`. -/
def cdnCloseServer (c : Cdn) : Cdn :=
  let c := { c with cdnServerName := none }
  if 0 ≤ c.fileSockId then
    { c with openSocks := slClose c.fileSockId c.openSocks, fileSockId := -1 }
  else c

/-- The end of `CdnClient_ConnectByUrl`, on the connection to the server. -/
def cdnReadHeaders (c : Cdn) (e : Env) : Cdn × Int :=
  if e.headers then
    ({ c with totalBytesReceived := 0, state := .cdnServerConnected }, OTA_STATUS_OK)
  else (cdnCloseServer c, CDN_STATUS_ERROR_READ_HDRS)

/-- `CdnClient_ConnectByUrl`. -/
def cdnConnectByUrl (c : Cdn) (e : Env) : Cdn × Int :=
  match e.domain with
  | none => (c, OTA_STATUS_ERROR)
  | some name =>
    if c.cdnServerName = some name then cdnReadHeaders c e
    else
      let c := cdnCloseServer c
      let c := { c with
        cdnServerName := some name
        fileSockId := e.connectCdn
        openSocks := connected e.connectCdn c.openSocks }
      if c.fileSockId < 0 then
        (cdnCloseServer c,
          if c.fileSockId = OTA_STATUS_ERROR_CONTINUOUS_ACCESS then
            OTA_STATUS_ERROR_CONTINUOUS_ACCESS
          else CDN_STATUS_ERROR_CONNECT_CDN)
      else cdnReadHeaders c e

def Cdn.atEnd (c : Cdn) (e : Env) : Prop := c.fileSize ≤ c.totalBytesReceived + e.recv

instance (c : Cdn) (e : Env) : Decidable (c.atEnd e) := by unfold Cdn.atEnd; infer_instance

def Cdn.aligns (c : Cdn) (e : Env) : Prop := ¬ c.atEnd e ∧ e.recv % 16 ≠ 0

instance (c : Cdn) (e : Env) : Decidable (c.aligns e) := by unfold Cdn.aligns; infer_instance

/-- The length that is handed to `pWriteFile`. -/
def Cdn.chunk (c : Cdn) (e : Env) : Int :=
  if c.atEnd e then c.fileSize - c.totalBytesReceived
  else if c.aligns e then e.recv + e.recvAlign
  else e.recv

def recvError (status : Int) : Int :=
  if status = SL_EAGAIN then CDN_STATUS_ERROR_MAX_EAGAIN else CDN_STATUS_ERROR_RECV_CHUNK

theorem recvError_neg (status : Int) : recvError status < 0 := by
  unfold recvError
  split <;> decide

/-- `CdnClient_Run`. -/
def cdnRun (c : Cdn) (e : Env) : Cdn × Int × List OtaEv :=
  match c.state with
  | .cdnServerConnected =>
    if e.openFile then ({ c with state := .fileDownloadAndSave }, CDN_STATUS_CONTINUE, [.opened])
    else ({ c with state := .idle }, CDN_STATUS_ERROR_OPEN_FILE, [])
  | .fileDownloadAndSave =>
    if e.recv ≤ 0 then ({ c with state := .idle }, recvError e.recv, [.aborted])
    else if c.aligns e ∧ e.recvAlign ≤ 0 then
      ({ c with state := .idle }, recvError e.recvAlign, [.aborted])
    else if e.writeFile < 0 then
      ({ c with state := .idle }, CDN_STATUS_ERROR_SAVE_CHUNK, [.aborted])
    else
      let c' := { c with totalBytesReceived := c.totalBytesReceived + c.chunk e }
      if c.atEnd e then
        if e.closeFile then
          ({ c' with state := .idle }, CDN_STATUS_DOWNLOAD_DONE, [.wrote e.writeFile, .closed])
        else ({ c' with state := .idle }, OTA_STATUS_ERROR, [.wrote e.writeFile, .aborted])
      else (c', CDN_STATUS_CONTINUE, [.wrote e.writeFile])
  | .idle => (c, CDN_STATUS_ERROR, [])

/-! ## The run -/

/-- `OtaClient_CloseServer`. -/
def otaCloseServer (s : OtaApp) : OtaApp :=
  if 0 ≤ s.serverSockId then
    { s with openSocks := slClose s.serverSockId s.openSocks, serverSockId := -1 }
  else s

/-- `_OtaCleanToIdle`. -/
def otaCleanToIdle (s : OtaApp) : OtaApp :=
  let s := otaCloseServer s
  { s with
    cdn := cdnCloseServer s.cdn
    state := .idle
    resetMcu := false
    resetNwp := false
    isMCUAppUpdate := false }

def OtaApp.goto (s : OtaApp) (state : OtaState) : OtaApp := { s with state := state }

/-- `sl_extLib_OtaRun`. -/
def otaRun (s : OtaApp) (e : Env) : OtaApp × Int × List OtaEv :=
  match s.state with
  | .idle =>
    if s.hasServerInfo = false ∨ s.hasVendor = false then (s, RUN_STAT_ERROR, [])
    else
      let s := { s with
        state := .connectServer
        serverSockId := e.connectServer
        openSocks := connected e.connectServer s.openSocks }
      if e.connectServer < 0 then
        (otaCleanToIdle s,
          if e.connectServer = OTA_STATUS_ERROR_CONTINUOUS_ACCESS then
            RUN_STAT_ERROR_CONTINUOUS_ACCESS_FAILURES
          else RUN_STAT_ERROR_CONNECT_OTA_SERVER, [.idle])
      else (s, RUN_STAT_CONTINUE, [])
  | .connectServer =>
    match e.updateCheck with
    | none => (otaCleanToIdle s, RUN_STAT_ERROR_RESOURCE_LIST, [.idle])
    | some [] => (otaCleanToIdle s, RUN_STAT_NO_UPDATES, [.idle])
    | some updates =>
      ({ s with state := .resourceList, updates := updates }, RUN_STAT_CONTINUE, [])
  | .resourceList =>
    match s.updates with
    | [] =>
      let s := otaCloseServer s
      ({ s with cdn := cdnCloseServer s.cdn, state := .waitConfirm }, RUN_STAT_DOWNLOAD_DONE, [])
    | r :: updates =>
      let s := { s with updates := updates, resource := r }
      match e.resourceMetadata with
      | none => (s, RUN_STAT_ERROR_METADATA, [.request r, .failed])
      | some metadata =>
        ({ s with state := .metadata, metadata := metadata }, RUN_STAT_CONTINUE, [.request r])
  | .metadata =>
    let (cdn, status) := cdnConnectByUrl s.cdn e
    let s := { s with cdn := cdn }
    if status < 0 then
      (s.goto .resourceList,
        if status = OTA_STATUS_ERROR_CONTINUOUS_ACCESS then
          RUN_STAT_ERROR_CONTINUOUS_ACCESS_FAILURES
        else RUN_STAT_ERROR_CONNECT_CDN_SERVER, [.failed])
    else (s.goto .connectCdn, RUN_STAT_CONTINUE, [])
  | .connectCdn =>
    let (cdn, status, evs) := cdnRun { s.cdn with fileSize := s.resource.size } e
    let s := { s with cdn := cdn }
    if status < 0 then (s.goto .resourceList, RUN_STAT_ERROR_DOWNLOAD_SAVE, evs ++ [.failed])
    else (s.goto .downloading, RUN_STAT_CONTINUE, evs)
  | .downloading =>
    let (cdn, status, evs) := cdnRun s.cdn e
    let s := { s with
      resetNwp := s.resetNwp || s.metadata.resetNwp
      resetMcu := s.resetMcu || s.metadata.resetMcu
      cdn := cdn }
    if status < 0 then (s.goto .resourceList, RUN_STAT_ERROR_DOWNLOAD_SAVE, evs ++ [.failed])
    else if status = CDN_STATUS_DOWNLOAD_DONE then
      ({ s with
          isMCUAppUpdate := s.isMCUAppUpdate || s.resource.isMcuImage
          state := .resourceList }, RUN_STAT_CONTINUE, evs)
    else (s, RUN_STAT_CONTINUE, evs)
  | .waitConfirm => (s, RUN_STAT_ERROR, [])

/-- The options of `sl_extLib_OtaSet`. -/
inductive SetOpt where
  | serverInfo (given : Bool)
  | vendorId (given : Bool)
  | imageTest
  | imageCommit (commited : Bool)

def OtaApp.testFlags (s : OtaApp) : Nat :=
  (if s.resetMcu then BootInfo.flcTestResetMcu else 0) |||
    (if s.isMCUAppUpdate then BootInfo.flcTestResetMcuWithApp else 0) |||
    (if s.resetNwp then BootInfo.flcTestResetNwp else 0)

/-- `sl_extLib_OtaSet`. -/
def otaSet (s : OtaApp) : SetOpt → OtaApp × List OtaEv
  | .serverInfo given => ({ s with hasServerInfo := given }, [])
  | .vendorId given => ({ s with hasVendor := given }, [])
  | .imageTest => (otaCleanToIdle s, [.flcTest s.testFlags, .idle])
  | .imageCommit commited =>
    (otaCleanToIdle s, [.flcCommit (if commited then BootInfo.flcCommited else 0), .idle])

inductive OtaOp where
  | run (e : Env)
  | set (opt : SetOpt)

def otaStep (s : OtaApp) : OtaOp → OtaApp × List OtaEv
  | .run e => ((otaRun s e).1, (otaRun s e).2.2)
  | .set opt => otaSet s opt

end SimpleLink.Ota
