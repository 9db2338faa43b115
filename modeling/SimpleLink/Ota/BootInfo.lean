import SimpleLink.Lib.Run
import Mathlib.Data.List.Nodup

/-!
# The boot info (`application_bootloader/main.c`, `flc.c`)

The bootloader reads the boot info file, chooses an image and runs it; the image that runs asks for a
test of the other image (`sl_extlib_FlcTest`) and commits it (`sl_extlib_FlcCommit`). A file
operation is one step and its result the input of the step; the device may be reset between any two.
-/

namespace SimpleLink.Ota.BootInfo

open Lib

abbrev imgStatusTesting : Nat := 0x12344321
abbrev imgStatusTestready : Nat := 0x56788765
abbrev imgStatusNotest : Nat := 0xABCDDCBA

abbrev imgActFactory : Nat := 0
abbrev imgActUser1 : Nat := 1
abbrev imgActUser2 : Nat := 2

abbrev flcCommited : Int := 1
abbrev flcTestResetMcu : Nat := 1
abbrev flcTestResetNwp : Nat := 2
abbrev flcTestResetMcuWithApp : Nat := 4

/-- `sBootInfo_t`. -/
structure SBootInfo where
  ucActiveImg : Nat
  ulImgStatus : Nat

/-- The files with images: `IMG_FACTORY_DEFAULT`, `IMG_USER_1` and `IMG_USER_2`. -/
inductive Img where
  | factoryDefault
  | user1
  | user2

/-- The file `IMG_BOOT_INFO`. It is made with `_FS_FILE_OPEN_FLAG_COMMIT`: what has been written takes
the place of what it held when it is closed. -/
inductive File where
  | absent
  | empty
  | holds (info : SBootInfo)

/-- `sl_FsOpen` for reading or writing; what is not there cannot be opened. -/
def File.opens (ok : Bool) : File → Bool
  | absent => false
  | _ => ok

/-- `sl_FsRead`. -/
def File.read (ok : Bool) : File → Option SBootInfo
  | holds info => if ok then some info else none
  | _ => none

/-- `sl_FsOpen` for creating. -/
def File.create : File → File
  | absent => empty
  | file => file

def File.info : File → Option SBootInfo
  | holds info => some info
  | _ => none

/-- The calls of `flc.c`. -/
inductive Call where
  | test (flags : Nat)
  | commit (commitFlag : Int)
  | isPendingCommit

/-- Where a call is. -/
inductive Flc where
  /-- There is no call. -/
  | idle
  -- `_ReadBootInfo`
  | openRead (call : Call)
  | read (call : Call)
  | closeRead (call : Call)
  -- `_WriteBootInfo`
  | openWrite (call : Call)
  | write (call : Call)
  | closeWrite (call : Call) (written : Bool)

/-- The next file operation of the bootloader, or that an image runs. `test` tells that the image is
run to be tested. -/
inductive Phase where
  -- `main`
  | openRead
  | read
  | openCreate
  | getInfo (created : Bool) (img : Img)
  | writeDefault (created : Bool) (info : SBootInfo)
  | closeInfo (written : Bool) (info : SBootInfo)
  -- `BootInfoWrite`, before an image is loaded
  | openWrite (info : SBootInfo) (img : Img) (test : Bool)
  | write (info : SBootInfo) (img : Img) (test : Bool)
  | closeWrite (info : SBootInfo) (img : Img) (test : Bool)
  -- `LoadAndExecute`
  | loadOpen (img : Img) (test : Bool)
  | loadInfo (img : Img) (test : Bool)
  | loadRead (img : Img) (test : Bool)
  /-- One of the infinite loops. -/
  | hang
  | app (img : Img) (test : Bool) (flc : Flc)

/-- `sBootInfo` is that of `flc.c`, and `ret` what its last call returned.

The other fields record what has happened: the image that was active first or has been committed
last while it was tested, the number of test requests in the boot info so far, and for each run of
an image to be tested this number at the time. -/
structure Sys where
  file : File
  phase : Phase
  sBootInfo : SBootInfo
  ret : Nat
  lastActive : Option Nat
  requests : Nat
  tested : List Nat

def sysInit (file : File) : Sys where
  file := file
  phase := .openRead
  sBootInfo := ⟨0, 0⟩
  ret := 0
  lastActive := file.info.map SBootInfo.ucActiveImg
  requests := 0
  tested := []

/-! ## The bootloader -/

def activeImage (ucActiveImg : Nat) : Img :=
  if ucActiveImg = imgActUser1 then .user1
  else if ucActiveImg = imgActUser2 then .user2
  else .factoryDefault

def testImage (ucActiveImg : Nat) : Img :=
  if ucActiveImg = imgActUser1 then .user2 else .user1

def Img.act : Img → Nat
  | factoryDefault => imgActFactory
  | user1 => imgActUser1
  | user2 => imgActUser2

/-- `ImageLoader`, up to its first file operation. -/
def imageLoader (sBootInfo : SBootInfo) : Phase :=
  let ucActiveImg := sBootInfo.ucActiveImg
  let ulImgStatus := sBootInfo.ulImgStatus
  if imgStatusNotest = ulImgStatus then
    .loadOpen (activeImage ucActiveImg) false
  else if imgStatusTestready = ulImgStatus then
    .openWrite { sBootInfo with ulImgStatus := imgStatusTesting } (testImage ucActiveImg) true
  else if imgStatusTesting = ulImgStatus then
    .openWrite { sBootInfo with ulImgStatus := imgStatusNotest } (activeImage ucActiveImg) false
  else .hang

/-- `CreateDefaultBootInfo` has asked for `img`, which is there or not. -/
def createDefaultBootInfo (created ok : Bool) (img : Img) : Phase :=
  if ok then .writeDefault created ⟨img.act, imgStatusNotest⟩
  else
    match img with
    | .factoryDefault => .getInfo created .user1
    | .user1 => .getInfo created .user2
    | .user2 => .hang

def bootStep (s : Sys) (ok : Bool) : Sys :=
  match s.phase with
  | .openRead => { s with phase := if s.file.opens ok then .read else .openCreate }
  | .read =>
    -- the result of `sl_FsRead` is not tested: what it has not read is the default
    let info := (s.file.read ok).getD ⟨imgActFactory, imgStatusNotest⟩
    { s with phase := .closeInfo false info }
  | .openCreate =>
    { s with
      file := if ok then s.file.create else s.file
      phase := .getInfo ok .factoryDefault }
  | .getInfo created img => { s with phase := createDefaultBootInfo created ok img }
  | .writeDefault created info => { s with phase := .closeInfo (created && ok) info }
  | .closeInfo written info =>
    let s := { s with phase := imageLoader info }
    if written && ok then
      { s with
        file := .holds info
        lastActive := some (s.lastActive.getD info.ucActiveImg) }
    else s
  | .openWrite info img test =>
    { s with phase := if s.file.opens ok then .write info img test else .loadOpen img test }
  | .write info img test =>
    { s with phase := if ok then .closeWrite info img test else .loadOpen img test }
  | .closeWrite info img test =>
    { s with file := if ok then .holds info else s.file, phase := .loadOpen img test }
  | .loadOpen img test => { s with phase := if ok then .loadInfo img test else .hang }
  | .loadInfo img test => { s with phase := if ok then .loadRead img test else .hang }
  | .loadRead img test =>
    -- nor is the result of reading the image, which starts with zeros in its `sBootInfo`
    { s with
      phase := .app img test .idle
      sBootInfo := ⟨0, 0⟩
      tested := if test then s.requests :: s.tested else s.tested }
  | .hang => s
  | .app _ _ _ => s

/-! ## The calls of the image that runs -/

/-- What a call does with the boot info that it has read: the boot info to be written, if any, and
what the call returns. -/
def afterRead (sBootInfo : SBootInfo) : Call → Option SBootInfo × Nat
  | .test flags =>
    (some { sBootInfo with ulImgStatus := imgStatusTestready },
      flcTestResetMcu ||| (flags &&& flcTestResetNwp))
  | .commit commitFlag =>
    if imgStatusTesting = sBootInfo.ulImgStatus then
      if commitFlag = flcCommited then
        (some {
          ulImgStatus := imgStatusNotest
          ucActiveImg :=
            if sBootInfo.ucActiveImg = imgActUser1 then imgActUser2 else imgActUser1 }, 0)
      else (none, flcTestResetMcu)
    else (none, 0)
  | .isPendingCommit => (none, if imgStatusTesting = sBootInfo.ulImgStatus then 1 else 0)

/-- The boot info has been written for a call; a commit while an image is tested makes it the active
one. -/
def written (s : Sys) (img : Img) (test : Bool) : Call → Sys
  | .test _ => { s with file := .holds s.sBootInfo, requests := s.requests + 1 }
  | _ =>
    { s with
      file := .holds s.sBootInfo
      lastActive := if test then some img.act else s.lastActive }

/-- A call goes on after `_ReadBootInfo`. -/
def goOn (s : Sys) (img : Img) (test : Bool) (call : Call) : Sys :=
  let s := { s with ret := (afterRead s.sBootInfo call).2 }
  match (afterRead s.sBootInfo call).1 with
  | none => { s with phase := .app img test .idle }
  | some info => { s with sBootInfo := info, phase := .app img test (.openWrite call) }

/-- A file operation of `flc.c`. -/
def flcStep (s : Sys) (img : Img) (test : Bool) (ok : Bool) : Flc → Sys
  | .idle => s
  | .openRead call =>
    if s.file.opens ok then { s with phase := .app img test (.read call) }
    else goOn s img test call
  | .read call =>
    { s with
      sBootInfo := (s.file.read ok).getD s.sBootInfo
      phase := .app img test (.closeRead call) }
  | .closeRead call => goOn s img test call
  | .openWrite call =>
    { s with phase := .app img test (if s.file.opens ok then .write call else .idle) }
  | .write call => { s with phase := .app img test (.closeWrite call ok) }
  | .closeWrite call isWritten =>
    let s := { s with phase := .app img test .idle }
    if isWritten && ok then written s img test call else s

/-- `sl_extlib_FlcTest`, `sl_extlib_FlcCommit` and `sl_extlib_FlcIsPendingCommit`. -/
def flcCall (s : Sys) (img : Img) (test : Bool) (call : Call) : Sys :=
  match call with
  | .test flags =>
    if flags &&& flcTestResetMcu ≠ 0 then
      if flags &&& flcTestResetMcuWithApp ≠ 0 then
        { s with phase := .app img test (.openRead call) }
      else { s with ret := flcTestResetMcu ||| (flags &&& flcTestResetNwp) }
    else { s with ret := flags &&& flcTestResetNwp }
  | _ => { s with phase := .app img test (.openRead call) }

inductive Act where
  /-- The next file operation, and whether it succeeds. -/
  | op (ok : Bool)
  | reset
  /-- The image that runs calls `flc.c`. -/
  | call (call : Call)

def sysStep (s : Sys) : Act → Option (Sys × Unit)
  | .op ok =>
    match s.phase with
    | .app img test flc => some (flcStep s img test ok flc, ())
    | _ => some (bootStep s ok, ())
  | .reset => some ({ s with phase := .openRead }, ())
  | .call call =>
    match s.phase with
    | .app img test .idle => some (flcCall s img test call, ())
    | _ => some (s, ())

/-! ## The property and the condition -/

structure SafeUpdate (s : Sys) : Prop where
  /-- For each test request in the boot info, the image under test is run at most once. -/
  once : s.tested.Nodup ∧ ∀ n ∈ s.tested, 0 < n ∧ n ≤ s.requests
  /-- The active image changes only by a commit while the image under test runs. -/
  active : ∀ info ∈ s.file.info, s.lastActive = some info.ucActiveImg
  /-- An image that is not run to be tested is the active one. -/
  loads : ∀ img flc, s.phase = .app img false flc → ∀ a ∈ s.lastActive, img = activeImage a
  /-- If no test is requested, the bootloader runs the active image, unless one of its file operations fails. -/
  boots : ∀ info ∈ s.file.info, info.ulImgStatus ≠ imgStatusTestready → ∀ a ∈ s.lastActive,
    ∃ s' os, runs sysStep s (.reset :: List.replicate 9 (.op true)) = some (s', os) ∧
      s'.phase = .app (activeImage a) false .idle

/-- The bootloader reads the boot info that is there and writes the new status, and a test request
reads the boot info or has read the active image before. -/
def BootInfoCond (s : Sys) : Act → Prop
  | .op ok =>
    match s.phase with
    | .openRead | .read => s.file.info.isSome = true → ok = true
    | .openWrite _ _ _ | .write _ _ _ | .closeWrite _ _ _ => ok = true
    | .app _ _ (.openRead (.test _)) | .app _ _ (.read (.test _)) =>
      match s.file with
      | .absent => True
      | .empty => False
      | .holds info => ok = true ∨ s.sBootInfo.ucActiveImg = info.ucActiveImg
    | _ => True
  | _ => True

/-! ## The invariant -/

def Untested (s : Sys) : Prop := 0 < s.requests ∧ s.requests ∉ s.tested

def Runs (s : Sys) (img : Img) : Bool → Prop
  | false => ∀ info ∈ s.file.info,
    img = activeImage info.ucActiveImg ∧ info.ulImgStatus ≠ imgStatusTesting
  | true => ∀ info ∈ s.file.info,
    info.ulImgStatus = imgStatusTesting → img = testImage info.ucActiveImg

def Loads (s : Sys) (img : Img) (test : Bool) : Prop :=
  Runs s img test ∧
    (test = true → Untested s ∧ ∀ info ∈ s.file.info, info.ulImgStatus ≠ imgStatusTestready)

def Changes (s : Sys) (info : SBootInfo) (img : Img) : Bool → Prop
  | false => s.file.info = some ⟨info.ucActiveImg, imgStatusTesting⟩ ∧
    info.ulImgStatus = imgStatusNotest ∧ img = activeImage info.ucActiveImg
  | true => s.file.info = some ⟨info.ucActiveImg, imgStatusTestready⟩ ∧
    info.ulImgStatus = imgStatusTesting ∧ img = testImage info.ucActiveImg

/-- The copy of `flc.c` says `TESTING` only if the boot info does. -/
def Cached (s : Sys) : Prop :=
  s.sBootInfo.ulImgStatus = imgStatusTesting → s.file.info = some s.sBootInfo

def KnowsActive (s : Sys) : Call → Prop
  | .test _ => s.file = .absent ∨
    s.file.info.map SBootInfo.ucActiveImg = some s.sBootInfo.ucActiveImg
  | _ => True

def Writes (s : Sys) (test : Bool) : Call → Prop
  | .test _ => s.sBootInfo.ulImgStatus = imgStatusTestready ∧
    (s.file = .absent ∨ s.file.info.map SBootInfo.ucActiveImg = some s.sBootInfo.ucActiveImg)
  | .commit _ => s.sBootInfo.ulImgStatus = imgStatusNotest ∧ test = true ∧
    ∃ info, s.file.info = some info ∧ info.ulImgStatus = imgStatusTesting ∧
      s.sBootInfo.ucActiveImg = (testImage info.ucActiveImg).act
  | .isPendingCommit => False

def FlcInv (s : Sys) (test : Bool) : Flc → Prop
  | .idle | .openRead _ | .read _ => Cached s
  | .closeRead call => Cached s ∧ KnowsActive s call
  | .openWrite call => Writes s test call
  | .write call | .closeWrite call _ => Writes s test call ∧ s.file ≠ .absent

def PhaseInv (s : Sys) : Phase → Prop
  | .openRead | .read | .hang => True
  | .openCreate | .getInfo _ _ => s.file.info = none
  | .writeDefault _ info => s.file.info = none ∧ info.ulImgStatus = imgStatusNotest
  | .closeInfo isWritten info =>
    s.file.info = none ∧ info.ulImgStatus = imgStatusNotest ∨
      isWritten = false ∧ s.file.info = some info
  | .openWrite info img test | .write info img test | .closeWrite info img test =>
    Changes s info img test
  | .loadOpen img test | .loadInfo img test | .loadRead img test => Loads s img test
  | .app img test flc => Runs s img test ∧ FlcInv s test flc

def Known (s : Sys) : Prop := ∀ info ∈ s.file.info, info.ulImgStatus = imgStatusNotest ∨
  info.ulImgStatus = imgStatusTestready ∨ info.ulImgStatus = imgStatusTesting

structure Inv (s : Sys) : Prop where
  active : s.lastActive = s.file.info.map SBootInfo.ucActiveImg
  once : s.tested.Nodup ∧ ∀ n ∈ s.tested, 0 < n ∧ n ≤ s.requests
  ready : ∀ info ∈ s.file.info, info.ulImgStatus = imgStatusTestready → Untested s
  phase : PhaseInv s s.phase

theorem testImage_act (a : Nat) :
    (testImage a).act = if a = imgActUser1 then imgActUser2 else imgActUser1 := by
  unfold testImage
  split <;> rfl

/-- The nine steps are three for the boot info, three for the status if it is `TESTING`, and three for the
image. -/
theorem boots_active {s : Sys} {info : SBootInfo} (hfile : s.file.info = some info)
    (hstatus : info.ulImgStatus = imgStatusNotest ∨ info.ulImgStatus = imgStatusTesting) :
    ∃ s' os, runs sysStep s (.reset :: List.replicate 9 (.op true)) = some (s', os) ∧
      s'.phase = .app (activeImage info.ucActiveImg) false .idle := by
  obtain ⟨file, phase, copy, ret, lastActive, requests, tested⟩ := s
  obtain ⟨ucActiveImg, ulImgStatus⟩ := info
  cases file with
  | holds info =>
    cases hfile
    rcases hstatus with h | h
    · cases h
      exact ⟨_, _, rfl, rfl⟩
    · cases h
      exact ⟨_, _, rfl, rfl⟩
  | _ => cases hfile

theorem Inv.safeUpdate {s : Sys} (h : Inv s) (hk : Known s) : SafeUpdate s where
  once := h.once
  active info hinfo := by
    rw [h.active, hinfo]
    rfl
  loads img flc hphase a ha := by
    have hruns := h.phase
    rw [hphase] at hruns
    rw [h.active] at ha
    obtain ⟨info, hinfo, rfl⟩ := Option.map_eq_some_iff.1 ha
    exact (hruns.1 info hinfo).1
  boots info hinfo hready a ha := by
    rw [h.active, hinfo] at ha
    cases ha
    refine boots_active hinfo ?_
    rcases hk info hinfo with hnotest | hr | htesting
    · exact .inl hnotest
    · exact absurd hr hready
    · exact .inr htesting

theorem inv_init {file : File} (h : ∀ info ∈ file.info, info.ulImgStatus = imgStatusNotest) :
    Inv (sysInit file) where
  active := rfl
  once := ⟨List.nodup_nil, nofun⟩
  ready info hinfo hstatus := by
    rw [h info hinfo] at hstatus
    cases hstatus
  phase := trivial

theorem Inv.goto {s : Sys} (h : Inv s) {phase : Phase} (hphase : PhaseInv s phase) :
    Inv { s with phase := phase } where
  active := h.active
  once := h.once
  ready := h.ready
  phase := by
    cases phase <;> exact hphase

/-! ### The bootloader -/

theorem imageLoader_default {s : Sys} {info : SBootInfo} (h : s.file.info = none)
    (hstatus : info.ulImgStatus = imgStatusNotest) : PhaseInv s (imageLoader info) := by
  unfold imageLoader
  dsimp only
  rw [if_pos hstatus.symm]
  refine ⟨fun i hi => ?_, nofun⟩
  rw [h] at hi
  cases hi

theorem imageLoader_read {s : Sys} {info : SBootInfo} (h : s.file.info = some info) :
    PhaseInv s (imageLoader info) := by
  unfold imageLoader
  dsimp only
  split
  · rename_i hstatus
    refine ⟨fun i hi => ?_, nofun⟩
    obtain rfl := Option.some.inj (h.symm.trans hi)
    refine ⟨rfl, ?_⟩
    rw [← hstatus]
    decide
  · split
    · rename_i hstatus
      refine ⟨?_, rfl, rfl⟩
      rw [h, hstatus]
    · split
      · rename_i hstatus
        refine ⟨?_, rfl, rfl⟩
        rw [h, hstatus]
      · exact trivial

theorem File.opens_info {file : File} {info : SBootInfo} (h : file.info = some info) (ok : Bool) :
    file.opens ok = ok := by
  cases file with
  | holds _ => rfl
  | _ => cases h

theorem File.read_info {file : File} {info : SBootInfo} (h : file.info = some info) :
    file.read true = some info := by
  cases file with
  | holds _ => exact h
  | _ => cases h

theorem File.read_none {file : File} (h : file.info = none) (ok : Bool) : file.read ok = none := by
  cases file with
  | holds _ => cases h
  | _ => rfl

theorem File.read_cases (file : File) (ok : Bool) :
    file.read ok = none ∨ ∃ info, file.info = some info ∧ file.read ok = some info := by
  cases file with
  | holds info =>
    cases ok
    · exact .inl rfl
    · exact .inr ⟨info, rfl, rfl⟩
  | _ => exact .inl rfl

theorem File.create_info {file : File} (h : file.info = none) : file.create.info = none := by
  cases file with
  | holds _ => cases h
  | _ => rfl

theorem Changes.info {s : Sys} {info : SBootInfo} {img : Img} {test : Bool}
    (h : Changes s info img test) : ∃ st, s.file.info = some ⟨info.ucActiveImg, st⟩ := by
  cases test <;> exact ⟨_, h.1⟩

theorem Changes.closed {s : Sys} (hs : Inv s) {info : SBootInfo} {img : Img} {test : Bool}
    (h : Changes s info img test) :
    Inv { s with file := .holds info, phase := .loadOpen img test } := by
  obtain ⟨st, hinfo⟩ := h.info
  have hactive : s.lastActive = some info.ucActiveImg := by
    rw [hs.active, hinfo]
    rfl
  cases test with
  | false =>
    obtain ⟨-, hstatus, himg⟩ := h
    refine ⟨hactive, hs.once, fun i hi hready => ?_, fun i hi => ?_, nofun⟩
    · cases hi
      rw [hstatus] at hready
      cases hready
    · cases hi
      refine ⟨himg, ?_⟩
      rw [hstatus]
      decide
  | true =>
    obtain ⟨hold, hstatus, himg⟩ := h
    have hready : Untested s := hs.ready _ hold rfl
    have hne : info.ulImgStatus ≠ imgStatusTestready := by
      rw [hstatus]
      decide
    refine ⟨hactive, hs.once, fun _ _ _ => hready, fun i hi _ => ?_, fun _ => ⟨hready, fun i hi => ?_⟩⟩
    · cases hi
      exact himg
    · cases hi
      exact hne

theorem Loads.app {s : Sys} (hs : Inv s) {img : Img} {test : Bool} (h : Loads s img test) :
    Inv { s with
      phase := .app img test .idle
      sBootInfo := ⟨0, 0⟩
      tested := if test then s.requests :: s.tested else s.tested } := by
  have hcached : (0 : Nat) ≠ imgStatusTesting := by decide
  cases test with
  | false => exact ⟨hs.active, hs.once, hs.ready, h.1, fun hc => absurd hc hcached⟩
  | true =>
    obtain ⟨hruns, hload⟩ := h
    obtain ⟨⟨hpos, hnew⟩, hne⟩ := hload rfl
    refine ⟨hs.active, ⟨List.nodup_cons.2 ⟨hnew, hs.once.1⟩, fun n hn => ?_⟩, fun info hinfo hr => ?_,
      hruns, fun hc => absurd hc hcached⟩
    · rcases List.mem_cons.1 hn with rfl | hn
      · exact ⟨hpos, Nat.le_refl _⟩
      · exact hs.once.2 n hn
    · exact absurd hr (hne info hinfo)

theorem bootStep_inv {s : Sys} (h : Inv s) {ok : Bool} (hcond : BootInfoCond s (.op ok)) :
    Inv (bootStep s ok) := by
  have hphase := h.phase
  unfold bootStep
  unfold BootInfoCond at hcond
  cases hp : s.phase with
  | openRead =>
    simp only [hp] at hcond
    refine h.goto ?_
    split
    · trivial
    · rename_i hopen
      by_contra hinfo
      obtain ⟨info, hinfo⟩ := Option.ne_none_iff_exists'.1 hinfo
      rw [File.opens_info hinfo] at hopen
      exact hopen (hcond (by rw [hinfo]; rfl))
  | read =>
    simp only [hp] at hcond
    refine h.goto ?_
    cases hinfo : s.file.info with
    | none =>
      rw [File.read_none hinfo]
      exact .inl ⟨hinfo, rfl⟩
    | some info =>
      rw [hcond (by rw [hinfo]; rfl), File.read_info hinfo]
      exact .inr ⟨rfl, hinfo⟩
  | openCreate =>
    rw [hp] at hphase
    have hinfo : (if ok then s.file.create else s.file).info = none := by
      split
      · exact File.create_info hphase
      · exact hphase
    refine ⟨?_, h.once, fun info hi => ?_, hinfo⟩
    · show s.lastActive = (if ok then s.file.create else s.file).info.map _
      rw [h.active, hphase, hinfo]
    · have hi : (if ok then s.file.create else s.file).info = some info := hi
      rw [hinfo] at hi
      cases hi
  | getInfo created img =>
    rw [hp] at hphase
    refine h.goto ?_
    unfold createDefaultBootInfo
    split
    · exact ⟨hphase, rfl⟩
    · cases img with
      | user2 => trivial
      | _ => exact hphase
  | writeDefault created info =>
    rw [hp] at hphase
    exact h.goto (.inl hphase)
  | closeInfo isWritten info =>
    rw [hp] at hphase
    dsimp only
    rcases hphase with ⟨hinfo, hstatus⟩ | ⟨rfl, hinfo⟩
    · split
      · have hactive : s.lastActive = none := by
          rw [h.active, hinfo]
          rfl
        refine ⟨?_, h.once, fun i hi hready => ?_, ?_⟩
        · show some (s.lastActive.getD _) = some _
          rw [hactive]
          rfl
        · cases hi
          rw [hstatus] at hready
          cases hready
        · have hload : imageLoader info = .loadOpen (activeImage info.ucActiveImg) false := by
            unfold imageLoader
            exact if_pos hstatus.symm
          show PhaseInv _ (imageLoader info)
          rw [hload]
          refine ⟨fun i hi => ?_, nofun⟩
          cases hi
          refine ⟨rfl, ?_⟩
          rw [hstatus]
          decide
      · exact h.goto (imageLoader_default hinfo hstatus)
    · exact h.goto (imageLoader_read hinfo)
  | openWrite info img test =>
    simp only [hp] at hcond hphase
    obtain ⟨st, hinfo⟩ := Changes.info hphase
    refine h.goto ?_
    rw [File.opens_info hinfo, hcond]
    exact hphase
  | write info img test =>
    simp only [hp] at hcond hphase
    refine h.goto ?_
    rw [hcond]
    exact hphase
  | closeWrite info img test =>
    simp only [hp] at hcond hphase
    rw [hcond]
    exact Changes.closed h hphase
  | loadOpen img test =>
    rw [hp] at hphase
    refine h.goto ?_
    cases ok
    · trivial
    · exact hphase
  | loadInfo img test =>
    rw [hp] at hphase
    refine h.goto ?_
    cases ok
    · trivial
    · exact hphase
  | loadRead img test =>
    rw [hp] at hphase
    exact Loads.app h hphase
  | hang => exact h
  | app _ _ _ => exact h

/-! ### The calls -/

section

variable {s : Sys} {img : Img} {test : Bool} {call : Call}

theorem Writes.cached (h : Writes s test call) : Cached s := by
  intro hc
  cases call with
  | test flags =>
    rw [h.1] at hc
    cases hc
  | commit commitFlag =>
    rw [h.1] at hc
    cases hc
  | isPendingCommit => exact h.elim

/-- What `_ReadBootInfo` leaves in the copy. -/
theorem cached_read (h : Cached s) (ok : Bool)
    (hc : ((s.file.read ok).getD s.sBootInfo).ulImgStatus = imgStatusTesting) :
    s.file.info = some ((s.file.read ok).getD s.sBootInfo) := by
  rcases File.read_cases s.file ok with hread | ⟨info, hinfo, hread⟩
  · rw [hread] at hc ⊢
    exact h hc
  · rw [hread, hinfo]
    rfl

theorem knowsActive_of_cond {ok : Bool} (hok : ok = false)
    (h : match s.file with
      | .absent => True
      | .empty => False
      | .holds info => ok = true ∨ s.sBootInfo.ucActiveImg = info.ucActiveImg) :
    s.file = .absent ∨ s.file.info.map SBootInfo.ucActiveImg = some s.sBootInfo.ucActiveImg := by
  cases hf : s.file with
  | absent => exact .inl rfl
  | empty =>
    rw [hf] at h
    exact h.elim
  | holds info =>
    rw [hf] at h
    rcases h with h | h
    · rw [hok] at h
      cases h
    · right
      rw [h]
      rfl

theorem afterRead_committed {info : SBootInfo} {flag : Int}
    (hstatus : imgStatusTesting = info.ulImgStatus) (hflag : flag = flcCommited) :
    (afterRead info (.commit flag)).1 = some {
      ulImgStatus := imgStatusNotest
      ucActiveImg := (testImage info.ucActiveImg).act } := by
  unfold afterRead
  dsimp only
  rw [if_pos hstatus, if_pos hflag, testImage_act]

theorem afterRead_kept {info : SBootInfo} {flag : Int}
    (h : ¬ (imgStatusTesting = info.ulImgStatus ∧ flag = flcCommited)) :
    (afterRead info (.commit flag)).1 = none := by
  unfold afterRead
  dsimp only
  split_ifs with hstatus hflag
  · exact absurd ⟨hstatus, hflag⟩ h
  · rfl
  · rfl

theorem goOn_inv (hs : Inv s) (hruns : Runs s img test) (hcached : Cached s)
    (hknows : KnowsActive s call) : Inv (goOn s img test call) := by
  have hidle : Inv { s with ret := (afterRead s.sBootInfo call).2, phase := .app img test .idle } :=
    ⟨hs.active, hs.once, hs.ready, hruns, hcached⟩
  unfold goOn
  cases call with
  | test flags => exact ⟨hs.active, hs.once, hs.ready, hruns, rfl, hknows⟩
  | isPendingCommit => exact hidle
  | commit commitFlag =>
    dsimp only
    by_cases hstatus : imgStatusTesting = s.sBootInfo.ulImgStatus
    · have hinfo := hcached hstatus.symm
      have htest : test = true := by
        cases test with
        | true => rfl
        | false => exact absurd hstatus.symm (hruns _ hinfo).2
      by_cases hflag : commitFlag = flcCommited
      · rw [afterRead_committed hstatus hflag]
        exact ⟨hs.active, hs.once, hs.ready, hruns, rfl, htest, _, hinfo, hstatus.symm, rfl⟩
      · rw [afterRead_kept fun h => hflag h.2]
        exact hidle
    · rw [afterRead_kept fun h => hstatus h.1]
      exact hidle

theorem written_inv (hs : Inv s) (hruns : Runs s img test) (hwrites : Writes s test call)
    (hfile : s.file ≠ .absent) :
    Inv (written { s with phase := .app img test .idle } img test call) := by
  cases call with
  | test flags =>
    obtain ⟨hstatus, hactive⟩ := hwrites
    have hactive := hactive.resolve_left hfile
    obtain ⟨old, hold, hsame⟩ := Option.map_eq_some_iff.1 hactive
    have hne : s.sBootInfo.ulImgStatus ≠ imgStatusTesting := by
      rw [hstatus]
      decide
    refine ⟨?_, ⟨hs.once.1, fun n hn => ?_⟩, fun _ _ _ => ⟨Nat.succ_pos _, fun hn => ?_⟩, ?_,
      fun hc => absurd hc hne⟩
    · show s.lastActive = some s.sBootInfo.ucActiveImg
      rw [hs.active, hactive]
    · have hle := hs.once.2 n hn
      exact ⟨hle.1, Nat.le_succ_of_le hle.2⟩
    · exact Nat.not_succ_le_self _ (hs.once.2 _ hn).2
    · cases test with
      | false =>
        intro info hinfo
        cases hinfo
        refine ⟨?_, hne⟩
        rw [← hsame]
        exact (hruns old hold).1
      | true =>
        intro info hinfo hc
        cases hinfo
        exact absurd hc hne
  | commit commitFlag =>
    obtain ⟨hstatus, rfl, old, hold, holdStatus, hact⟩ := hwrites
    have himg : img = testImage old.ucActiveImg := hruns old hold holdStatus
    have hne : s.sBootInfo.ulImgStatus ≠ imgStatusTesting := by
      rw [hstatus]
      decide
    refine ⟨?_, hs.once, fun info hinfo hready => ?_, fun info hinfo hc => ?_,
      fun hc => absurd hc hne⟩
    · show some img.act = some s.sBootInfo.ucActiveImg
      rw [hact, himg]
    · cases hinfo
      rw [hstatus] at hready
      cases hready
    · cases hinfo
      exact absurd hc hne
  | isPendingCommit => exact hwrites.elim

theorem flcStep_inv (hs : Inv s) {flc : Flc} (hp : s.phase = .app img test flc) {ok : Bool}
    (hcond : BootInfoCond s (.op ok)) : Inv (flcStep s img test ok flc) := by
  obtain ⟨hruns, hflc⟩ : Runs s img test ∧ FlcInv s test flc := by
    have hphase := hs.phase
    rw [hp] at hphase
    exact hphase
  unfold BootInfoCond at hcond
  cases flc with
  | idle => exact hs
  | openRead call =>
    unfold flcStep
    dsimp only
    split
    · have hread : PhaseInv s (.app img test (.read call)) := ⟨hruns, hflc⟩
      exact hs.goto hread
    · rename_i hopen
      refine goOn_inv hs hruns hflc ?_
      cases call with
      | test flags =>
        simp only [hp] at hcond
        cases ok with
        | false => exact knowsActive_of_cond rfl hcond
        | true =>
          cases hf : s.file with
          | absent => exact .inl hf
          | _ =>
            rw [hf] at hopen
            exact absurd rfl hopen
      | _ => trivial
  | read call =>
    refine ⟨hs.active, hs.once, hs.ready, hruns, cached_read hflc ok, ?_⟩
    cases call with
    | test flags =>
      simp only [hp] at hcond
      show s.file = _ ∨ s.file.info.map _ = some ((s.file.read ok).getD s.sBootInfo).ucActiveImg
      cases ok with
      | false =>
        have hread : s.file.read false = none := by cases s.file <;> rfl
        rw [hread]
        exact knowsActive_of_cond rfl hcond
      | true =>
        cases hf : s.file with
        | absent => exact .inl rfl
        | empty =>
          rw [hf] at hcond
          exact hcond.elim
        | holds info => exact .inr rfl
    | _ => trivial
  | closeRead call => exact goOn_inv hs hruns hflc.1 hflc.2
  | openWrite call =>
    refine hs.goto ?_
    split
    · rename_i hopen
      refine ⟨hruns, hflc, fun hf => ?_⟩
      rw [hf] at hopen
      cases hopen
    · exact ⟨hruns, Writes.cached hflc⟩
  | write call => exact hs.goto ⟨hruns, hflc⟩
  | closeWrite call isWritten =>
    unfold flcStep
    dsimp only
    split
    · exact written_inv hs hruns hflc.1 hflc.2
    · exact hs.goto ⟨hruns, Writes.cached hflc.1⟩

theorem flcCall_inv (hs : Inv s) (hp : s.phase = .app img test .idle) :
    Inv (flcCall s img test call) := by
  have hphase := hs.phase
  rw [hp] at hphase
  have hread : Inv { s with phase := .app img test (.openRead call) } := hs.goto hphase
  have hret : ∀ ret, Inv { s with ret := ret } := by
    intro ret
    refine ⟨hs.active, hs.once, hs.ready, ?_⟩
    show PhaseInv _ s.phase
    rw [hp]
    exact hphase
  unfold flcCall
  cases call with
  | test flags =>
    dsimp only
    split
    · split
      · exact hread
      · exact hret _
    · exact hret _
  | _ => exact hread

end

theorem sysStep_inv {s : Sys} (h : Inv s) {i : Act} (hcond : BootInfoCond s i) :
    ∃ s' o, sysStep s i = some (s', o) ∧ Inv s' := by
  unfold sysStep
  cases i with
  | op ok =>
    cases hp : s.phase with
    | app img test flc => exact ⟨_, (), rfl, flcStep_inv h hp hcond⟩
    | _ => exact ⟨_, (), rfl, bootStep_inv h hcond⟩
  | reset => exact ⟨_, (), rfl, h.goto trivial⟩
  | call call =>
    dsimp only
    split
    · rename_i hp
      exact ⟨_, (), rfl, flcCall_inv h hp⟩
    · exact ⟨_, (), rfl, h⟩

/-! ### The status -/

theorem goOn_file (s : Sys) (img : Img) (test : Bool) (call : Call) :
    (goOn s img test call).file = s.file := by
  unfold goOn
  dsimp only
  split <;> rfl

theorem bootStep_known {s : Sys} (h : Inv s) (hk : Known s) (ok : Bool) : Known (bootStep s ok) := by
  have hphase := h.phase
  unfold bootStep
  cases hp : s.phase with
  | openCreate =>
    rw [hp] at hphase
    have hinfo : (if ok then s.file.create else s.file).info = none := by
      split
      · exact File.create_info hphase
      · exact hphase
    intro info hi
    cases hinfo.symm.trans hi
  | closeInfo isWritten info =>
    rw [hp] at hphase
    dsimp only
    split
    · rename_i hwritten
      rcases hphase with ⟨-, hstatus⟩ | ⟨rfl, -⟩
      · intro i hi
        cases hi
        exact .inl hstatus
      · cases hwritten
    · exact hk
  | closeWrite info img test =>
    rw [hp] at hphase
    intro i hi
    cases ok with
    | false => exact hk i hi
    | true =>
      cases hi
      cases test with
      | false => exact .inl hphase.2.1
      | true => exact .inr (.inr hphase.2.1)
  | _ => exact hk

theorem flcStep_known {s : Sys} {img : Img} {test : Bool} {flc : Flc} (h : Inv s) (hk : Known s)
    (hp : s.phase = .app img test flc) (ok : Bool) : Known (flcStep s img test ok flc) := by
  have hphase := h.phase
  rw [hp] at hphase
  have hgoOn : ∀ call, Known (goOn s img test call) := by
    intro call info hi
    rw [goOn_file] at hi
    exact hk info hi
  cases flc with
  | openRead call =>
    unfold flcStep
    dsimp only
    split
    · exact hk
    · exact hgoOn call
  | closeRead call => exact hgoOn call
  | closeWrite call isWritten =>
    obtain ⟨-, hwrites, -⟩ := hphase
    unfold flcStep
    dsimp only
    split
    · intro info hi
      cases call with
      | test flags =>
        cases hi
        exact .inr (.inl hwrites.1)
      | commit commitFlag =>
        cases hi
        exact .inl hwrites.1
      | isPendingCommit => exact hwrites.elim
    · exact hk
  | _ => exact hk

theorem sysStep_known {s s' : Sys} {i : Act} {o : Unit} (h : Inv s) (hk : Known s)
    (hs : sysStep s i = some (s', o)) : Known s' := by
  unfold sysStep at hs
  cases i with
  | op ok =>
    cases hp : s.phase with
    | app img test flc =>
      rw [hp] at hs
      cases hs
      exact flcStep_known h hk hp ok
    | _ =>
      rw [hp] at hs
      cases hs
      exact bootStep_known h hk ok
  | reset =>
    cases hs
    exact hk
  | call call =>
    dsimp only at hs
    split at hs
    · cases hs
      unfold flcCall
      split
      · split_ifs <;> exact hk
      · exact hk
    · cases hs
      exact hk

/-- From a boot info file that is not there or has no test in it, in every run in which the
bootloader's accesses to the boot info and the reads of the test requests succeed. -/
theorem safe_update (file : File) (is : List Act)
    (hfile : ∀ info ∈ file.info, info.ulImgStatus = imgStatusNotest)
    (hmeets : Meets sysStep BootInfoCond (sysInit file) is) :
    ∃ s os, runs sysStep (sysInit file) is = some (s, os) ∧ SafeUpdate s := by
  have hstep : ∀ s i, Inv s ∧ Known s → BootInfoCond s i →
      ∃ s' o, sysStep s i = some (s', o) ∧ Inv s' ∧ Known s' := by
    intro s i hI hC
    obtain ⟨s', o, hs, hI'⟩ := sysStep_inv hI.1 hC
    exact ⟨s', o, hs, hI', sysStep_known hI.1 hI.2 hs⟩
  obtain ⟨s, os, hr, hinv, hknown⟩ := runs_invariant hstep
    ⟨inv_init hfile, fun info hinfo => .inl (hfile info hinfo)⟩ hmeets
  exact ⟨s, os, hr, hinv.safeUpdate hknown⟩

/-- The factory image asks for a test; the other image is run and makes itself the active one. -/
theorem safe_update_commit :
    ∃ s os, runs sysStep (sysInit (.holds ⟨imgActFactory, imgStatusNotest⟩))
        (List.replicate 6 (.op true) ++ .call (.test 5) :: List.replicate 6 (.op true) ++
          .reset :: List.replicate 9 (.op true) ++ .call (.commit 1) ::
          List.replicate 6 (.op true)) = some (s, os) ∧ SafeUpdate s := by
  refine safe_update _ _ ?_ ?_
  · rintro _ ⟨⟩
    rfl
  · exact And.intro (fun _ => rfl) <| And.intro (fun _ => rfl) <| And.intro trivial <|
      And.intro trivial <| And.intro trivial <| And.intro trivial <| And.intro trivial <|
      -- the test request
      And.intro (.inl rfl) <| And.intro (.inl rfl) <| And.intro trivial <| And.intro trivial <|
      And.intro trivial <| And.intro trivial <| And.intro trivial <|
      -- the image is run to be tested
      And.intro (fun _ => rfl) <| And.intro (fun _ => rfl) <| And.intro trivial <| And.intro rfl <|
      And.intro rfl <| And.intro rfl <| And.intro trivial <| And.intro trivial <|
      And.intro trivial <|
      -- the commit
      And.intro trivial <| And.intro trivial <| And.intro trivial <| And.intro trivial <|
      And.intro trivial <| And.intro trivial <| And.intro trivial trivial

/-- The status is not written before the image under test runs, and the image is run again after a
reset: twice for one request. -/
theorem tested_twice :
    ∃ s os, runs sysStep (sysInit (.holds ⟨imgActFactory, imgStatusNotest⟩))
        (List.replicate 6 (.op true) ++ .call (.test 5) :: List.replicate 6 (.op true) ++
          .reset :: List.replicate 3 (.op true) ++ .op false :: List.replicate 3 (.op true) ++
          .reset :: List.replicate 3 (.op true) ++ .op false :: List.replicate 3 (.op true)) =
        some (s, os) ∧ s.requests = 1 ∧ s.tested = [1, 1] ∧ ¬ SafeUpdate s :=
  ⟨_, _, rfl, rfl, rfl, fun h => absurd h.once.1 (by decide)⟩

end SimpleLink.Ota.BootInfo
