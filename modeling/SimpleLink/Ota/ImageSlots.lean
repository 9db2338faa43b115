import Mathlib.Data.List.Infix
import SimpleLink.Ota.BootInfo

/-!
# The file for a new image (`flc.c`)

There are two files for new images. `sl_extlib_FlcOpenFile` opens the one that is not active, which it
finds by its copy of the boot info, and the bootloader tests the one that is not active by the boot
info itself. `SlotRun` adds to the system of the boot info the opening of the file, and keeps which
file was written last.
-/

namespace SimpleLink.Ota.BootInfo

open Lib

abbrev FileName : Type := List Char

def imgFactoryDefault : FileName := "/sys/mcuimg1.bin".toList
def imgUser1 : FileName := "/sys/mcuimg2.bin".toList
def imgUser2 : FileName := "/sys/mcuimg3.bin".toList

/-- The name under which the image of the MCU is known outside. -/
def mcuImage : FileName := "/sys/mcuimgA.bin".toList

/-- What `sl_extlib_FlcOpenFile` knows it by. -/
def mcuImagePrefix : FileName := "/sys/mcuimgA".toList

def Img.fileName : Img → FileName
  | factoryDefault => imgFactoryDefault
  | user1 => imgUser1
  | user2 => imgUser2

def mcuImageGetNewIndex (sBootInfo : SBootInfo) : Nat :=
  if sBootInfo.ucActiveImg = imgActUser1 then imgActUser2 else imgActUser1

/-- The file that `sl_extlib_FlcOpenFile` opens for a name. -/
def flcFileName (sBootInfo : SBootInfo) (fileName : FileName) : FileName :=
  if mcuImagePrefix <:+: fileName then
    fileName.set 11 (Char.ofNat (mcuImageGetNewIndex sBootInfo + '1'.toNat))
  else fileName

/-! ## Runs -/

/-- `last` is the file that an image was written to last, and `current` tells that the choice between
the two files has not changed since. -/
structure SlotRun where
  sys : Sys
  last : Option FileName
  current : Bool

inductive SlotAct where
  | sys (act : Act)
  /-- The image that runs calls `sl_extlib_FlcOpenFile` for writing an MCU image; `ok` is what
  `sl_FsOpen` answers. -/
  | openFile (ok : Bool)

/-- Whether the boot info has `IMG_ACT_USER1` as the active image. -/
def File.user1Active (file : File) : Option Bool :=
  file.info.map fun info => decide (info.ucActiveImg = imgActUser1)

def slotStep (r : SlotRun) : SlotAct → Option (SlotRun × Unit)
  | .sys act =>
    (sysStep r.sys act).map fun (s, _) =>
      ({ r with
          sys := s
          current := r.current && decide (s.file.user1Active = r.sys.file.user1Active) }, ())
  | .openFile ok =>
    match r.sys.phase with
    | .app _ _ .idle =>
      if ok then
        some ({ r with last := some (flcFileName r.sys.sBootInfo mcuImage), current := true }, ())
      else some (r, ())
    | _ => some (r, ())

def slotInit (file : File) : SlotRun := ⟨sysInit file, none, false⟩

/-! ## The property and the condition -/

structure SlotRight (r : SlotRun) (act : SlotAct) : Prop where
  /-- What is opened for a new image is not the active image. -/
  opens : act = .openFile true → ∀ img test, r.sys.phase = .app img test .idle →
    ∀ info ∈ r.sys.file.info,
      flcFileName r.sys.sBootInfo mcuImage ≠ (activeImage info.ucActiveImg).fileName
  /-- What is loaded to be tested is what was written last. -/
  loads : ∀ img, r.sys.phase = .loadOpen img true → ∀ f ∈ r.last, f = img.fileName
  /-- A commit makes it the active image. -/
  commits : ∀ img test flag,
    r.sys.phase = .app img test (.closeWrite (.commit flag) true) → ∀ f ∈ r.last,
      ∀ info ∈ (flcStep r.sys img test true (.closeWrite (.commit flag) true)).file.info,
        f = (activeImage info.ucActiveImg).fileName

/-- The copy of `flc.c` chooses the same file for a new image as the boot info. -/
def SameChoice (s : Sys) : Prop :=
  ∀ info ∈ s.file.info,
    (s.sBootInfo.ucActiveImg = imgActUser1 ↔ info.ucActiveImg = imgActUser1)

def armsTest (flags : Nat) : Prop :=
  flags &&& flcTestResetMcu ≠ 0 ∧ flags &&& flcTestResetMcuWithApp ≠ 0

/-- A file is opened, and a test request made, with a copy of the boot info that makes the right
choice or is read anew; and a test is not asked for when the active image has changed since an image
was written. -/
def SlotCond (r : SlotRun) : SlotAct → Prop
  | .openFile ok => ok = true → ∀ img test, r.sys.phase = .app img test .idle → SameChoice r.sys
  | .sys (.call (.test flags)) =>
    armsTest flags → ∀ img test, r.sys.phase = .app img test .idle →
      r.last = none ∨ r.current = true
  | .sys (.op ok) =>
    match r.sys.phase with
    | .app _ _ (.openRead (.test _)) | .app _ _ (.read (.test _)) => ok = true ∨ SameChoice r.sys
    | _ => True
  | _ => True

/-! ## The choice of a file -/

theorem testImage_congr {a b : Nat} (h : a = imgActUser1 ↔ b = imgActUser1) :
    testImage a = testImage b := by
  unfold testImage
  by_cases ha : a = imgActUser1
  · rw [if_pos ha, if_pos (h.1 ha)]
  · rw [if_neg ha, if_neg fun hb => ha (h.2 hb)]

theorem flcFileName_mcuImage (sBootInfo : SBootInfo) :
    flcFileName sBootInfo mcuImage = (testImage sBootInfo.ucActiveImg).fileName := by
  have hname : mcuImagePrefix <:+: mcuImage := by decide
  have huser2 : mcuImage.set 11 (Char.ofNat (imgActUser2 + '1'.toNat)) = imgUser2 := by decide
  have huser1 : mcuImage.set 11 (Char.ofNat (imgActUser1 + '1'.toNat)) = imgUser1 := by decide
  rw [flcFileName, if_pos hname, mcuImageGetNewIndex, testImage]
  by_cases ha : sBootInfo.ucActiveImg = imgActUser1
  · rw [if_pos ha, if_pos ha, huser2]
    rfl
  · rw [if_neg ha, if_neg ha, huser1]
    rfl

theorem testImage_ne_activeImage (a : Nat) :
    (testImage a).fileName ≠ (activeImage a).fileName := by
  unfold testImage activeImage
  split
  · decide
  · split
    · decide
    · decide

theorem activeImage_testImage_act (a : Nat) : activeImage (testImage a).act = testImage a := by
  unfold testImage
  split <;> rfl

theorem testImage_of_user1Active {file file' : File} {info info' : SBootInfo}
    (h : file'.user1Active = file.user1Active) (hinfo : file.info = some info)
    (hinfo' : file'.info = some info') :
    testImage info'.ucActiveImg = testImage info.ucActiveImg := by
  unfold File.user1Active at h
  rw [hinfo, hinfo', Option.map_some, Option.map_some, Option.some.injEq, decide_eq_decide] at h
  exact testImage_congr h

/-! ## When the copy makes the right choice -/

/-- The copy makes the choice of the boot info, or a commit is about to write the copy. -/
def Agreed (s : Sys) : Flc → Prop
  | .openWrite (.commit _) | .write (.commit _) | .closeWrite (.commit _) true => True
  | .closeWrite (.commit _) false => False
  | _ => SameChoice s

/-- A commit fails to write the boot info. -/
def CommitFails (ok : Bool) : Flc → Prop
  | .openWrite (.commit _) | .write (.commit _) | .closeWrite (.commit _) _ => ok = false
  | _ => False

section Agreed

variable {s : Sys} {img : Img} {test : Bool}

/-- What `_ReadBootInfo` reads makes its choice. -/
theorem agreed_read (call : Call) :
    Agreed (flcStep s img test true (.read call)) (.closeRead call) := by
  intro info hinfo
  have hread : s.file.read true = some info := File.read_info hinfo
  unfold flcStep
  dsimp only
  rw [hread]
  rfl

theorem agreed_goOn (h : SameChoice s) {call : Call} {flc : Flc}
    (hphase : (goOn s img test call).phase = .app img test flc) :
    Agreed (goOn s img test call) flc := by
  cases call with
  | test flags =>
    cases hphase
    exact h
  | isPendingCommit =>
    cases hphase
    exact h
  | commit flag =>
    unfold goOn at hphase ⊢
    dsimp only at hphase ⊢
    cases hinfo : (afterRead s.sBootInfo (.commit flag)).1 with
    | none =>
      rw [hinfo] at hphase
      cases hphase
      exact h
    | some info =>
      rw [hinfo] at hphase
      cases hphase
      trivial

/-- The copy goes on making the choice of the boot info until a commit fails. -/
theorem agreed_flcStep {flc flc' : Flc} (h : Agreed s flc) {ok : Bool} (hok : ¬ CommitFails ok flc)
    (hp : s.phase = .app img test flc)
    (hphase : (flcStep s img test ok flc).phase = .app img test flc') :
    Agreed (flcStep s img test ok flc) flc' := by
  cases flc with
  | idle =>
    rw [show (flcStep s img test ok .idle).phase = .app img test .idle from hp] at hphase
    cases hphase
    exact h
  | openRead call =>
    unfold flcStep at hphase ⊢
    dsimp only at hphase ⊢
    split_ifs at hphase ⊢ with hopens
    · cases hphase
      exact h
    · exact agreed_goOn h hphase
  | read call =>
    cases hphase
    intro info hinfo
    unfold flcStep
    dsimp only
    rcases s.file.read_cases ok with hread | ⟨info', hinfo', hread⟩
    · rw [hread]
      exact h info hinfo
    · rw [hread]
      cases hinfo'.symm.trans hinfo
      rfl
  | closeRead call => exact agreed_goOn h hphase
  | openWrite call =>
    unfold flcStep at hphase ⊢
    dsimp only at hphase ⊢
    split_ifs at hphase ⊢ with hopens
    · cases hphase
      cases call <;> exact h
    · cases hphase
      cases call with
      | test flags | isPendingCommit => exact h
      | commit flag =>
        intro info hinfo
        exact absurd ((File.opens_info hinfo ok).trans (Bool.eq_true_of_not_eq_false hok)) hopens
  | write call =>
    cases hphase
    cases call with
    | commit flag =>
      cases ok with
      | true => trivial
      | false => exact absurd rfl hok
    | test flags | isPendingCommit => exact h
  | closeWrite call isWritten =>
    unfold flcStep at hphase ⊢
    dsimp only at hphase ⊢
    split_ifs at hphase ⊢ with hw
    · cases call <;> cases hphase <;> rintro info ⟨⟩ <;> rfl
    · cases hphase
      cases call with
      | test flags | isPendingCommit => exact h
      | commit flag =>
        cases isWritten with
        | true => exact absurd (Bool.eq_true_of_not_eq_false hok) hw
        | false => cases h

end Agreed

/-! ## The invariant -/

/-- If an image was written, then to the file of `img`. -/
def LastIs (last : Option FileName) (img : Img) : Prop := ∀ f ∈ last, f = img.fileName

/-- The image written last is the one that the boot info would have tested. -/
def Current (last : Option FileName) (file : File) : Prop :=
  ∀ info ∈ file.info, LastIs last (testImage info.ucActiveImg)

/-- The bootloader is about to write `info` and load `img`. -/
def SlotChanges (last : Option FileName) (info : SBootInfo) (img : Img) : Bool → Prop
  | false => info.ulImgStatus = imgStatusNotest
  | true => img = testImage info.ucActiveImg ∧ LastIs last img

def Asks (last : Option FileName) (s : Sys) : Call → Prop
  | .test _ => Current last s.file
  | _ => True

def Knows (last : Option FileName) (s : Sys) : Call → Prop
  | .test _ => LastIs last (testImage s.sBootInfo.ucActiveImg)
  | _ => True

def Promises (last : Option FileName) (s : Sys) : Call → Prop
  | .test _ => s.sBootInfo.ulImgStatus = imgStatusTestready ∧
    LastIs last (testImage s.sBootInfo.ucActiveImg)
  | .commit _ => s.sBootInfo.ulImgStatus = imgStatusNotest ∧
    ∃ info ∈ s.file.info, info.ulImgStatus = imgStatusTesting ∧
      s.sBootInfo.ucActiveImg = (testImage info.ucActiveImg).act
  | .isPendingCommit => False

def SlotFlc (last : Option FileName) (s : Sys) : Flc → Prop
  | .idle => Cached s
  | .openRead call | .read call => Cached s ∧ Asks last s call
  | .closeRead call => Cached s ∧ Knows last s call
  | .openWrite call | .write call | .closeWrite call _ => Promises last s call

def SlotPhase (last : Option FileName) (s : Sys) : Phase → Prop
  | .openRead | .read | .openCreate | .getInfo _ _ | .hang => True
  | .writeDefault _ info => info.ulImgStatus = imgStatusNotest
  | .closeInfo _ info => info.ulImgStatus = imgStatusNotest ∨ s.file.info = some info
  | .openWrite info img test | .write info img test | .closeWrite info img test =>
    SlotChanges last info img test
  | .loadOpen img test | .loadInfo img test | .loadRead img test => test = true → LastIs last img
  | .app _ _ flc => SlotFlc last s flc

/-- What holds of the system when the image written last is in the file `last`. -/
structure SlotSys (last : Option FileName) (s : Sys) : Prop where
  blank : s.file.info = none → s.sBootInfo.ucActiveImg = imgActFactory ∧ LastIs last .user1
  waiting : ∀ info ∈ s.file.info,
    info.ulImgStatus = imgStatusTestready ∨ info.ulImgStatus = imgStatusTesting →
      LastIs last (testImage info.ucActiveImg)
  phase : SlotPhase last s s.phase

structure SlotInv (r : SlotRun) : Prop where
  sys : SlotSys r.last r.sys
  current : r.current = true → Current r.last r.sys.file

section

variable {last : Option FileName} {s : Sys} {info : SBootInfo} {img : Img} {test ok : Bool}
  {call : Call}

theorem SlotSys.goto (h : SlotSys last s) {phase : Phase} (hphase : SlotPhase last s phase) :
    SlotSys last { s with phase := phase } where
  blank := h.blank
  waiting := h.waiting
  phase := by
    cases phase <;> exact hphase

/-! ### The bootloader -/

theorem File.info_create (file : File) : file.create.info = file.info := by
  cases file <;> rfl

theorem slot_imageLoader (h : SlotSys last s)
    (hinfo : info.ulImgStatus = imgStatusNotest ∨ s.file.info = some info) :
    SlotPhase last s (imageLoader info) := by
  unfold imageLoader
  dsimp only
  split
  · exact nofun
  · rename_i hnotest
    have hinfo := hinfo.resolve_left fun hst => hnotest hst.symm
    split
    · rename_i hready
      exact ⟨rfl, h.waiting info hinfo (.inl hready.symm)⟩
    · split
      · rfl
      · trivial

theorem not_waiting (h : info.ulImgStatus = imgStatusNotest) :
    ¬ (info.ulImgStatus = imgStatusTestready ∨ info.ulImgStatus = imgStatusTesting) := by
  rw [h]
  decide

/-- The bootloader has written `info`, which asks for no test or for that of the image written
last. -/
theorem slot_store
    (hinfo : info.ulImgStatus = imgStatusNotest ∨ LastIs last (testImage info.ucActiveImg))
    {phase : Phase} (hphase : SlotPhase last { s with file := .holds info } phase)
    {lastActive : Option Nat} :
    SlotSys last { s with file := .holds info, phase := phase, lastActive := lastActive } where
  blank := nofun
  waiting i hi hstatus := by
    cases hi
    exact hinfo.resolve_left fun hnotest => not_waiting hnotest hstatus
  phase := by
    cases phase <;> exact hphase

theorem SlotChanges.loads (h : SlotChanges last info img test) (ht : test = true) :
    LastIs last img := by
  subst ht
  exact h.2

theorem SlotChanges.stored (h : SlotChanges last info img test) :
    info.ulImgStatus = imgStatusNotest ∨ LastIs last (testImage info.ucActiveImg) := by
  cases test with
  | false => exact .inl h
  | true => exact .inr (h.1 ▸ h.2)

theorem bootStep_slot (h : SlotSys last s) : SlotSys last (bootStep s ok) := by
  have hphase := h.phase
  unfold bootStep
  cases hp : s.phase with
  | openRead =>
    refine h.goto ?_
    split <;> trivial
  | read =>
    refine h.goto ?_
    rcases File.read_cases s.file ok with hread | ⟨info, hinfo, hread⟩
    · rw [hread]
      exact .inl rfl
    · rw [hread]
      exact .inr hinfo
  | openCreate =>
    have hinfo : (if ok then s.file.create else s.file).info = s.file.info := by
      split
      · exact File.info_create _
      · rfl
    refine ⟨fun hnone => h.blank (hinfo ▸ hnone), fun i hi => h.waiting i ?_, trivial⟩
    rw [← hinfo]
    exact hi
  | getInfo created img =>
    refine h.goto ?_
    unfold createDefaultBootInfo
    split
    · rfl
    · cases img <;> trivial
  | writeDefault created info =>
    rw [hp] at hphase
    exact h.goto (.inl hphase)
  | closeInfo isWritten info =>
    rw [hp] at hphase
    have hload := slot_imageLoader h hphase
    dsimp only
    split
    · rcases hphase with hnotest | hsame
      · refine slot_store (.inl hnotest) ?_
        unfold imageLoader
        dsimp only
        rw [if_pos hnotest.symm]
        exact nofun
      · have hfile : s.file = .holds info := by
          cases hf : s.file with
          | holds _ =>
            rw [hf] at hsame
            rw [Option.some.inj hsame]
          | _ =>
            rw [hf] at hsame
            cases hsame
        have hgoto := h.goto hload
        rw [← hfile]
        exact ⟨hgoto.blank, hgoto.waiting, hgoto.phase⟩
    · exact h.goto hload
  | openWrite info img test =>
    rw [hp] at hphase
    refine h.goto ?_
    split
    · exact hphase
    · exact fun ht => hphase.loads ht
  | write info img test =>
    rw [hp] at hphase
    refine h.goto ?_
    split
    · exact hphase
    · exact fun ht => hphase.loads ht
  | closeWrite info img test =>
    rw [hp] at hphase
    cases ok with
    | false => exact h.goto fun ht => hphase.loads ht
    | true =>
      have hload : SlotPhase last { s with file := .holds info } (.loadOpen img test) :=
        fun ht => hphase.loads ht
      exact slot_store hphase.stored hload
  | loadOpen img test =>
    rw [hp] at hphase
    refine h.goto ?_
    split
    · exact hphase
    · trivial
  | loadInfo img test =>
    rw [hp] at hphase
    refine h.goto ?_
    split
    · exact hphase
    · trivial
  | loadRead img test =>
    have hcached : (0 : Nat) ≠ imgStatusTesting := by decide
    exact ⟨fun hnone => ⟨rfl, (h.blank hnone).2⟩, h.waiting, fun hc => absurd hc hcached⟩
  | hang => exact h
  | app img test flc => exact h

/-! ### The calls -/

theorem Promises.cached (h : Promises last s call) : Cached s := by
  intro hc
  cases call with
  | test flags =>
    rw [h.1] at hc
    cases hc
  | commit commitFlag =>
    rw [h.1] at hc
    cases hc
  | isPendingCommit => exact h.elim

theorem goOn_slot (h : SlotSys last s) (hcached : Cached s) (hknows : Knows last s call) :
    SlotSys last (goOn s img test call) := by
  have hidle : SlotSys last
      { s with ret := (afterRead s.sBootInfo call).2, phase := .app img test .idle } :=
    ⟨h.blank, h.waiting, hcached⟩
  unfold goOn
  cases call with
  | test flags => exact ⟨h.blank, h.waiting, rfl, hknows⟩
  | isPendingCommit => exact hidle
  | commit commitFlag =>
    dsimp only
    by_cases hstatus : imgStatusTesting = s.sBootInfo.ulImgStatus
    · have hinfo := hcached hstatus.symm
      by_cases hflag : commitFlag = flcCommited
      · rw [afterRead_committed hstatus hflag]
        have hnone (hn : s.file.info = none) : False := by
          rw [hinfo] at hn
          cases hn
        exact ⟨fun hn => (hnone hn).elim, h.waiting, rfl, _, hinfo, hstatus.symm, rfl⟩
      · rw [afterRead_kept fun h => hflag h.2]
        exact hidle
    · rw [afterRead_kept fun h => hstatus h.1]
      exact hidle

theorem Asks.knows (h : SlotSys last s) (hasks : Asks last s call)
    (hsame : ∀ flags, call = .test flags → SameChoice s) : Knows last s call := by
  cases call with
  | test flags =>
    cases hinfo : s.file.info with
    | none =>
      obtain ⟨hactive, hlast⟩ := h.blank hinfo
      show LastIs last (testImage s.sBootInfo.ucActiveImg)
      rw [hactive]
      exact hlast
    | some info =>
      have hcongr := testImage_congr (hsame flags rfl info hinfo)
      show LastIs last (testImage s.sBootInfo.ucActiveImg)
      rw [hcongr]
      exact hasks info hinfo
  | _ => trivial

theorem written_slot (hp : Promises last s call) :
    SlotSys last (written { s with phase := .app img test .idle } img test call) := by
  cases call with
  | test flags =>
    obtain ⟨hstatus, hlast⟩ := hp
    refine ⟨nofun, fun i hi _ => ?_, fun hc => ?_⟩
    · cases hi
      exact hlast
    · have hready : s.sBootInfo.ulImgStatus = imgStatusTesting := hc
      rw [hstatus] at hready
      cases hready
  | commit commitFlag =>
    have hstatus := hp.1
    refine ⟨nofun, fun i hi hwait => ?_, fun hc => ?_⟩
    · cases hi
      exact absurd hwait (not_waiting hstatus)
    · have hready : s.sBootInfo.ulImgStatus = imgStatusTesting := hc
      rw [hstatus] at hready
      cases hready
  | isPendingCommit => exact hp.elim

theorem sameChoice_of_none (h : s.file.info = none) : SameChoice s := by
  intro info hinfo
  rw [h] at hinfo
  cases hinfo

theorem sameChoice_of_read (hread : s.file.read ok = none) (h : ok = true ∨ SameChoice s) :
    SameChoice s := by
  rcases h with rfl | h
  · refine sameChoice_of_none ?_
    cases hf : s.file with
    | holds info =>
      rw [hf] at hread
      cases hread
    | _ => rfl
  · exact h

theorem sameChoice_of_opens (hopens : ¬ s.file.opens ok = true) (h : ok = true ∨ SameChoice s) :
    SameChoice s := by
  rcases h with rfl | h
  · refine sameChoice_of_none ?_
    cases hf : s.file with
    | absent => rfl
    | _ =>
      rw [hf] at hopens
      exact absurd rfl hopens
  · exact h

theorem flcStep_slot (h : SlotSys last s) {flc : Flc} (hp : s.phase = .app img test flc)
    (hcond : ∀ flags, flc = .openRead (.test flags) ∨ flc = .read (.test flags) →
      ok = true ∨ SameChoice s) : SlotSys last (flcStep s img test ok flc) := by
  have hflc : SlotFlc last s flc := by
    have hphase := h.phase
    rw [hp] at hphase
    exact hphase
  unfold flcStep
  cases flc with
  | idle => exact h
  | openRead call =>
    dsimp only
    split
    · exact h.goto hflc
    · rename_i hopens
      refine goOn_slot h hflc.1 (Asks.knows h hflc.2 fun flags hcall => ?_)
      exact sameChoice_of_opens hopens (hcond flags (.inl (hcall ▸ rfl)))
  | read call =>
    refine ⟨fun hnone => ?_, h.waiting, cached_read hflc.1 ok, ?_⟩
    · rw [File.read_none hnone]
      exact h.blank hnone
    · rcases File.read_cases s.file ok with hread | ⟨info, hinfo, hread⟩
      · rw [hread]
        have hknows : Knows last s call := Asks.knows h hflc.2 fun flags hcall =>
          sameChoice_of_read hread (hcond flags (.inr (hcall ▸ rfl)))
        cases call with
        | test flags => exact hknows
        | _ => trivial
      · rw [hread]
        cases call with
        | test flags => exact hflc.2 info hinfo
        | _ => trivial
  | closeRead call => exact goOn_slot h hflc.1 hflc.2
  | openWrite call =>
    refine h.goto ?_
    split
    · exact hflc
    · exact Promises.cached hflc
  | write call => exact h.goto hflc
  | closeWrite call isWritten =>
    dsimp only
    split
    · exact written_slot hflc
    · exact h.goto (Promises.cached hflc)

theorem flcCall_slot (h : SlotSys last s) (hp : s.phase = .app img test .idle)
    (hasks : ∀ flags, call = .test flags → armsTest flags → Current last s.file) :
    SlotSys last (flcCall s img test call) := by
  have hcached : Cached s := by
    have hphase := h.phase
    rw [hp] at hphase
    exact hphase
  have hret : ∀ ret, SlotSys last { s with ret := ret } := by
    intro ret
    refine ⟨h.blank, h.waiting, ?_⟩
    show SlotPhase last _ s.phase
    rw [hp]
    exact hcached
  unfold flcCall
  cases call with
  | test flags =>
    dsimp only
    split
    · split
      · rename_i hreset hwith
        exact h.goto ⟨hcached, hasks flags rfl ⟨hreset, hwith⟩⟩
      · exact hret _
    · exact hret _
  | commit flag => exact h.goto ⟨hcached, trivial⟩
  | isPendingCommit => exact h.goto ⟨hcached, trivial⟩

end

/-! ## Every run -/

/-- As long as the choice between the files is the same, the image written last is the one to be
tested. -/
theorem current_step {last : Option FileName} {file file' : File} (h : Current last file)
    (hsame : file'.user1Active = file.user1Active) : Current last file' := by
  intro info' hinfo'
  cases hinfo : file.info with
  | none =>
    unfold File.user1Active at hsame
    rw [hinfo, show file'.info = some info' from hinfo'] at hsame
    cases hsame
  | some info =>
    rw [testImage_of_user1Active hsame hinfo hinfo']
    exact h info hinfo

theorem SlotInv.sysStep {r : SlotRun} (h : SlotInv r) {act : Act} (hcond : SlotCond r (.sys act)) :
    ∃ s, BootInfo.sysStep r.sys act = some (s, ()) ∧ SlotSys r.last s := by
  unfold BootInfo.sysStep
  cases act with
  | op ok =>
    cases hp : r.sys.phase with
    | app img test flc =>
      refine ⟨_, rfl, flcStep_slot h.sys hp fun flags hflc => ?_⟩
      unfold SlotCond at hcond
      simp only [hp] at hcond
      rcases hflc with rfl | rfl
      · exact hcond
      · exact hcond
    | _ => exact ⟨_, rfl, bootStep_slot h.sys⟩
  | reset => exact ⟨_, rfl, h.sys.goto trivial⟩
  | call call =>
    dsimp only
    split
    · rename_i img test hp
      refine ⟨_, rfl, flcCall_slot h.sys hp fun flags hcall harms => ?_⟩
      subst hcall
      rcases hcond harms img test hp with hnone | hcurrent
      · rw [hnone]
        exact fun _ _ => nofun
      · exact h.current hcurrent
    · exact ⟨_, rfl, h.sys⟩

theorem SlotInv.next {r r' : SlotRun} {act : SlotAct} {o : Unit} (h : SlotInv r)
    (hcond : SlotCond r act) (hs : slotStep r act = some (r', o)) : SlotInv r' := by
  unfold slotStep at hs
  cases act with
  | sys act =>
    obtain ⟨s, hstep, hsys⟩ := h.sysStep hcond
    dsimp only at hs
    rw [hstep] at hs
    obtain rfl := congrArg Prod.fst (Option.some.inj hs)
    refine ⟨hsys, fun hcurrent => ?_⟩
    rw [Bool.and_eq_true, decide_eq_true_eq] at hcurrent
    exact current_step (h.current hcurrent.1) hcurrent.2
  | openFile ok =>
    dsimp only at hs
    split at hs
    · rename_i img test hp
      split at hs
      · rename_i hok
        have hsame := hcond hok img test hp
        have hphase := h.sys.phase
        rw [hp] at hphase
        have hlast : Current (some (flcFileName r.sys.sBootInfo mcuImage)) r.sys.file := by
          intro info hinfo f hf
          cases hf
          rw [flcFileName_mcuImage, testImage_congr (hsame info hinfo)]
        obtain rfl := congrArg Prod.fst (Option.some.inj hs)
        refine ⟨⟨fun hnone => ?_, fun info hinfo _ => hlast info hinfo, ?_⟩, fun _ => hlast⟩
        · have hactive := (h.sys.blank hnone).1
          refine ⟨hactive, fun f hf => ?_⟩
          cases hf
          rw [flcFileName_mcuImage, hactive]
          rfl
        · show SlotPhase _ r.sys r.sys.phase
          rw [hp]
          exact hphase
      · obtain rfl := congrArg Prod.fst (Option.some.inj hs)
        exact h
    · obtain rfl := congrArg Prod.fst (Option.some.inj hs)
      exact h

theorem SlotInv.right {r : SlotRun} {act : SlotAct} (h : SlotInv r) (hcond : SlotCond r act) :
    SlotRight r act where
  opens hact img test hp info hinfo := by
    subst hact
    rw [flcFileName_mcuImage, testImage_congr (hcond rfl img test hp info hinfo)]
    exact testImage_ne_activeImage _
  loads img hp := by
    have hphase := h.sys.phase
    rw [hp] at hphase
    exact hphase rfl
  commits img test flag hp f hf info hinfo := by
    have hphase := h.sys.phase
    rw [hp] at hphase
    obtain ⟨-, old, hold, hstatus, hactive⟩ := hphase
    cases hinfo
    rw [hactive, activeImage_testImage_act]
    exact h.sys.waiting old hold (.inr hstatus) f hf

theorem slotInv_init (file : File) : SlotInv (slotInit file) where
  sys := ⟨fun _ => ⟨rfl, nofun⟩, fun _ _ _ => nofun, trivial⟩
  current := nofun

/-- Whatever is in the boot info at first, in a run in which files are opened and tests asked for with
the right copy of the boot info, and no test after the active image has changed: the library and the
bootloader agree on the file of the new image. -/
theorem image_slots (file : File) {acts : List SlotAct}
    (h : Meets slotStep SlotCond (slotInit file) acts) :
    Meets slotStep SlotRight (slotInit file) acts :=
  Meets.imp SlotInv.right SlotInv.next (slotInv_init file) h

def ops (n : Nat) : List SlotAct := List.replicate n (.sys (.op true))

/-- The first image is active. The image that runs asks for a pending commit, writes the second file
and has it tested; the second image makes itself the active one. -/
def updateRun : List SlotAct :=
  ops 6 ++ .sys (.call (.commit 1)) :: ops 3 ++ .openFile true :: .sys (.call (.test 5)) :: ops 6 ++
    .sys .reset :: ops 9 ++ .sys (.call (.commit 1)) :: ops 6

theorem image_slots_update :
    Meets slotStep SlotRight (slotInit (.holds ⟨imgActUser1, imgStatusNotest⟩)) updateRun ∧
      ∃ r os, runs slotStep (slotInit (.holds ⟨imgActUser1, imgStatusNotest⟩)) updateRun =
          some (r, os) ∧
        r.last = some imgUser2 ∧ r.sys.file.info = some ⟨imgActUser2, imgStatusNotest⟩ := by
  constructor
  · refine image_slots _ ?_
    refine ⟨trivial, trivial, trivial, trivial, trivial, trivial, ?_⟩
    -- the commit that finds nothing to do, and the file
    refine ⟨trivial, trivial, trivial, trivial, fun _ _ _ _ => ?_, ?_⟩
    · rintro _ ⟨⟩
      exact Iff.rfl
    -- the test request
    refine ⟨fun _ _ _ _ => .inr rfl, .inl rfl, .inl rfl, trivial, trivial, trivial, trivial, ?_⟩
    -- the image is loaded to be tested, and commits
    exact ⟨trivial, trivial, trivial, trivial, trivial, trivial, trivial, trivial, trivial, trivial,
      trivial, trivial, trivial, trivial, trivial, trivial, trivial, trivial⟩
  · exact ⟨_, _, rfl, by decide, rfl⟩

/-- The image that runs opens the file for a new image before it has read the boot info, and gets the
active one. -/
theorem active_opened :
    ¬ Meets slotStep SlotRight (slotInit (.holds ⟨imgActUser1, imgStatusNotest⟩))
      (ops 6 ++ [.openFile true]) := by
  intro h
  have hopens := h.2.2.2.2.2.2.1.opens rfl _ _ rfl _ rfl
  revert hopens
  decide

end SimpleLink.Ota.BootInfo
