import SimpleLink.Lib.Bitmap
import SimpleLink.Lib.IndexList
import SimpleLink.Lib.Run

/-!
# Pool objects (`driver.c`)

The control block keeps `MAX_CONCURRENT_ACTIONS` pool objects in three lists
threaded through `NextIndex`: free, pending and active. `ActiveActionsBitmap` has
a bit for each socket and for each action that is not tied to a socket.

A call of `_SlDrvWaitForPoolObj` is cut where the thread waits for the object's
sync object: everything between two waits runs under the protection lock, so it
is one step of the control block. An access outside the pool, or a list walk that
does not end, has no outcome (`none`).
-/

namespace SimpleLink.Driver

open Lib

/-- `MAX_CONCURRENT_ACTIONS`. -/
abbrev maxConcurrentActions : Nat := 10

/-- `SL_MAX_SOCKETS`. -/
abbrev slMaxSockets : Nat := 8

/-- `BSD_SOCKET_ID_MASK`. -/
abbrev bsdSocketIdMask : Nat := 0x0F

/-- The actions of `_SlActionID_e`. -/
inductive SlActionId where
  | accept
  | connect
  | select
  | getHostByName
  | getHostByService
  | ping
  | startStop
  | recv
  deriving DecidableEq, Repr

/-- `_SlActionID_e` goes on from the sockets. -/
def SlActionId.id : SlActionId → Nat
  | accept => 8
  | connect => 9
  | select => 10
  | getHostByName => 11
  | getHostByService => 12
  | ping => 13
  | startStop => 14
  | recv => 15

/-- `_SlPoolObj_t`; `syncObj` says whether the sync object has been signalled. -/
structure SlPoolObj where
  syncObj : Bool
  actionID : Nat
  additionalData : Nat
  nextIndex : Nat
  deriving DecidableEq, Repr

abbrev ObjPool := Vector SlPoolObj maxConcurrentActions

/-- The part of `_SlDriverCb_t` that keeps the pool. -/
structure SlDriverCb where
  objPool : ObjPool
  freePoolIdx : Nat
  pendingPoolIdx : Nat
  activePoolIdx : Nat
  activeActionsBitmap : BitVec 32

def slDrvDriverCbInit : SlDriverCb where
  objPool := Vector.ofFn fun idx =>
    { syncObj := false, actionID := 0, additionalData := slMaxSockets, nextIndex := idx + 1 }
  freePoolIdx := 0
  pendingPoolIdx := maxConcurrentActions
  activePoolIdx := maxConcurrentActions
  activeActionsBitmap := 0

def ObjPool.obj (pool : ObjPool) (i : Nat) : Option SlPoolObj := pool[i]?

def ObjPool.update (pool : ObjPool) (i : Nat) (f : SlPoolObj → SlPoolObj) : Option ObjPool :=
  if h : i < maxConcurrentActions then some (pool.set i (f (Vector.get pool ⟨i, h⟩))) else none

/-- `_SlRemoveFromList`: the pool and the new head of the list. -/
def slRemoveFromList (pool : ObjPool) (listIndex itemIndex : Nat) : Option (ObjPool × Nat) :=
  match pool.obj listIndex with
  | none => none
  | some head =>
    if maxConcurrentActions = head.nextIndex then some (pool, maxConcurrentActions)
    else if listIndex = itemIndex then
      match pool.obj itemIndex with
      | none => none
      | some item => some (pool, item.nextIndex)
    else
      match search pool.obj SlPoolObj.nextIndex maxConcurrentActions
        (fun obj => obj.nextIndex == itemIndex) (maxConcurrentActions + 1) listIndex with
      | none => none
      | some none => some (pool, listIndex)
      | some (some idx) =>
        match pool.obj itemIndex with
        | none => none
        | some item =>
          match pool.update idx fun obj => { obj with nextIndex := item.nextIndex } with
          | none => none
          | some pool => some (pool, listIndex)

/-- What a thread in `_SlDrvWaitForPoolObj` does next: return the index, or wait. -/
inductive Wait where
  | ret (objIdx : Nat)
  | blocked (currObjIndex : Nat)

/-- `_SlDrvWaitForPoolObj` from the test of its `while` loop on, under the lock. -/
def slDrvWaitForPoolObjLoop (cb : SlDriverCb) (currObjIndex actionID socketID : Nat) :
    Option (SlDriverCb × Wait) :=
  if (slMaxSockets > socketID ∧ bit cb.activeActionsBitmap socketID) ∨
      (bit cb.activeActionsBitmap actionID ∧ slMaxSockets = socketID) then
    -- action in progress: move to the pending list and wait
    match cb.objPool.update currObjIndex fun obj => { obj with nextIndex := cb.pendingPoolIdx } with
    | none => none
    | some pool =>
      some ({ cb with objPool := pool, pendingPoolIdx := currObjIndex }, .blocked currObjIndex)
  else
    let k := if slMaxSockets > socketID then socketID else actionID
    match cb.objPool.update currObjIndex fun obj => { obj with nextIndex := cb.activePoolIdx } with
    | none => none
    | some pool =>
      some ({ cb with
        objPool := pool
        activePoolIdx := currObjIndex
        activeActionsBitmap := cb.activeActionsBitmap ||| (1#32 <<< k) }, .ret currObjIndex)

/-- `_SlDrvWaitForPoolObj` up to its first wait. -/
def slDrvWaitForPoolObj (cb : SlDriverCb) (actionID socketID : Nat) :
    Option (SlDriverCb × Wait) :=
  if maxConcurrentActions > cb.freePoolIdx then
    let currObjIndex := cb.freePoolIdx
    match cb.objPool.obj currObjIndex with
    | none => none
    | some obj =>
      let free :=
        if maxConcurrentActions > obj.nextIndex then obj.nextIndex else maxConcurrentActions
      match cb.objPool.update currObjIndex fun obj => { obj with
          actionID := actionID
          additionalData := if slMaxSockets > socketID then socketID else obj.additionalData } with
      | none => none
      | some pool =>
        slDrvWaitForPoolObjLoop { cb with objPool := pool, freePoolIdx := free }
          currObjIndex actionID socketID
  else some (cb, .ret maxConcurrentActions)

def slDrvWaitForPoolObjResume (cb : SlDriverCb) (currObjIndex actionID socketID : Nat) :
    Option (SlDriverCb × Wait) :=
  match cb.objPool.update currObjIndex fun obj => { obj with syncObj := false } with
  | none => none
  | some pool => slDrvWaitForPoolObjLoop { cb with objPool := pool } currObjIndex actionID socketID

def wakes (obj pending : SlPoolObj) : Bool :=
  pending.actionID = obj.actionID ∧
    (slMaxSockets = pending.additionalData &&& bsdSocketIdMask ∨
      (slMaxSockets > obj.additionalData &&& bsdSocketIdMask ∧
        pending.additionalData &&& bsdSocketIdMask = obj.additionalData &&& bsdSocketIdMask))

/-- The loop of `_SlDrvReleasePoolObj` over the pending list. -/
def releasePending (cb : SlDriverCb) (obj : SlPoolObj) : Option SlDriverCb :=
  match search cb.objPool.obj SlPoolObj.nextIndex maxConcurrentActions (wakes obj)
    (maxConcurrentActions + 1) cb.pendingPoolIdx with
  | none => none
  | some none => some cb
  | some (some pendingIndex) =>
    match slRemoveFromList cb.objPool cb.pendingPoolIdx pendingIndex with
    | none => none
    | some (pool, head) =>
      match pool.update pendingIndex fun obj => { obj with syncObj := true } with
      | none => none
      | some pool => some { cb with objPool := pool, pendingPoolIdx := head }

/-- `_SlDrvReleasePoolObj` after its loop. -/
def releaseObj (cb : SlDriverCb) (objIdx : Nat) : Option SlDriverCb :=
  match cb.objPool.obj objIdx with
  | none => none
  | some obj =>
    let socket := obj.additionalData &&& bsdSocketIdMask
    let k := if slMaxSockets > socket then socket else obj.actionID
    match cb.objPool.update objIdx fun obj =>
        { obj with actionID := 0, additionalData := slMaxSockets } with
    | none => none
    | some pool =>
      match slRemoveFromList pool cb.activePoolIdx objIdx with
      | none => none
      | some (pool, head) =>
        match pool.update objIdx fun obj => { obj with nextIndex := cb.freePoolIdx } with
        | none => none
        | some pool =>
          some { cb with
            objPool := pool
            freePoolIdx := objIdx
            activePoolIdx := head
            activeActionsBitmap := cb.activeActionsBitmap &&& ~~~(1#32 <<< k) }

def slDrvReleasePoolObj (cb : SlDriverCb) (objIdx : Nat) : Option SlDriverCb :=
  match cb.objPool.obj objIdx with
  | none => none
  | some obj =>
    match releasePending cb obj with
    | none => none
    | some cb => releaseObj cb objIdx

end SimpleLink.Driver
