import SimpleLink.Driver.MsgRead
import SimpleLink.Driver.PoolWakeup

/-!
# The pool under events (`driver.c`)

An asynchronous response is for an active object: `_SlFindAndSetActiveObj` looks the
object up and keeps its index, the handler of the event signals the sync object, and
the thread that holds the object takes the signal. `EvtSys` adds this to the threads of
the pool. `PoolExact` says what the three lists and the bitmap are then: every object is
on one list, or has been taken off the pending list for a thread that has not run since.

A pool object has one sync object for both uses. A signal that nobody took is seen by the
next thread that waits for the object, which then goes on with the object still on the
pending list; `EvtCond` excludes that.
-/

namespace SimpleLink.Driver

open Lib

/-! ## The system -/

/-- `SL_NETAPP_FAMILY_MASK`. -/
abbrev slNetappFamilyMask : Nat := 0x80

/-- `actionIndex` is `FunctionParams.AsyncExt.ActionIndex`. -/
structure EvtSys extends PoolSys where
  actionIndex : Nat

def evtInit : EvtSys where
  toPoolSys := poolInit
  actionIndex := 0

/-- What happens next: a step of a thread in the pool; a thread marks the object it holds as one
for IPv6; the receive path looks an event up; the handler of the event signals the object; the
thread that holds an object comes back from its wait for the response. -/
inductive EvtOp where
  | pool (op : PoolOp)
  | setFamily (objIdx : Nat)
  | find (opcode sd : Nat)
  | signal
  | take (objIdx : Nat)
  deriving DecidableEq

def EvtSys.signalled (sys : EvtSys) (i : Nat) : Bool :=
  (sys.cb.objPool.obj i).any SlPoolObj.syncObj

def EvtSys.update (sys : EvtSys) (i : Nat) (f : SlPoolObj → SlPoolObj) : Option (EvtSys × Unit) :=
  match sys.cb.objPool.update i f with
  | none => none
  | some pool => some ({ sys with cb := { sys.cb with objPool := pool } }, ())

def evtStep (behind : Nat → Nat) (sys : EvtSys) : EvtOp → Option (EvtSys × Unit)
  | .pool op =>
    match poolStep sys.toPoolSys op with
    | none => none
    | some (pool, _) => some ({ sys with toPoolSys := pool }, ())
  | .setFamily i =>
    if i ∈ sys.held then
      sys.update i fun obj => { obj with additionalData := obj.additionalData ||| slNetappFamilyMask }
    else some (sys, ())
  | .find opcode sd =>
    match slFindAndSetActiveObj behind sys.cb opcode sd with
    | none => none
    | some none => some (sys, ())
    | some (some i) => some ({ sys with actionIndex := i }, ())
  | .signal => sys.update sys.actionIndex fun obj => { obj with syncObj := true }
  | .take i =>
    if i ∈ sys.held ∧ sys.signalled i then sys.update i fun obj => { obj with syncObj := false }
    else some (sys, ())

/-! ## The property and the condition -/

def SlDriverCb.freeList (cb : SlDriverCb) : List Nat :=
  cells cb.objPool.obj SlPoolObj.nextIndex maxConcurrentActions maxConcurrentActions cb.freePoolIdx

/-- The lists are lists, without cycles; every object is on one of them or waits to be taken up by
the thread it was taken off the pending list for; the bits of the bitmap are the sockets and actions
of the active objects, which have one each. -/
structure PoolExact (sys : PoolSys) : Prop where
  free : PoolChain sys.cb.objPool sys.cb.freePoolIdx sys.cb.freeList
  pending : PoolChain sys.cb.objPool sys.cb.pendingPoolIdx sys.cb.pendingList
  active : PoolChain sys.cb.objPool sys.cb.activePoolIdx sys.cb.activeList
  once : ∀ i < maxConcurrentActions,
    (sys.cb.freeList ++ sys.cb.pendingList ++ sys.cb.activeList ++ sys.woken).count i = 1
  bits : ∀ r, bit sys.cb.activeActionsBitmap r = true ↔
    ∃ i ∈ sys.cb.activeList, sys.cb.resource i = some r
  alone : ∀ i ∈ sys.cb.activeList, ∀ j ∈ sys.cb.activeList,
    sys.cb.resource i = sys.cb.resource j → i = j

/-- Sockets are below `SL_MAX_SOCKETS` (`SL_MAX_SOCKETS` for no socket); an event signals an object
that is still held; an object is not released with a signal that nobody took. -/
def EvtCond (sys : EvtSys) : EvtOp → Prop
  | .pool (.call _ s) => s ≤ slMaxSockets
  | .pool (.resume _) => True
  | .pool (.release i) => i ∈ sys.held → sys.signalled i = false
  | .setFamily _ => True
  | .find _ _ => True
  | .signal => sys.actionIndex ∈ sys.held
  | .take _ => True

instance (sys : EvtSys) : ∀ op, Decidable (EvtCond sys op)
  | .pool (.call _ _) => inferInstanceAs (Decidable (_ ≤ _))
  | .pool (.resume _) => inferInstanceAs (Decidable True)
  | .pool (.release _) => inferInstanceAs (Decidable (_ → _))
  | .setFamily _ => inferInstanceAs (Decidable True)
  | .find _ _ => inferInstanceAs (Decidable True)
  | .signal => inferInstanceAs (Decidable (_ ∈ _))
  | .take _ => inferInstanceAs (Decidable True)

/-! ## What the pool does not see -/

/-- An object without the signal of its response and without the family of its address. -/
def SlPoolObj.plain (o : SlPoolObj) : SlPoolObj :=
  { o with syncObj := false, additionalData := o.additionalData &&& bsdSocketIdMask }

/-- The objects in `l` are seen without their signals and families. -/
def veil (l : List Nat) (i : Nat) (o : SlPoolObj) : SlPoolObj := if i ∈ l then o.plain else o

@[simp] theorem veil_nextIndex (l : List Nat) (i : Nat) (o : SlPoolObj) :
    (veil l i o).nextIndex = o.nextIndex := by
  rw [veil]; split <;> rfl

@[simp] theorem veil_actionID (l : List Nat) (i : Nat) (o : SlPoolObj) :
    (veil l i o).actionID = o.actionID := by
  rw [veil]; split <;> rfl

@[simp] theorem veil_socket (l : List Nat) (i : Nat) (o : SlPoolObj) :
    (veil l i o).additionalData &&& bsdSocketIdMask = o.additionalData &&& bsdSocketIdMask := by
  rw [veil]
  split
  · exact (Nat.and_assoc ..).trans (by rw [Nat.and_self])
  · rfl

theorem veil_resource (l : List Nat) (i : Nat) (o : SlPoolObj) :
    (veil l i o).resource = o.resource := by
  simp only [SlPoolObj.resource, veil_socket, veil_actionID]

theorem wakes_veil (l m : List Nat) (i j : Nat) (o p : SlPoolObj) :
    wakes (veil l i o) (veil m j p) = wakes o p := by
  simp only [wakes, veil_socket, veil_actionID]

/-- The pool `q` is the pool `p` seen through the veil. -/
def Veiled (l : List Nat) (p q : ObjPool) : Prop := ∀ i, q.obj i = (p.obj i).map (veil l i)

namespace Veiled

variable {l : List Nat} {p q q' : ObjPool} {i : Nat}

theorem obj (h : Veiled l p q) {o' : SlPoolObj} (hq : q.obj i = some o') :
    ∃ o, p.obj i = some o ∧ veil l i o = o' := by
  rwa [h i, Option.map_eq_some_iff] at hq

theorem map (h : Veiled l p q) {β : Type} {g : SlPoolObj → β} (hg : ∀ o, g (veil l i o) = g o) :
    (q.obj i).map g = (p.obj i).map g := by
  rw [h i, Option.map_map]
  exact congrArg (fun f => Option.map f (p.obj i)) (funext hg)

theorem resource (h : Veiled l p q) (i : Nat) : q.resource i = p.resource i :=
  h.map fun o => veil_resource l i o

theorem search (h : Veiled l p q) {t t' : SlPoolObj → Bool} (ht : ∀ i o, t' (veil l i o) = t o)
    (n i : Nat) :
    Lib.search q.obj SlPoolObj.nextIndex maxConcurrentActions t' n i =
      Lib.search p.obj SlPoolObj.nextIndex maxConcurrentActions t n i := by
  refine search_congr (fun j => ?_) i
  rw [h j, Option.map_map]
  refine congrArg (fun f => Option.map f (p.obj j)) (funext fun o => ?_)
  simp only [Function.comp_apply, ht, veil_nextIndex]

theorem update {l' : List Nat} (h : Veiled l p q) {f : SlPoolObj → SlPoolObj}
    (hl : ∀ j, j ≠ i → (j ∈ l' ↔ j ∈ l))
    (hf : ∀ o, p.obj i = some o → f (veil l i o) = veil l' i (f o))
    (hq : q.update i f = some q') :
    ∃ p', p.update i f = some p' ∧ Veiled l' p' q' ∧ ∀ j, j ≠ i → p'.obj j = p.obj j := by
  have hi : i < maxConcurrentActions := by
    by_contra hge
    rw [ObjPool.update, dif_neg hge] at hq
    cases hq
  obtain ⟨q₁, hq₁, hqi, hqj⟩ := q.update_eq f hi
  obtain rfl := Option.some.inj (hq₁.symm.trans hq)
  obtain ⟨p', hp, hpi, hpj⟩ := p.update_eq f hi
  refine ⟨p', hp, fun j => ?_, hpj⟩
  by_cases hj : j = i
  · subst hj
    obtain ⟨o, ho⟩ := p.exists_obj hi
    rw [hqi, hpi, h j, ho]
    exact congrArg some (hf o ho)
  · rw [hqj j hj, hpj j hj, h j]
    refine congrArg (fun g => Option.map g (p.obj j)) (funext fun o => ?_)
    simp only [veil, hl j hj]

theorem updateNext (h : Veiled l p q) {n : Nat}
    (hq : q.update i (fun obj => { obj with nextIndex := n }) = some q') :
    ∃ p', p.update i (fun obj => { obj with nextIndex := n }) = some p' ∧ Veiled l p' q' ∧
      SameData p p' := by
  obtain ⟨p', hp', hv, -⟩ := h.update (fun _ _ => Iff.rfl)
    (fun o _ => by simp only [veil, SlPoolObj.plain]; split <;> rfl) hq
  have hi : i < maxConcurrentActions := by
    by_contra hge
    rw [ObjPool.update, dif_neg hge] at hp'
    cases hp'
  obtain ⟨p₂, hp₂, hsame, -⟩ := p.update_next n hi
  obtain rfl := Option.some.inj (hp₂.symm.trans hp')
  exact ⟨p₂, hp', hv, hsame⟩

theorem removeFromList (h : Veiled l p q) {li head : Nat}
    (hq : slRemoveFromList q li i = some (q', head)) :
    ∃ p', slRemoveFromList p li i = some (p', head) ∧ Veiled l p' q' ∧ SameData p p' := by
  rw [slRemoveFromList] at hq ⊢
  split at hq
  · cases hq
  rename_i x' hx'
  obtain ⟨x, hx, rfl⟩ := h.obj hx'
  simp only [hx, veil_nextIndex] at hq ⊢
  split at hq
  next hlast =>
    cases hq
    exact ⟨p, by rw [if_pos hlast], h, fun _ => rfl⟩
  next hlast =>
    rw [if_neg hlast]
    split at hq
    next hhead =>
      rw [if_pos hhead]
      split at hq
      · cases hq
      rename_i y' hy'
      obtain ⟨y, hy, rfl⟩ := h.obj hy'
      cases hq
      exact ⟨p, by rw [hy, veil_nextIndex], h, fun _ => rfl⟩
    next hhead =>
      rw [if_neg hhead]
      rw [h.search (t := fun obj => obj.nextIndex == i) (fun j o => by rw [veil_nextIndex])] at hq
      split at hq
      · cases hq
      · next hs =>
        cases hq
        exact ⟨p, rfl, h, fun _ => rfl⟩
      · next idx hs =>
        split at hq
        · cases hq
        rename_i y' hy'
        obtain ⟨y, hy, rfl⟩ := h.obj hy'
        split at hq
        · cases hq
        rename_i pool hu
        cases hq
        rw [veil_nextIndex] at hu
        obtain ⟨p', hp', hv, hsame⟩ := h.updateNext hu
        exact ⟨p', by simp only [hy, hp'], hv, hsame⟩

end Veiled

/-- A control block with another pool. -/
abbrev SlDriverCb.withPool (cb : SlDriverCb) (p : ObjPool) : SlDriverCb := { cb with objPool := p }

section

variable {l : List Nat} {cb cb' : SlDriverCb} {p q : ObjPool} {w : Wait} {c a s i : Nat}

theorem veiled_loop (cb : SlDriverCb) (h : Veiled l p q)
    (hq : slDrvWaitForPoolObjLoop (cb.withPool q) c a s = some (cb', w)) :
    ∃ p', slDrvWaitForPoolObjLoop (cb.withPool p) c a s = some (cb'.withPool p', w) ∧
      Veiled l p' cb'.objPool := by
  rw [slDrvWaitForPoolObjLoop] at hq ⊢
  simp only [SlDriverCb.withPool] at hq ⊢
  by_cases hbusy : (slMaxSockets > s ∧ bit cb.activeActionsBitmap s) ∨
      (bit cb.activeActionsBitmap a ∧ slMaxSockets = s)
  · rw [if_pos hbusy] at hq ⊢
    split at hq
    · cases hq
    rename_i pool hu
    cases hq
    obtain ⟨p', hp', hv, -⟩ := h.updateNext hu
    exact ⟨p', by simp only [hp'], hv⟩
  · rw [if_neg hbusy] at hq ⊢
    split at hq
    · cases hq
    rename_i pool hu
    cases hq
    obtain ⟨p', hp', hv, -⟩ := h.updateNext hu
    exact ⟨p', by simp only [hp'], hv⟩

theorem veiled_wait (cb : SlDriverCb) (h : Veiled l p q) (hfree : cb.freePoolIdx ∉ l)
    (hq : slDrvWaitForPoolObj (cb.withPool q) a s = some (cb', w)) :
    ∃ p', slDrvWaitForPoolObj (cb.withPool p) a s = some (cb'.withPool p', w) ∧
      Veiled l p' cb'.objPool := by
  have hveil : ∀ o, veil l cb.freePoolIdx o = o := fun o => if_neg hfree
  rw [slDrvWaitForPoolObj] at hq ⊢
  simp only [SlDriverCb.withPool] at hq ⊢
  by_cases hlt : maxConcurrentActions > cb.freePoolIdx
  · rw [if_pos hlt] at hq ⊢
    split at hq
    · cases hq
    rename_i x' hx'
    obtain ⟨x, hx, rfl⟩ := h.obj hx'
    rw [hveil] at hq
    rw [hx]
    split at hq
    · cases hq
    rename_i pool hu
    obtain ⟨p', hp', hv, -⟩ :=
      h.update (fun _ _ => Iff.rfl) (fun o _ => by rw [hveil, hveil]) hu
    have hloop := veiled_loop { cb with freePoolIdx :=
      if maxConcurrentActions > x.nextIndex then x.nextIndex else maxConcurrentActions } hv hq
    simp only [hp']
    exact hloop
  · rw [if_neg hlt] at hq ⊢
    cases hq
    exact ⟨p, rfl, h⟩

theorem veiled_resume (cb : SlDriverCb) (h : Veiled l p q)
    (hq : slDrvWaitForPoolObjResume (cb.withPool q) c a s = some (cb', w)) :
    ∃ p', slDrvWaitForPoolObjResume (cb.withPool p) c a s = some (cb'.withPool p', w) ∧
      Veiled l p' cb'.objPool := by
  rw [slDrvWaitForPoolObjResume] at hq ⊢
  simp only [SlDriverCb.withPool] at hq ⊢
  split at hq
  · cases hq
  rename_i pool hu
  obtain ⟨p', hp', hv, -⟩ := h.update (fun _ _ => Iff.rfl)
    (fun o _ => by simp only [veil, SlPoolObj.plain]; split <;> rfl) hu
  have hloop := veiled_loop cb hv hq
  simp only [hp']
  exact hloop

theorem veiled_releasePending (h : Veiled l p q) {o : SlPoolObj} {j : Nat}
    (hpend : ∀ k, search q.obj SlPoolObj.nextIndex maxConcurrentActions (wakes (veil l j o))
      (maxConcurrentActions + 1) cb.pendingPoolIdx = some (some k) → k ∉ l)
    (hq : releasePending (cb.withPool q) (veil l j o) = some cb') :
    ∃ p', releasePending (cb.withPool p) o = some (cb'.withPool p') ∧ Veiled l p' cb'.objPool ∧
      ∀ k ∈ l, (p'.obj k).map SlPoolObj.data = (p.obj k).map SlPoolObj.data := by
  have hs := h.search (t := wakes o) (fun i x => wakes_veil l l j i o x) (maxConcurrentActions + 1)
    cb.pendingPoolIdx
  rw [hs] at hpend
  rw [releasePending] at hq ⊢
  simp only [SlDriverCb.withPool] at hq ⊢
  rw [hs] at hq
  split at hq
  · cases hq
  · cases hq
    exact ⟨p, rfl, h, fun _ _ => rfl⟩
  · next k hk =>
    have hveil : ∀ o, veil l k o = o := fun o => if_neg (hpend k hk)
    split at hq
    · cases hq
    rename_i pool head hr
    obtain ⟨p', hp', hv, hsame⟩ := h.removeFromList hr
    split at hq
    · cases hq
    rename_i pool' hu
    obtain ⟨p₂, hp₂, hv₂, hother⟩ :=
      hv.update (fun _ _ => Iff.rfl) (fun o _ => by rw [hveil, hveil]) hu
    cases hq
    refine ⟨p₂, by simp only [hp', hp₂], hv₂, fun m hm => ?_⟩
    rw [hother m (by rintro rfl; exact hpend m hk hm), hsame m]

theorem veiled_releaseObj {l' : List Nat} (cb : SlDriverCb) (h : Veiled l p q) (hl : ∀ j, j ≠ i → (j ∈ l' ↔ j ∈ l))
    (hi : i ∉ l') (hsig : ∀ o, p.obj i = some o → o.syncObj = false)
    (hq : releaseObj (cb.withPool q) i = some cb') :
    ∃ p', releaseObj (cb.withPool p) i = some (cb'.withPool p') ∧ Veiled l' p' cb'.objPool := by
  rw [releaseObj] at hq ⊢
  split at hq
  · cases hq
  rename_i x' hx'
  obtain ⟨x, hx, rfl⟩ := h.obj hx'
  simp only [hx, veil_socket, veil_actionID] at hq ⊢
  split at hq
  · cases hq
  rename_i pool hu
  obtain ⟨p₁, hp₁, hv₁, -⟩ := h.update hl (fun o ho => by
    rw [show veil l' i _ = _ from if_neg hi, veil]
    split
    · simp only [SlPoolObj.plain, hsig o ho]
    · rfl) hu
  simp only [hp₁]
  split at hq
  · cases hq
  rename_i pool₂ head hr
  obtain ⟨p₂, hp₂, hv₂, -⟩ := hv₁.removeFromList hr
  simp only [hp₂]
  split at hq
  · cases hq
  rename_i pool₃ hu₃
  obtain ⟨p₃, hp₃, hv₃, -⟩ := hv₂.updateNext hu₃
  cases hq
  exact ⟨p₃, by simp only [hp₃], hv₃⟩

theorem veiled_release (l' : List Nat) (cb : SlDriverCb) (h : Veiled l p q) (hl : ∀ j, j ≠ i → (j ∈ l' ↔ j ∈ l))
    (hi : i ∈ l) (hi' : i ∉ l') (hsig : (p.obj i).any SlPoolObj.syncObj = false)
    (hpend : ∀ t k, search q.obj SlPoolObj.nextIndex maxConcurrentActions t
      (maxConcurrentActions + 1) cb.pendingPoolIdx = some (some k) → k ∉ l)
    (hq : slDrvReleasePoolObj (cb.withPool q) i = some cb') :
    ∃ p', slDrvReleasePoolObj (cb.withPool p) i = some (cb'.withPool p') ∧
      Veiled l' p' cb'.objPool := by
  rw [slDrvReleasePoolObj] at hq ⊢
  split at hq
  · cases hq
  rename_i x' hx'
  obtain ⟨x, hx, rfl⟩ := h.obj hx'
  split at hq
  · cases hq
  rename_i cb₁ hr
  obtain ⟨p₁, hp₁, hv₁, hdata⟩ := veiled_releasePending h (fun k => hpend _ k) hr
  obtain ⟨p₂, hp₂, hv₂⟩ := veiled_releaseObj cb₁ hv₁ hl hi' (fun o ho => by
    have := hdata i hi
    rw [ho, hx, Option.map_some, Option.map_some, Option.some.injEq] at this
    rw [hx] at hsig
    exact (congrArg Prod.fst this).trans hsig) hq
  exact ⟨p₂, by simp only [hx, hp₁, hp₂], hv₂⟩

end

/-! ## The invariant -/

/-- The pool as its threads see it, `q` behind the veil. -/
def EvtSys.seen (sys : EvtSys) (q : ObjPool) : PoolSys :=
  { sys.toPoolSys with cb := sys.cb.withPool q }

structure EvtInv (sys : EvtSys) (q : ObjPool) (F P A W : List Nat) : Prop
    extends Inv (sys.seen q) F P A W where
  veiled : Veiled sys.held sys.cb.objPool q
  total : ∀ i < maxConcurrentActions, F.count i + P.count i + A.count i + W.count i = 1
  sockets : ∀ w ∈ sys.waiting, w.socketID ≤ slMaxSockets
  marked : ∀ i ∈ sys.held, ∀ r, q.resource i = some r → bit sys.cb.activeActionsBitmap r = true
  alone : ∀ i ∈ sys.held, ∀ j ∈ sys.held, q.resource i = q.resource j → i = j

theorem evtInv_init : EvtInv evtInit poolInit.cb.objPool (List.range maxConcurrentActions) [] [] [] where
  toInv := inv_init
  veiled i := by
    rw [show (veil evtInit.held i) = id from funext fun o => if_neg List.not_mem_nil]
    exact (congrFun Option.map_id _).symm
  total i hi := by
    simp only [List.count_nil, Nat.add_zero]
    exact List.count_eq_one_of_mem List.nodup_range (List.mem_range.2 hi)
  sockets := nofun
  marked := nofun
  alone := nofun

section

variable {behind : Nat → Nat} {sys : EvtSys} {q : ObjPool} {F P A W : List Nat}

theorem EvtInv.chain (h : EvtInv sys q F P A W) {i : Nat} {l : List Nat} (hc : PoolChain q i l) :
    PoolChain sys.cb.objPool i l :=
  hc.congr fun _ _ => (h.veiled.map fun o => veil_nextIndex _ _ o).symm

theorem EvtInv.mem_held' (h : EvtInv sys q F P A W) {i : Nat} : i ∈ sys.held ↔ i ∈ A :=
  h.toInv.mem_held

theorem EvtInv.held_nodup (h : EvtInv sys q F P A W) : sys.held.Nodup := by
  refine List.nodup_iff_count_le_one.2 fun i => ?_
  have hcount : sys.held.count i = A.count i := h.held i
  have := h.once i
  omega

theorem EvtInv.signalled_iff (h : EvtInv sys q F P A W) {i : Nat} (hi : i < maxConcurrentActions)
    (hA : i ∉ sys.held) : sys.signalled i = true ↔ i ∈ W := by
  obtain ⟨o, ho⟩ := sys.cb.objPool.exists_obj hi
  have hq : q.obj i = some o := by
    rw [h.veiled i, ho, Option.map_some, veil, if_neg hA]
  rw [EvtSys.signalled, ho]
  exact (h.data i o hq).2.1

theorem EvtInv.exact (h : EvtInv sys q F P A W) : PoolExact sys.toPoolSys := by
  have hF := h.chain h.free
  have hP := h.chain h.pending
  have hA := h.chain h.active
  obtain ⟨hnF, hnP, hnA, -⟩ := h.nodup
  have heF : sys.cb.freeList = F := hF.cells (length_le_of_nodup hnF hF.lt)
  have heP : sys.cb.pendingList = P := hP.cells (length_le_of_nodup hnP hP.lt)
  have heA : sys.cb.activeList = A := hA.cells (length_le_of_nodup hnA hA.lt)
  have hres : ∀ i, sys.cb.resource i = q.resource i := fun i => (h.veiled.resource i).symm
  refine ⟨heF ▸ hF, heP ▸ hP, heA ▸ hA, fun i hi => ?_, fun r => ?_, ?_⟩
  · have htotal := h.total i hi
    have hwoken : sys.woken.count i = W.count i := by
      have hwait : (sys.waiting.map Waiter.objIdx).count i = P.count i + W.count i := h.waiting i
      cases hs : sys.signalled i with
      | true =>
        rw [PoolSys.woken, List.count_filter (by exact hs), hwait]
        by_cases hAi : i ∈ A
        · have := List.count_pos_iff.2 hAi
          omega
        · have := List.count_pos_iff.2 ((h.signalled_iff hi (mt h.mem_held'.1 hAi)).1 hs)
          omega
      | false =>
        have hn : i ∉ sys.woken := by
          intro hm
          have hs' : sys.signalled i = true := (List.mem_filter.1 hm).2
          rw [hs] at hs'
          cases hs'
        rw [List.count_eq_zero_of_not_mem hn, eq_comm, List.count_eq_zero]
        intro hW
        have := List.count_pos_iff.2 hW
        have hAi : i ∉ A := not_mem_of_count (by omega)
        rw [(h.signalled_iff hi (mt h.mem_held'.1 hAi)).2 hW] at hs
        cases hs
    rw [List.count_append, List.count_append, List.count_append, heF, heP, heA, hwoken]
    exact htotal
  · rw [heA]
    constructor
    · intro hr
      obtain ⟨i, hi, hir⟩ := h.bits r hr
      exact ⟨i, hi, (hres i).trans hir⟩
    · rintro ⟨i, hi, hir⟩
      exact h.marked i (h.mem_held'.2 hi) r ((hres i).symm.trans hir)
  · rw [heA]
    intro i hi j hj hij
    exact h.alone i (h.mem_held'.2 hi) j (h.mem_held'.2 hj) (by rw [← hres, ← hres, hij])

/-! ## Steps -/

theorem EvtInv.held_step (sys' : EvtSys) {q' : ObjPool} {ok : Prop} {F' P' A' W' : List Nat}
    (h : EvtInv sys q F P A W) (hok : ok)
    (hm : Moves (sys.seen q) (sys'.seen q') ok F P A W F' P' A' W') :
    (∀ i ∈ sys'.held, ∀ r, q'.resource i = some r → bit sys'.cb.activeActionsBitmap r = true) ∧
      ∀ i ∈ sys'.held, ∀ j ∈ sys'.held, q'.resource i = q'.resource j → i = j := by
  have hframe : ∀ j ∈ sys.held, j ∈ sys'.held → q'.resource j = q.resource j := hm.frame
  rcases hm.marks with ⟨hheld, hbits⟩ | ⟨c, r, hheld, hc, hr, htakes⟩ | ⟨i, r, hi, hheld, hir, hbits⟩
  · simp only [EvtSys.seen] at hheld hbits
    refine ⟨fun i hi r hr => ?_, fun i hi j hj hij => ?_⟩
    · rw [hheld] at hi
      rw [hbits]
      exact h.marked i hi r ((hframe i hi (hheld ▸ hi)).symm.trans hr)
    · rw [hheld] at hi hj
      refine h.alone i hi j hj ?_
      rw [← hframe i hi (hheld ▸ hi), ← hframe j hj (hheld ▸ hj), hij]
  · simp only [EvtSys.seen] at hheld hc
    have hbits : sys'.cb.activeActionsBitmap = sys.cb.activeActionsBitmap ||| (1#32 <<< r) :=
      htakes.bits
    have hidle : bit sys.cb.activeActionsBitmap r = false := htakes.idle hok
    have hold : ∀ i ∈ sys'.held, i ≠ c → i ∈ sys.held ∧ q'.resource i = q.resource i := by
      intro i hi hic
      have hi' : i ∈ sys.held := (List.mem_cons.1 (hheld ▸ hi)).resolve_left hic
      exact ⟨hi', hframe i hi' hi⟩
    have hnew : ∀ i ∈ sys'.held, i ≠ c → q'.resource i ≠ some r := by
      intro i hi hic hir
      obtain ⟨hi', hres⟩ := hold i hi hic
      rw [h.marked i hi' r (hres.symm.trans hir)] at hidle
      cases hidle
    refine ⟨fun i hi s hs => ?_, fun i hi j hj hij => ?_⟩
    · rw [hbits, bit_set]
      by_cases hic : i = c
      · subst hic
        obtain rfl := Option.some.inj (hs.symm.trans hc)
        simp [hr]
      · obtain ⟨hi', hres⟩ := hold i hi hic
        rw [h.marked i hi' s (hres.symm.trans hs), Bool.true_or]
    · by_cases hic : i = c
      · by_cases hjc : j = c
        · rw [hic, hjc]
        · exact absurd (hij.symm.trans (hic ▸ hc)) (hnew j hj hjc)
      · by_cases hjc : j = c
        · exact absurd (hij.trans (hjc ▸ hc)) (hnew i hi hic)
        · obtain ⟨hi', hires⟩ := hold i hi hic
          obtain ⟨hj', hjres⟩ := hold j hj hjc
          exact h.alone i hi' j hj' (by rw [← hires, ← hjres, hij])
  · simp only [EvtSys.seen] at hi hheld hir hbits
    have hsub : ∀ j ∈ sys'.held, j ∈ sys.held := fun j hj => List.mem_of_mem_erase (hheld ▸ hj)
    refine ⟨fun j hj s hs => ?_, fun j hj k hk hjk => ?_⟩
    · have hres := hframe j (hsub j hj) hj
      have hsr : s ≠ r := by
        rintro rfl
        obtain rfl := h.alone j (hsub j hj) i hi ((hres.symm.trans hs).trans hir.symm)
        exact (h.held_nodup.mem_erase_iff.1 (hheld ▸ hj)).1 rfl
      rw [hbits, bit_clear, h.marked j (hsub j hj) s (hres.symm.trans hs)]
      simp [hsr]
    · refine h.alone j (hsub j hj) k (hsub k hk) ?_
      rw [← hframe j (hsub j hj) hj, ← hframe k (hsub k hk) hk, hjk]

theorem EvtInv.fresh {sys' : PoolSys} {F' P' A' W' : List Nat} (hinv : Inv sys' F' P' A' W')
    {c : Nat} (hc : c ∈ sys'.held) {o : SlPoolObj} (ho : sys'.cb.objPool.obj c = some o) :
    o.plain = o := by
  have hcA := List.count_pos_iff.2 (hinv.mem_held.1 hc)
  have honce := hinv.once c
  obtain ⟨hdata, hsync, -⟩ := hinv.data c o ho
  have hoff : o.syncObj = false := by
    cases hs : o.syncObj with
    | false => rfl
    | true =>
      have := List.count_pos_iff.2 (hsync.1 hs)
      omega
  rw [SlPoolObj.plain, and_mask hdata, ← hoff]

theorem Veiled.cons {l : List Nat} {p q : ObjPool} {c : Nat} (h : Veiled l p q)
    (hc : ∀ o, q.obj c = some o → o.plain = o) : Veiled (c :: l) p q := by
  intro i
  by_cases hic : i = c
  · subst hic
    cases hp : p.obj i with
    | none => rw [h i, hp]; rfl
    | some o =>
      have hq := h i
      rw [hp, Option.map_some] at hq
      have hplain := hc _ hq
      rw [hq, Option.map_some, veil, veil, if_pos List.mem_cons_self]
      split
      · rfl
      next hl =>
        rw [veil, if_neg hl] at hplain
        rw [hplain]
  · rw [h i]
    refine congrArg (fun f => Option.map f (p.obj i)) (funext fun o => ?_)
    simp only [veil, List.mem_cons, hic, false_or]

theorem EvtInv.hidden (h : EvtInv sys q F P A W) {i : Nat} (hi : i ∈ sys.held)
    {f : SlPoolObj → SlPoolObj} (hf : ∀ o, (f o).plain = o.plain) :
    ∃ sys', sys.update i f = some (sys', ()) ∧ EvtInv sys' q F P A W := by
  have hi10 : i < maxConcurrentActions := h.active.lt i (h.mem_held'.1 hi)
  obtain ⟨p', hp', hself, hother⟩ := sys.cb.objPool.update_eq f hi10
  refine ⟨{ sys with cb := { sys.cb with objPool := p' } }, by simp only [EvtSys.update, hp'], ?_⟩
  refine ⟨h.toInv, fun j => ?_, h.total, h.sockets, h.marked, h.alone⟩
  by_cases hj : j = i
  · subst hj
    show q.obj j = (p'.obj j).map _
    rw [hself, h.veiled j, Option.map_map]
    refine congrArg (fun g => Option.map g (sys.cb.objPool.obj j)) (funext fun o => ?_)
    simp only [Function.comp_apply, veil, if_pos hi, hf]
  · show q.obj j = (p'.obj j).map _
    rw [hother j hj, h.veiled j]

theorem EvtInv.free_not_held (h : EvtInv sys q F P A W) {i : Nat} (hi : i ∈ F ∨ i ∈ P ∨ i ∈ W) :
    i ∉ sys.held := by
  intro hheld
  have hA := List.count_pos_iff.2 (h.mem_held'.1 hheld)
  have := h.once i
  rcases hi with hi | hi | hi <;> have := List.count_pos_iff.2 hi <;> omega

theorem EvtInv.freePoolIdx_not_held (h : EvtInv sys q F P A W) : sys.cb.freePoolIdx ∉ sys.held := by
  rcases h.free.head with ⟨-, hstop⟩ | ⟨x, F', hF, -⟩
  · intro hheld
    have := h.active.lt _ (h.mem_held'.1 hheld)
    rw [show sys.cb.freePoolIdx = _ from hstop] at this
    omega
  · apply h.free_not_held
    rw [hF]
    exact .inl List.mem_cons_self

theorem EvtInv.pending_not_held (h : EvtInv sys q F P A W) {t : SlPoolObj → Bool} {k : Nat}
    (hs : search q.obj SlPoolObj.nextIndex maxConcurrentActions t (maxConcurrentActions + 1)
      sys.cb.pendingPoolIdx = some (some k)) : k ∉ sys.held := by
  have hP : PoolChain q sys.cb.pendingPoolIdx P := h.pending
  have hlen := length_le_of_nodup h.nodup.2.1 hP.lt
  rw [hP.search t (Nat.lt_succ_of_le hlen)] at hs
  exact h.free_not_held (.inr (.inl (List.mem_of_find?_eq_some (Option.some.inj hs))))

theorem EvtInv.poolStep_seen (h : EvtInv sys q F P A W) {op : PoolOp}
    (hc : EvtCond sys (.pool op)) {s' : PoolSys} {F' P' A' W' : List Nat}
    (hs : poolStep (sys.seen q) op = some (s', ())) (hinv : Inv s' F' P' A' W') :
    ∃ p', poolStep sys.toPoolSys op = some ({ s' with cb := s'.cb.withPool p' }, ()) ∧
      Veiled s'.held p' s'.cb.objPool := by
  cases op with
  | call a s =>
    rw [poolStep] at hs ⊢
    split at hs
    · cases hs
    · rename_i cb i hw
      cases hs
      obtain ⟨p', hp', hv⟩ := veiled_wait sys.cb h.veiled h.freePoolIdx_not_held hw
      have hp' : slDrvWaitForPoolObj sys.cb a.id s = some (cb.withPool p', .ret i) := hp'
      refine ⟨p', by rw [hp']; rfl, ?_⟩
      dsimp only at hinv ⊢
      by_cases hi : i < maxConcurrentActions
      · rw [if_pos hi] at hinv ⊢
        exact hv.cons fun o ho => EvtInv.fresh hinv List.mem_cons_self ho
      · rw [if_neg hi]
        exact hv
    · rename_i cb i hw
      cases hs
      obtain ⟨p', hp', hv⟩ := veiled_wait sys.cb h.veiled h.freePoolIdx_not_held hw
      have hp' : slDrvWaitForPoolObj sys.cb a.id s = some (cb.withPool p', .blocked i) := hp'
      exact ⟨p', by rw [hp']; rfl, hv⟩
  | resume i =>
    rw [poolStep] at hs ⊢
    have hsame : (sys.seen q).waiting = sys.waiting := rfl
    rw [hsame] at hs
    cases hf : sys.waiting.find? fun w => w.objIdx == i with
    | none =>
      rw [hf] at hs
      cases hs
      exact ⟨sys.cb.objPool, rfl, h.veiled⟩
    | some w =>
      have hw := List.mem_of_find?_eq_some hf
      obtain rfl : w.objIdx = i := by simpa using List.find?_some hf
      have hnot : w.objIdx ∉ sys.held := by
        have := h.mem_waiting (w := w) hw
        rcases Nat.eq_zero_or_pos (P.count w.objIdx) with h0 | hpos
        · exact h.free_not_held (.inr (.inr (List.count_pos_iff.1 (by omega))))
        · exact h.free_not_held (.inr (.inl (List.count_pos_iff.1 hpos)))
      have hsig : ((sys.seen q).cb.objPool.obj w.objIdx).any SlPoolObj.syncObj =
          (sys.cb.objPool.obj w.objIdx).any SlPoolObj.syncObj := by
        have hid : veil sys.held w.objIdx = id := funext fun o => if_neg hnot
        show (q.obj w.objIdx).any _ = _
        rw [h.veiled w.objIdx, hid, Option.map_id, id]
      rw [hf] at hs
      dsimp only at hs ⊢
      rw [hsig] at hs
      by_cases hwoken : (sys.cb.objPool.obj w.objIdx).any SlPoolObj.syncObj = true
      · rw [if_pos hwoken] at hs ⊢
        split at hs
        · cases hs
        · rename_i cb i hr
          cases hs
          obtain ⟨p', hp', hv⟩ := veiled_resume sys.cb h.veiled hr
          have hp' : slDrvWaitForPoolObjResume sys.cb w.objIdx w.actionID.id w.socketID =
            some (cb.withPool p', .ret i) := hp'
          refine ⟨p', by rw [hp']; rfl, ?_⟩
          exact hv.cons fun o ho => EvtInv.fresh hinv List.mem_cons_self ho
        · rename_i cb i hr
          cases hs
          obtain ⟨p', hp', hv⟩ := veiled_resume sys.cb h.veiled hr
          have hp' : slDrvWaitForPoolObjResume sys.cb w.objIdx w.actionID.id w.socketID =
            some (cb.withPool p', .blocked i) := hp'
          exact ⟨p', by rw [hp']; rfl, hv⟩
      · rw [if_neg hwoken] at hs ⊢
        cases hs
        exact ⟨sys.cb.objPool, rfl, h.veiled⟩
  | release i =>
    rw [poolStep] at hs ⊢
    have hsame : (sys.seen q).held = sys.held := rfl
    rw [hsame] at hs
    by_cases hi : i ∈ sys.held
    · rw [if_pos hi] at hs ⊢
      split at hs
      · cases hs
      · rename_i cb hr
        cases hs
        have hmem : ∀ {j}, j ∈ sys.held.erase i ↔ j ≠ i ∧ j ∈ sys.held := h.held_nodup.mem_erase_iff
        obtain ⟨p', hp', hv⟩ := veiled_release (sys.held.erase i) sys.cb h.veiled
          (fun j hj => by rw [hmem, and_iff_right hj]) hi (fun hm => (hmem.1 hm).1 rfl) (hc hi)
          (fun t k hk => h.pending_not_held hk) hr
        have hp' : slDrvReleasePoolObj sys.cb i = some (cb.withPool p') := hp'
        exact ⟨p', by rw [hp']; rfl, hv⟩
    · rw [if_neg hi] at hs ⊢
      cases hs
      exact ⟨sys.cb.objPool, rfl, h.veiled⟩

theorem plain_family (o : SlPoolObj) :
    SlPoolObj.plain { o with additionalData := o.additionalData ||| slNetappFamilyMask } = o.plain := by
  have : (o.additionalData ||| slNetappFamilyMask) &&& bsdSocketIdMask =
      o.additionalData &&& bsdSocketIdMask := by
    rw [Nat.and_or_distrib_right, show slNetappFamilyMask &&& bsdSocketIdMask = 0 from rfl, Nat.or_zero]
  simp only [SlPoolObj.plain, this]

theorem sockets_step (sys : PoolSys) {sys' : PoolSys} {op : PoolOp}
    (h : ∀ w ∈ sys.waiting, w.socketID ≤ slMaxSockets)
    (hop : ∀ a s, op = .call a s → s ≤ slMaxSockets) (hs : poolStep sys op = some (sys', ())) :
    ∀ w ∈ sys'.waiting, w.socketID ≤ slMaxSockets := by
  cases op with
  | call a s =>
    rw [poolStep] at hs
    split at hs
    · cases hs
    · cases hs
      exact h
    · cases hs
      exact List.forall_mem_cons.2 ⟨hop a s rfl, h⟩
  | resume i =>
    rw [poolStep] at hs
    split at hs
    · cases hs
      exact h
    · split at hs
      · split at hs
        · cases hs
        · cases hs
          exact fun w hw => h w (List.mem_of_mem_erase hw)
        · cases hs
          exact h
      · cases hs
        exact h
  | release i =>
    rw [poolStep] at hs
    split at hs
    · split at hs
      · cases hs
      · cases hs
        exact h
    · cases hs
      exact h

theorem EvtInv.pool_step (h : EvtInv sys q F P A W) {op : PoolOp} (hc : EvtCond sys (.pool op)) :
    ∃ sys' q' F' P' A' W', evtStep behind sys (.pool op) = some (sys', ()) ∧
      EvtInv sys' q' F' P' A' W' := by
  obtain ⟨s', F', P', A', W', hs, hinv, hmoves, -⟩ := Driver.pool_step h.toInv op
  obtain ⟨p', hp', hv⟩ := h.poolStep_seen hc hs hinv
  have hok : op.socketOk (sys.seen q) := by
    cases op with
    | call a s => exact hc
    | resume i => exact h.sockets
    | release i => trivial
  have hsockets : ∀ w ∈ s'.waiting, w.socketID ≤ slMaxSockets := by
    refine sockets_step (sys.seen q) h.sockets (fun a s hop => ?_) hs
    subst hop
    exact hc
  let sys' : EvtSys := { sys with toPoolSys := { s' with cb := s'.cb.withPool p' } }
  obtain ⟨hmarked, halone⟩ := EvtInv.held_step sys' h hok hmoves
  refine ⟨sys', s'.cb.objPool, F', P', A', W', by simp only [evtStep, hp']; rfl, hinv, hv,
    fun i hi => ?_, hsockets, hmarked, halone⟩
  rw [hmoves.kept, h.total i hi]

theorem evt_step (behind : Nat → Nat) (h : EvtInv sys q F P A W) {op : EvtOp} (hc : EvtCond sys op) :
    ∃ sys' q' F' P' A' W', evtStep behind sys op = some (sys', ()) ∧ EvtInv sys' q' F' P' A' W' := by
  cases op with
  | pool op => exact h.pool_step hc
  | setFamily i =>
    rw [evtStep]
    by_cases hi : i ∈ sys.held
    · rw [if_pos hi]
      obtain ⟨sys', hs, hinv⟩ := h.hidden hi plain_family
      exact ⟨sys', q, F, P, A, W, hs, hinv⟩
    · rw [if_neg hi]
      exact ⟨sys, q, F, P, A, W, rfl, h⟩
  | find opcode sd =>
    obtain ⟨r, hr⟩ := slFindAndSetActiveObj_eq_some (h.chain h.active) h.nodup.2.2.1 behind opcode sd
    rw [evtStep, hr]
    cases r with
    | none => exact ⟨sys, q, F, P, A, W, rfl, h⟩
    | some i => exact ⟨{ sys with actionIndex := i }, q, F, P, A, W, rfl, { h with }⟩
  | signal =>
    obtain ⟨sys', hs, hinv⟩ := h.hidden (i := sys.actionIndex) hc
      (f := fun obj => { obj with syncObj := true }) fun _ => rfl
    exact ⟨sys', q, F, P, A, W, hs, hinv⟩
  | take i =>
    rw [evtStep]
    by_cases hi : i ∈ sys.held ∧ sys.signalled i = true
    · rw [if_pos hi]
      obtain ⟨sys', hs, hinv⟩ := h.hidden hi.1
        (f := fun obj => { obj with syncObj := false }) fun _ => rfl
      exact ⟨sys', q, F, P, A, W, hs, hinv⟩
    · rw [if_neg hi]
      exact ⟨sys, q, F, P, A, W, rfl, h⟩

end

/-! ## Runs -/

/-- The lists and the bitmap are exact in every run within the condition. -/
theorem pool_exact (behind : Nat → Nat) (ops : List EvtOp)
    (h : Meets (evtStep behind) EvtCond evtInit ops) :
    ∃ sys us, runs (evtStep behind) evtInit ops = some (sys, us) ∧ PoolExact sys.toPoolSys := by
  obtain ⟨sys, us, hr, q, F, P, A, W, hinv⟩ := runs_invariant
    (I := fun sys => ∃ q F P A W, EvtInv sys q F P A W) (by
      rintro sys op ⟨q, F, P, A, W, hinv⟩ hc
      obtain ⟨sys', q', F', P', A', W', hs, hinv'⟩ := evt_step behind hinv hc
      exact ⟨sys', (), hs, q', F', P', A', W', hinv'⟩)
    ⟨_, _, _, _, _, evtInv_init⟩ h
  exact ⟨sys, us, hr, hinv.exact⟩

/-- A receive on a socket that is in use: its object waits, is woken, and gets its response. -/
theorem pool_exact_two_receives :
    ∃ sys us, runs (evtStep fun _ => 0) evtInit [.pool (.call .recv 0), .pool (.call .recv 0),
      .find 0x100A 0, .signal, .take 0, .pool (.release 0), .pool (.resume 1)] = some (sys, us) ∧
      PoolExact sys.toPoolSys :=
  pool_exact _ _ (by decide)

/-- The object of a thread that has been woken and has not run since is on none of the lists. -/
theorem woken_object_on_no_list :
    ∃ sys us, runs (evtStep fun _ => 0) evtInit [.pool (.call .recv 0), .pool (.call .recv 0),
      .pool (.release 0)] = some (sys, us) ∧
      (sys.cb.freeList ++ sys.cb.pendingList ++ sys.cb.activeList).count 1 = 0 := by
  refine ⟨_, _, rfl, ?_⟩
  decide

end SimpleLink.Driver
