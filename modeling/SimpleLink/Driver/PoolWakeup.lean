import SimpleLink.Driver.PoolLists

/-!
# Threads and the pool

Any number of threads call `_SlDrvWaitForPoolObj` and release what they got.
`PoolSys` adds to the control block the threads that wait for a sync object and
the objects the other threads hold. `NoLostWakeup` says that whoever is pending
waits for a resource that an active object holds, or that an object already woken
is about to take.

A release looks for a pending object of its own action, while any action on the
socket makes a thread wait for it: it may wake nobody, or somebody who waits for
another resource (`ReleaseWakes` is the exact condition).
-/

namespace SimpleLink.Driver

open Lib

/-- A thread that waits for the sync object of `objIdx`, and the arguments of its call. -/
structure Waiter where
  objIdx : Nat
  actionID : SlActionId
  socketID : Nat
  deriving DecidableEq

structure PoolSys where
  cb : SlDriverCb
  waiting : List Waiter
  held : List Nat

def poolInit : PoolSys where
  cb := slDrvDriverCbInit
  waiting := []
  held := []

/-- What a thread does next: call `_SlDrvWaitForPoolObj`, come back from the wait for the sync
object of `objIdx` (once it has been signalled), release an object it holds. -/
inductive PoolOp where
  | call (actionID : SlActionId) (socketID : Nat)
  | resume (objIdx : Nat)
  | release (objIdx : Nat)
  deriving DecidableEq

def poolStep (sys : PoolSys) : PoolOp → Option (PoolSys × Unit)
  | .call a s =>
    match slDrvWaitForPoolObj sys.cb a.id s with
    | none => none
    | some (cb, .ret i) =>
      let held := if i < maxConcurrentActions then i :: sys.held else sys.held
      some ({ sys with cb := cb, held := held }, ())
    | some (cb, .blocked i) => some ({ sys with cb := cb, waiting := ⟨i, a, s⟩ :: sys.waiting }, ())
  | .resume i =>
    match sys.waiting.find? fun w => w.objIdx == i with
    | none => some (sys, ())
    | some w =>
      if (sys.cb.objPool.obj i).any SlPoolObj.syncObj then
        match slDrvWaitForPoolObjResume sys.cb i w.actionID.id w.socketID with
        | none => none
        | some (cb, .ret i) =>
          some ({ cb := cb, waiting := sys.waiting.erase w, held := i :: sys.held }, ())
        | some (cb, .blocked _) => some ({ sys with cb := cb }, ())
      else some (sys, ())
  | .release i =>
    if i ∈ sys.held then
      match slDrvReleasePoolObj sys.cb i with
      | none => none
      | some cb => some ({ sys with cb := cb, held := sys.held.erase i }, ())
    else some (sys, ())

/-! ## The property and the condition -/

def SlDriverCb.pendingList (cb : SlDriverCb) : List Nat :=
  cells cb.objPool.obj SlPoolObj.nextIndex maxConcurrentActions maxConcurrentActions
    cb.pendingPoolIdx

def SlDriverCb.activeList (cb : SlDriverCb) : List Nat :=
  cells cb.objPool.obj SlPoolObj.nextIndex maxConcurrentActions maxConcurrentActions
    cb.activePoolIdx

abbrev SlDriverCb.resource (cb : SlDriverCb) (i : Nat) : Option Nat := cb.objPool.resource i

/-- The objects whose threads have been signalled and have not run since. -/
def PoolSys.woken (sys : PoolSys) : List Nat :=
  (sys.waiting.map Waiter.objIdx).filter fun i => (sys.cb.objPool.obj i).any SlPoolObj.syncObj

/-- A pending object waits for a resource that is held, or about to be taken by a woken one. -/
def NoLostWakeup (sys : PoolSys) : Prop :=
  ∀ p ∈ sys.cb.pendingList,
    (∃ a ∈ sys.cb.activeList, sys.cb.resource a = sys.cb.resource p) ∨
      ∃ w ∈ sys.woken, sys.cb.resource w = sys.cb.resource p

/-- If some object waits for the resource of `i`, then another object is active on it or has been
woken for it, or the first pending object that matches `i`'s action is one that waits for it. -/
def ReleaseWakes (sys : PoolSys) (i : Nat) : Prop :=
  (∃ p ∈ sys.cb.pendingList, sys.cb.resource p = sys.cb.resource i) →
    (∃ a ∈ sys.cb.activeList, a ≠ i ∧ sys.cb.resource a = sys.cb.resource i) ∨
    (∃ w ∈ sys.woken, sys.cb.resource w = sys.cb.resource i) ∨
    ∃ o ∈ sys.cb.objPool.obj i, ∃ q ∈ wakened sys.cb sys.cb.pendingList o,
      sys.cb.resource q = sys.cb.resource i

def PoolCond (sys : PoolSys) : PoolOp → Prop
  | .call _ _ => True
  | .resume _ => True
  | .release i => i ∈ sys.held → ReleaseWakes sys i

instance (sys : PoolSys) : Decidable (NoLostWakeup sys) :=
  inferInstanceAs (Decidable (∀ p ∈ _, _))

instance (sys : PoolSys) (i : Nat) : Decidable (ReleaseWakes sys i) :=
  inferInstanceAs (Decidable (_ → _))

instance (sys : PoolSys) : ∀ op, Decidable (PoolCond sys op)
  | .call _ _ => inferInstanceAs (Decidable True)
  | .resume _ => inferInstanceAs (Decidable True)
  | .release _ => inferInstanceAs (Decidable (_ → _))

/-! ## The invariant of the threads -/

def Waiter.resource (w : Waiter) : Nat :=
  if slMaxSockets > w.socketID then w.socketID else w.actionID.id

structure Inv (sys : PoolSys) (F P A W : List Nat) : Prop extends Lists sys.cb F P A W where
  held : ∀ i, sys.held.count i = A.count i
  waiting : ∀ i, (sys.waiting.map Waiter.objIdx).count i = P.count i + W.count i
  resource : ∀ w ∈ sys.waiting, sys.cb.resource w.objIdx = some w.resource

theorem Inv.pendingList {sys : PoolSys} {F P A W : List Nat} (h : Inv sys F P A W) :
    sys.cb.pendingList = P :=
  h.pending.cells (length_le_of_nodup h.nodup.2.1 h.pending.lt)

theorem Inv.activeList {sys : PoolSys} {F P A W : List Nat} (h : Inv sys F P A W) :
    sys.cb.activeList = A :=
  h.active.cells (length_le_of_nodup h.nodup.2.2.1 h.active.lt)

theorem Inv.mem_held {sys : PoolSys} {F P A W : List Nat} (h : Inv sys F P A W) {i : Nat} :
    i ∈ sys.held ↔ i ∈ A := by
  rw [← List.count_pos_iff, ← List.count_pos_iff, h.held i]

theorem Inv.mem_woken {sys : PoolSys} {F P A W : List Nat} (h : Inv sys F P A W) {i : Nat} :
    i ∈ sys.woken ↔ i ∈ W := by
  rw [PoolSys.woken, List.mem_filter, Option.any_eq_true]
  constructor
  · rintro ⟨-, o, ho, hs⟩
    exact (h.data i o ho).2.1.1 hs
  · intro hi
    obtain ⟨o, ho⟩ := sys.cb.objPool.exists_obj (h.woken i hi)
    refine ⟨List.count_pos_iff.1 ?_, o, ho, (h.data i o ho).2.1.2 hi⟩
    have := List.count_pos_iff.2 hi
    rw [h.waiting i]
    omega

/-- `NoLostWakeup` and `ReleaseWakes` in terms of the lists. -/
theorem Inv.noLostWakeup_iff {sys : PoolSys} {F P A W : List Nat} (h : Inv sys F P A W) :
    NoLostWakeup sys ↔ ∀ p ∈ P, (∃ a ∈ A, sys.cb.resource a = sys.cb.resource p) ∨
      ∃ w ∈ W, sys.cb.resource w = sys.cb.resource p := by
  simp only [NoLostWakeup, h.pendingList, h.activeList, h.mem_woken]

theorem Inv.releaseWakes_iff {sys : PoolSys} {F P A W : List Nat} (h : Inv sys F P A W) {i : Nat}
    {o : SlPoolObj} (ho : sys.cb.objPool.obj i = some o) :
    ReleaseWakes sys i ↔ ((∃ p ∈ P, sys.cb.resource p = sys.cb.resource i) →
      (∃ a ∈ A, a ≠ i ∧ sys.cb.resource a = sys.cb.resource i) ∨
      (∃ w ∈ W, sys.cb.resource w = sys.cb.resource i) ∨
      ∃ q, wakened sys.cb P o = some q ∧ sys.cb.resource q = sys.cb.resource i) := by
  simp only [ReleaseWakes, h.pendingList, h.activeList, h.mem_woken, ho, Option.mem_def,
    Option.some.injEq, exists_eq_left']

theorem inv_init : Inv poolInit (List.range maxConcurrentActions) [] [] [] where
  free := by
    show PoolChain slDrvDriverCbInit.objPool 0 [0, 1, 2, 3, 4, 5, 6, 7, 8, 9]
    repeat (first | exact .nil | refine .cons rfl (by decide) ?_)
  pending := .nil
  active := .nil
  woken := nofun
  once i := by
    have := List.nodup_iff_count_le_one.1 (List.nodup_range (n := maxConcurrentActions)) i
    simpa using this
  data := by
    intro i o ho
    have hi : i < maxConcurrentActions := by
      by_contra hge
      rw [show poolInit.cb.objPool.obj i = none from Vector.getElem?_eq_none (by omega)] at ho
      cases ho
    have : o.additionalData = slMaxSockets ∧ o.syncObj = false := by
      simp only [poolInit, slDrvDriverCbInit, ObjPool.obj, Vector.getElem?_ofFn, hi, dif_pos,
        Option.some.injEq] at ho
      subst ho
      exact ⟨rfl, rfl⟩
    simp [this]
  bits r hr := by
    rw [show poolInit.cb.activeActionsBitmap = 0#32 from rfl, bit_eq] at hr
    simp at hr
  held _ := rfl
  waiting _ := rfl
  resource := nofun

/-! ## Steps -/

/-- Every pending object has a holder, a woken object or `c` on its resource. -/
def Served (pool : ObjPool) (P A W : List Nat) (c : Option Nat) : Prop :=
  ∀ p ∈ P, (∃ a ∈ A, pool.resource a = pool.resource p) ∨
    (∃ w ∈ W, pool.resource w = pool.resource p) ∨ ∃ k ∈ c, pool.resource k = pool.resource p

theorem Inv.served_iff {sys : PoolSys} {F P A W : List Nat} (h : Inv sys F P A W) :
    NoLostWakeup sys ↔ Served sys.cb.objPool P A W none := by
  rw [h.noLostWakeup_iff]
  simp [Served]

theorem loop_served {cb : SlDriverCb} {F P A W : List Nat} {c a s : Nat}
    (h : Loose cb F P A W c a s) :
    ∃ cb', (∀ j, cb'.objPool.resource j = cb.objPool.resource j) ∧
      ((slDrvWaitForPoolObjLoop cb c a s = some (cb', .blocked c) ∧
          cb'.activeActionsBitmap = cb.activeActionsBitmap ∧ Lists cb' F (c :: P) A W ∧
          (Served cb.objPool P A W (some c) → Served cb'.objPool (c :: P) A W none)) ∨
        (slDrvWaitForPoolObjLoop cb c a s = some (cb', .ret c) ∧
          Takes cb cb' (if slMaxSockets > s then s else a) (s ≤ slMaxSockets) ∧
          Lists cb' F P (c :: A) W ∧
          (Served cb.objPool P A W (some c) → Served cb'.objPool P (c :: A) W none))) := by
  obtain ⟨cb', hsame, hcase⟩ := slDrvWaitForPoolObjLoop_eq h
  refine ⟨cb', hsame.resource, ?_⟩
  rcases hcase with ⟨he, ⟨i, hi, hic⟩, hbits, hl⟩ | ⟨he, htakes, hl⟩
  · refine .inl ⟨he, hbits, hl, fun hs p hp => ?_⟩
    simp only [hsame.resource]
    rcases List.mem_cons.1 hp with rfl | hp
    · exact .inl ⟨i, hi, hic⟩
    · rcases hs p hp with ha | hw | ⟨k, hk, hr⟩
      · exact .inl ha
      · exact .inr (.inl hw)
      · cases hk
        exact .inl ⟨i, hi, hic.trans hr⟩
  · refine .inr ⟨he, htakes, hl, fun hs p hp => ?_⟩
    simp only [hsame.resource]
    rcases hs p hp with ⟨a, ha, hr⟩ | hw | ⟨k, hk, hr⟩
    · exact .inl ⟨a, List.mem_cons_of_mem _ ha, hr⟩
    · exact .inr (.inl hw)
    · cases hk
      exact .inl ⟨c, List.mem_cons_self .., hr⟩

theorem Inv.mem_waiting {sys : PoolSys} {F P A W : List Nat} (h : Inv sys F P A W) {w : Waiter}
    (hw : w ∈ sys.waiting) : 0 < P.count w.objIdx + W.count w.objIdx := by
  rw [← h.waiting]
  exact List.count_pos_iff.2 (List.mem_map_of_mem hw)

def PoolOp.socketOk (sys : PoolSys) : PoolOp → Prop
  | .call _ s => s ≤ slMaxSockets
  | .resume _ => ∀ w ∈ sys.waiting, w.socketID ≤ slMaxSockets
  | .release _ => True

/-- What a step does with the bits of the resources: nothing, or an object is taken and sets its
bit, or an object is given back and clears it. -/
def Marks (sys sys' : PoolSys) (ok : Prop) : Prop :=
  (sys'.held = sys.held ∧ sys'.cb.activeActionsBitmap = sys.cb.activeActionsBitmap) ∨
  (∃ c r, sys'.held = c :: sys.held ∧ sys'.cb.resource c = some r ∧ r < 32 ∧
    Takes sys.cb sys'.cb r ok) ∨
  ∃ i r, i ∈ sys.held ∧ sys'.held = sys.held.erase i ∧ sys.cb.resource i = some r ∧
    sys'.cb.activeActionsBitmap = sys.cb.activeActionsBitmap &&& ~~~(1#32 <<< r)

theorem resource_lt (a : SlActionId) (s : Nat) : (if slMaxSockets > s then s else a.id) < 32 := by
  split
  · simp only [slMaxSockets] at *; omega
  · cases a <;> decide

/-- A step loses no object, and leaves the resources of the objects that stay held. -/
structure Moves (sys sys' : PoolSys) (ok : Prop) (F P A W F' P' A' W' : List Nat) : Prop where
  kept : ∀ k, F'.count k + P'.count k + A'.count k + W'.count k =
    F.count k + P.count k + A.count k + W.count k
  frame : ∀ j ∈ sys.held, j ∈ sys'.held → sys'.cb.resource j = sys.cb.resource j
  marks : Marks sys sys' ok

theorem Moves.rfl {sys : PoolSys} {ok : Prop} {F P A W : List Nat} :
    Moves sys sys ok F P A W F P A W :=
  ⟨fun _ => Eq.refl _, fun _ _ _ => Eq.refl _, .inl ⟨Eq.refl _, Eq.refl _⟩⟩

theorem call_step {sys : PoolSys} {F P A W : List Nat} (h : Inv sys F P A W) (a : SlActionId)
    (s : Nat) :
    ∃ sys' F' P' A' W', poolStep sys (.call a s) = some (sys', ()) ∧ Inv sys' F' P' A' W' ∧
      Moves sys sys' (s ≤ slMaxSockets) F P A W F' P' A' W' ∧
      (Served sys.cb.objPool P A W none → Served sys'.cb.objPool P' A' W' none) := by
  rcases slDrvWaitForPoolObj_eq h.toLists a.id s with ⟨rfl, he⟩ | ⟨c, F', cb₁, rfl, hl, hres, hbits, he⟩
  · refine ⟨sys, [], P, A, W, ?_, h, .rfl, id⟩
    rw [poolStep, he]
    rfl
  · obtain ⟨cb', hres', hcase⟩ := loop_served hl
    have hfresh := hl.fresh
    have hne : ∀ j, j ∈ P ∨ j ∈ A ∨ j ∈ W → j ≠ c := by
      rintro j hj rfl
      rcases hj with hj | hj | hj <;> have := List.count_pos_iff.2 hj <;> omega
    have hserved : Served sys.cb.objPool P A W none → Served cb₁.objPool P A W (some c) := by
      intro hs p hp
      rw [hres p (hne p (.inl hp))]
      rcases hs p hp with ⟨a, ha, hr⟩ | ⟨w, hw, hr⟩ | ⟨k, hk, -⟩
      · exact .inl ⟨a, ha, (hres a (hne a (.inr (.inl ha)))).trans hr⟩
      · exact .inr (.inl ⟨w, hw, (hres w (hne w (.inr (.inr hw)))).trans hr⟩)
      · cases hk
    have hwait : ∀ w ∈ sys.waiting, cb'.objPool.resource w.objIdx = some w.resource := by
      intro w hw
      have := h.mem_waiting hw
      rw [hres', hres _ (by rintro heq; rw [heq] at this; omega)]
      exact h.resource w hw
    have hc10 : c < maxConcurrentActions := hl.lt
    have hframe : ∀ j ∈ sys.held, cb'.objPool.resource j = sys.cb.objPool.resource j := by
      intro j hj
      rw [hres', hres j (hne j (.inr (.inl (h.mem_held.1 hj))))]
    rcases hcase with ⟨hloop, hsame, hlists, hs⟩ | ⟨hloop, htakes, hlists, hs⟩
    · refine ⟨{ sys with cb := cb', waiting := ⟨c, a, s⟩ :: sys.waiting }, F', c :: P, A, W, ?_, ?_,
        ⟨fun k => ?_, fun j hj _ => hframe j hj, .inl ⟨Eq.refl _, hsame.trans hbits⟩⟩, ?_⟩
      · rw [poolStep, he, hloop]
      · refine ⟨hlists, h.held, fun i => ?_, fun w hw => ?_⟩
        · simp only [List.map_cons, List.count_cons, h.waiting i]; omega
        · rcases List.mem_cons.1 hw with rfl | hw
          · exact (hres' c).trans hl.res
          · exact hwait w hw
      · rw [List.count_cons, List.count_cons]; omega
      · exact fun hk => hs (hserved hk)
    · refine ⟨{ sys with cb := cb', held := c :: sys.held }, F', P, c :: A, W, ?_, ?_,
        ⟨fun k => ?_, fun j hj _ => hframe j hj,
          .inr (.inl ⟨c, _, Eq.refl _, (hres' c).trans hl.res, resource_lt a s, ?_⟩)⟩, ?_⟩
      · rw [poolStep, he, hloop]
        simp only [hc10, if_true]
      · refine ⟨hlists, fun i => ?_, h.waiting, hwait⟩
        simp only [List.count_cons, h.held i]
      · rw [List.count_cons, List.count_cons]; omega
      · exact ⟨hbits ▸ htakes.bits, hbits ▸ htakes.idle⟩
      · exact fun hk => hs (hserved hk)

theorem resume_step {sys : PoolSys} {F P A W : List Nat} (h : Inv sys F P A W) (i : Nat) :
    ∃ sys' F' P' A' W', poolStep sys (.resume i) = some (sys', ()) ∧ Inv sys' F' P' A' W' ∧
      Moves sys sys' (∀ w ∈ sys.waiting, w.socketID ≤ slMaxSockets) F P A W F' P' A' W' ∧
      (Served sys.cb.objPool P A W none → Served sys'.cb.objPool P' A' W' none) := by
  rw [poolStep]
  cases hf : sys.waiting.find? fun w => w.objIdx == i with
  | none => exact ⟨sys, F, P, A, W, rfl, h, .rfl, id⟩
  | some w =>
    have hw := List.mem_of_find?_eq_some hf
    obtain rfl : w.objIdx = i := by simpa using List.find?_some hf
    by_cases hsig : (sys.cb.objPool.obj w.objIdx).any SlPoolObj.syncObj = true
    · simp only [hsig, if_true]
      obtain ⟨o, ho, hso⟩ := (Option.any_eq_true ..).1 hsig
      have hW := (h.data _ o ho).2.1.1 hso
      obtain ⟨cb₁, hl, hres, hbits, he⟩ := slDrvWaitForPoolObjResume_eq (a := w.actionID.id)
        (s := w.socketID) h.toLists hW (h.resource w hw)
      obtain ⟨cb', hres', hcase⟩ := loop_served hl
      have hserved : Served sys.cb.objPool P A W none →
          Served cb₁.objPool P A (W.erase w.objIdx) (some w.objIdx) := by
        intro hs p hp
        simp only [hres]
        rcases hs p hp with ha | ⟨k, hk, hr⟩ | ⟨k, hk, -⟩
        · exact .inl ha
        · by_cases hkw : k = w.objIdx
          · exact .inr (.inr ⟨k, congrArg some hkw.symm, hr⟩)
          · exact .inr (.inl ⟨k, (List.mem_erase_of_ne hkw).2 hk, hr⟩)
        · cases hk
      have hwait : ∀ v ∈ sys.waiting, cb'.objPool.resource v.objIdx = some v.resource := by
        intro v hv
        rw [hres', hres]
        exact h.resource v hv
      have hframe : ∀ j, cb'.objPool.resource j = sys.cb.objPool.resource j :=
        fun j => (hres' j).trans (hres j)
      rcases hcase with ⟨hloop, hsame, hlists, hs⟩ | ⟨hloop, htakes, hlists, hs⟩
      · refine ⟨{ sys with cb := cb' }, F, w.objIdx :: P, A, W.erase w.objIdx, ?_, ?_,
          ⟨fun k => ?_, fun j _ _ => hframe j, .inl ⟨Eq.refl _, hsame.trans hbits⟩⟩, ?_⟩
        · rw [he, hloop]
        · refine ⟨hlists, h.held, fun k => ?_, hwait⟩
          rw [h.waiting k, count_move hW P k]
        · have := count_move hW P k; omega
        · exact fun hk => hs (hserved hk)
      · refine ⟨{ cb := cb', waiting := sys.waiting.erase w, held := w.objIdx :: sys.held }, F, P,
          w.objIdx :: A, W.erase w.objIdx, ?_, ?_, ⟨fun k => ?_, fun j _ _ => hframe j,
            .inr (.inl ⟨w.objIdx, _, Eq.refl _, (hres' _).trans hl.res, resource_lt _ _, ?_⟩)⟩, ?_⟩
        · rw [he, hloop]
        · refine ⟨hlists, fun k => ?_, fun k => ?_, fun v hv => hwait v (List.mem_of_mem_erase hv)⟩
          · simp only [List.count_cons, h.held k]
          · have hperm := (List.perm_cons_erase hw).map Waiter.objIdx
            have := hperm.count_eq k
            rw [h.waiting k, List.map_cons, List.count_cons] at this
            have hcount := List.count_pos_iff.2 hW
            show ((sys.waiting.erase w).map Waiter.objIdx).count k = _
            rw [List.count_erase]
            by_cases hk : w.objIdx = k
            · subst hk; simp only [beq_self_eq_true, if_true] at this ⊢; omega
            · simp only [beq_iff_eq, hk, if_false] at this ⊢; omega
        · have := count_move hW A k; omega
        · exact ⟨hbits ▸ htakes.bits, fun hok => hbits ▸ htakes.idle (hok w hw)⟩
        · exact fun hk => hs (hserved hk)
    · simp only [hsig]
      exact ⟨sys, F, P, A, W, rfl, h, .rfl, id⟩

theorem release_served {pool pool' : ObjPool} {P A W : List Nat} {i : Nat} {q : Option Nat}
    (hserved : Served pool P A W none) (hnodup : A.Nodup) (hiP : i ∉ P) (hiW : i ∉ W)
    (hq : ∀ k ∈ q, k ∈ P) (hres : ∀ j, j ≠ i → pool'.resource j = pool.resource j)
    (hP : P.Nodup) :
    Served pool' (q.elim P P.erase) (A.erase i) (q.elim W (· :: W)) none ↔
      ((∃ p ∈ P, pool.resource p = pool.resource i) →
        (∃ a ∈ A, a ≠ i ∧ pool.resource a = pool.resource i) ∨
        (∃ w ∈ W, pool.resource w = pool.resource i) ∨
        ∃ k, q = some k ∧ pool.resource k = pool.resource i) := by
  have hne : ∀ {j}, j ∈ P ∨ j ∈ W → j ≠ i := by
    rintro j (hj | hj) rfl
    · exact hiP hj
    · exact hiW hj
  have hsub : ∀ {j}, j ∈ q.elim P P.erase ↔ j ∈ P ∧ q ≠ some j := by
    intro j
    cases q with
    | none => simp
    | some k =>
      simp only [Option.elim_some, hP.mem_erase_iff, ne_eq, Option.some.injEq]
      exact ⟨fun h => ⟨h.2, Ne.symm h.1⟩, fun h => ⟨Ne.symm h.2, h.1⟩⟩
  have hwok : ∀ {j}, j ∈ q.elim W (· :: W) ↔ q = some j ∨ j ∈ W := by
    intro j
    cases q with
    | none => simp
    | some k => simp [eq_comm]
  constructor
  · rintro hs ⟨p, hp, hpi⟩
    by_cases hpq : q = some p
    · exact .inr (.inr ⟨p, hpq, hpi⟩)
    · have hpres := hres p (hne (.inl hp))
      rcases hs p (hsub.2 ⟨hp, hpq⟩) with ⟨a, ha, hr⟩ | ⟨w, hw, hr⟩ | ⟨k, hk, -⟩
      · obtain ⟨hai, ha⟩ := hnodup.mem_erase_iff.1 ha
        rw [hres a hai, hpres] at hr
        exact .inl ⟨a, ha, hai, hr.trans hpi⟩
      · rcases hwok.1 hw with rfl | hw
        · rw [hres w (hne (.inl (hq w rfl))), hpres] at hr
          exact .inr (.inr ⟨w, rfl, hr.trans hpi⟩)
        · rw [hres w (hne (.inr hw)), hpres] at hr
          exact .inr (.inl ⟨w, hw, hr.trans hpi⟩)
      · cases hk
  · intro hwake p hp
    obtain ⟨hp, hpq⟩ := hsub.1 hp
    rw [hres p (hne (.inl hp))]
    have hserve : (∃ a ∈ A, a ≠ i ∧ pool.resource a = pool.resource p) ∨
        (∃ w ∈ W, pool.resource w = pool.resource p) ∨
        ∃ k, q = some k ∧ pool.resource k = pool.resource p := by
      rcases hserved p hp with ⟨a, ha, hr⟩ | hw | ⟨k, hk, -⟩
      · by_cases hai : a = i
        · subst hai
          rw [← hr]
          exact hwake ⟨p, hp, hr.symm⟩
        · exact .inl ⟨a, ha, hai, hr⟩
      · exact .inr (.inl hw)
      · cases hk
    rcases hserve with ⟨a, ha, hai, hr⟩ | ⟨w, hw, hr⟩ | ⟨k, hk, hr⟩
    · exact .inl ⟨a, hnodup.mem_erase_iff.2 ⟨hai, ha⟩, (hres a hai).trans hr⟩
    · exact .inr (.inl ⟨w, hwok.2 (.inr hw), (hres w (hne (.inr hw))).trans hr⟩)
    · exact .inr (.inl ⟨k, hwok.2 (.inl hk), (hres k (hne (.inl (hq k hk)))).trans hr⟩)

theorem release_step {sys : PoolSys} {F P A W : List Nat} (h : Inv sys F P A W) (i : Nat) :
    ∃ sys' F' P' A' W', poolStep sys (.release i) = some (sys', ()) ∧ Inv sys' F' P' A' W' ∧
      Moves sys sys' True F P A W F' P' A' W' ∧
      (Served sys.cb.objPool P A W none →
        (Served sys'.cb.objPool P' A' W' none ↔ PoolCond sys (.release i))) := by
  rw [poolStep]
  by_cases hi : i ∈ sys.held
  · simp only [hi, if_true]
    have hiA := h.mem_held.1 hi
    have hcount := List.count_pos_iff.2 hiA
    have honce := h.once i
    have hiP : i ∉ P := not_mem_of_count (by omega)
    have hiW : i ∉ W := not_mem_of_count (by omega)
    obtain ⟨o, ho⟩ := sys.cb.objPool.exists_obj (h.active.lt i hiA)
    have hheld : ∀ k, (sys.held.erase i).count k = (A.erase i).count k := by
      intro k
      rw [List.count_erase, List.count_erase, h.held k]
    have hwait : ∀ {cb' : SlDriverCb},
        (∀ j, j ≠ i → cb'.objPool.resource j = sys.cb.objPool.resource j) →
        ∀ w ∈ sys.waiting, cb'.objPool.resource w.objIdx = some w.resource := by
      intro cb' hres w hw
      have := h.mem_waiting hw
      rw [hres _ (by rintro heq; rw [heq] at this; omega)]
      exact h.resource w hw
    have hstay : ∀ j ∈ sys.held.erase i, j ≠ i := by
      rintro j hj rfl
      have := List.count_pos_iff.2 hj
      rw [hheld, List.count_erase_self] at this
      omega
    have hcond : PoolCond sys (.release i) ↔ ReleaseWakes sys i := by
      simp only [PoolCond, hi, true_imp_iff]
    rw [hcond, h.releaseWakes_iff ho]
    cases hq : wakened sys.cb P o with
    | none =>
      obtain ⟨cb', hrel, hlists, hres, r, hr, hbits⟩ := releaseObj_eq h.toLists hiA
      refine ⟨{ sys with cb := cb', held := sys.held.erase i }, i :: F, P, A.erase i, W, ?_, ?_,
        ⟨fun k => ?_, fun j _ hj => hres j (hstay j hj), .inr (.inr ⟨i, r, hi, Eq.refl _, hr, hbits⟩)⟩, ?_⟩
      · simp only [slDrvReleasePoolObj, ho, releasePending_none h.toLists hq, hrel]
      · exact ⟨hlists, hheld, h.waiting, hwait hres⟩
      · have := count_move hiA F k; omega
      · intro hs
        exact release_served (q := none) hs h.nodup.2.2.1 hiP hiW nofun hres h.nodup.2.1
    | some q =>
      have hqP : q ∈ P := List.mem_of_find?_eq_some hq
      obtain ⟨cb₁, hpend, hlists₁, hres₁, hbits₁, -⟩ := releasePending_some h.toLists hq
      obtain ⟨cb', hrel, hlists, hres', r, hr, hbits⟩ := releaseObj_eq hlists₁ hiA
      have hres : ∀ j, j ≠ i → cb'.objPool.resource j = sys.cb.objPool.resource j :=
        fun j hj => (hres' j hj).trans (hres₁ j)
      refine ⟨{ sys with cb := cb', held := sys.held.erase i }, i :: F, P.erase q, A.erase i, q :: W,
        ?_, ?_, ⟨fun k => ?_, fun j _ hj => hres j (hstay j hj),
          .inr (.inr ⟨i, r, hi, Eq.refl _, (hres₁ i).symm.trans hr, hbits₁ ▸ hbits⟩)⟩, ?_⟩
      · simp only [slDrvReleasePoolObj, ho, hpend, hrel]
      · refine ⟨hlists, hheld, fun k => ?_, hwait hres⟩
        have := count_move hqP W k
        rw [show (sys.waiting.map Waiter.objIdx).count k = _ from h.waiting k]
        omega
      · have := count_move hiA F k
        have := count_move hqP W k
        omega
      · intro hs
        exact release_served (q := some q) hs h.nodup.2.2.1 hiP hiW
          (fun k hk => (Option.some.inj hk) ▸ hqP) hres h.nodup.2.1
  · simp only [hi, if_false]
    refine ⟨sys, F, P, A, W, rfl, h, .rfl, ?_⟩
    intro hs
    simp only [PoolCond, hi, false_imp_iff, iff_true]
    exact hs

theorem pool_step {sys : PoolSys} {F P A W : List Nat} (h : Inv sys F P A W) (op : PoolOp) :
    ∃ sys' F' P' A' W', poolStep sys op = some (sys', ()) ∧ Inv sys' F' P' A' W' ∧
      Moves sys sys' (op.socketOk sys) F P A W F' P' A' W' ∧
      (NoLostWakeup sys → (NoLostWakeup sys' ↔ PoolCond sys op)) := by
  cases op with
  | call a s =>
    obtain ⟨sys', F', P', A', W', he, hinv, hmoves, hk⟩ := call_step h a s
    exact ⟨sys', F', P', A', W', he, hinv, hmoves,
      fun hs => iff_of_true (hinv.served_iff.2 (hk (h.served_iff.1 hs))) trivial⟩
  | resume i =>
    obtain ⟨sys', F', P', A', W', he, hinv, hmoves, hk⟩ := resume_step h i
    exact ⟨sys', F', P', A', W', he, hinv, hmoves,
      fun hs => iff_of_true (hinv.served_iff.2 (hk (h.served_iff.1 hs))) trivial⟩
  | release i =>
    obtain ⟨sys', F', P', A', W', he, hinv, hmoves, hk⟩ := release_step h i
    exact ⟨sys', F', P', A', W', he, hinv, hmoves,
      fun hs => hinv.served_iff.trans (hk (h.served_iff.1 hs))⟩

/-! ## Runs -/

theorem pool_run {ops : List PoolOp} (h : Meets poolStep PoolCond poolInit ops) :
    ∃ sys us, runs poolStep poolInit ops = some (sys, us) ∧
      (∃ F P A W, Inv sys F P A W) ∧ NoLostWakeup sys := by
  refine runs_invariant (I := fun sys => (∃ F P A W, Inv sys F P A W) ∧ NoLostWakeup sys) ?_
    ⟨⟨_, _, _, _, inv_init⟩, inv_init.noLostWakeup_iff.2 nofun⟩ h
  rintro sys op ⟨⟨F, P, A, W, hinv⟩, hs⟩ hc
  obtain ⟨sys', F', P', A', W', he, hinv', -, hiff⟩ := pool_step hinv op
  exact ⟨sys', (), he, ⟨F', P', A', W', hinv'⟩, (hiff hs).2 hc⟩

def PoolReachable (cb : SlDriverCb) : Prop :=
  ∃ ops sys us, runs poolStep poolInit ops = some (sys, us) ∧ sys.cb = cb

theorem PoolReachable.lists {cb : SlDriverCb} (h : PoolReachable cb) :
    ∃ F P A W, Lists cb F P A W := by
  obtain ⟨ops, sys, us, hr, rfl⟩ := h
  have hinv : ∃ F P A W, Inv sys F P A W := by
    refine runs_preserves (I := fun sys => ∃ F P A W, Inv sys F P A W) ?_
      ⟨_, _, _, _, inv_init⟩ hr
    rintro sys op sys' o ⟨F, P, A, W, hinv⟩ hs
    obtain ⟨sys'', F', P', A', W', he, hinv', -, -⟩ := pool_step hinv op
    obtain ⟨rfl, -⟩ := Prod.mk.inj (Option.some.inj (he.symm.trans hs))
    exact ⟨F', P', A', W', hinv'⟩
  obtain ⟨F, P, A, W, hinv⟩ := hinv
  exact ⟨F, P, A, W, hinv.toLists⟩

/-- As long as every release meets its condition no wake-up is lost, and the first one that does
not loses one. -/
theorem pool_no_lost_wakeup (ops : List PoolOp) (h : Meets poolStep PoolCond poolInit ops) :
    ∃ sys us, runs poolStep poolInit ops = some (sys, us) ∧ NoLostWakeup sys ∧
      ∀ op, ∃ sys', poolStep sys op = some (sys', ()) ∧ (NoLostWakeup sys' ↔ PoolCond sys op) := by
  obtain ⟨sys, us, hr, ⟨F, P, A, W, hinv⟩, hs⟩ := pool_run h
  refine ⟨sys, us, hr, hs, fun op => ?_⟩
  obtain ⟨sys', _, _, _, _, he, -, -, hiff⟩ := pool_step hinv op
  exact ⟨sys', he, hiff hs⟩

/-- Two receives on one socket: the second one gets the object when the first is released. -/
theorem pool_no_lost_wakeup_recv :
    ∃ sys us, runs poolStep poolInit [.call .recv 0, .call .recv 0, .release 0, .resume 1] =
      some (sys, us) ∧ NoLostWakeup sys ∧
      ∀ op, ∃ sys', poolStep sys op = some (sys', ()) ∧ (NoLostWakeup sys' ↔ PoolCond sys op) :=
  pool_no_lost_wakeup _ (by decide)

/-- A connect waits for the socket that a receive holds; the release of the receive wakes nobody,
and nobody is left who could. -/
theorem release_leaves_connect_pending :
    ∃ sys us, runs poolStep poolInit [.call .recv 0, .call .connect 0, .release 0] =
      some (sys, us) ∧ sys.cb.pendingList = [1] ∧ sys.cb.activeList = [] ∧ sys.woken = [] ∧
      ¬ NoLostWakeup sys := by
  refine ⟨_, _, rfl, ?_⟩
  decide

end SimpleLink.Driver
