import SimpleLink.Driver.PoolObj

/-!
# The lists of the pool

`Lists cb F P A W` says that the free, pending and active lists of the control
block are `F`, `P` and `A`, that the objects `W` are in none of them (their
threads have been woken and have not run yet), and that the fields of the
objects and the bitmap fit the list each object is in. The operations of the pool
are proved to keep it, moving one object each.
-/

namespace SimpleLink.Driver

open Lib

/-! ## Objects -/

/-- The bit an object sets while it is active: its socket's or its action's. -/
def SlPoolObj.resource (o : SlPoolObj) : Nat :=
  if slMaxSockets > o.additionalData &&& bsdSocketIdMask then
    o.additionalData &&& bsdSocketIdMask
  else o.actionID

def ObjPool.resource (pool : ObjPool) (i : Nat) : Option Nat :=
  (pool.obj i).map SlPoolObj.resource

def SlPoolObj.data (o : SlPoolObj) : Bool × Nat × Nat := (o.syncObj, o.actionID, o.additionalData)

def SameData (p q : ObjPool) : Prop :=
  ∀ i, (q.obj i).map SlPoolObj.data = (p.obj i).map SlPoolObj.data

theorem SameData.obj {p q : ObjPool} (h : SameData p q) {i : Nat} {o : SlPoolObj}
    (ho : p.obj i = some o) : ∃ o', q.obj i = some o' ∧ o'.data = o.data := by
  have := h i
  rwa [ho, Option.map_some, Option.map_eq_some_iff] at this

theorem resource_of_data {o o' : SlPoolObj} (h : o'.data = o.data) :
    o'.resource = o.resource := by
  simp only [SlPoolObj.data, Prod.mk.injEq] at h
  simp only [SlPoolObj.resource, h]

theorem SameData.resource {p q : ObjPool} (h : SameData p q) (i : Nat) :
    q.resource i = p.resource i := by
  cases hp : p.obj i with
  | none =>
    have := h i
    rw [hp, Option.map_none, Option.map_eq_none_iff] at this
    rw [ObjPool.resource, ObjPool.resource, this, hp]
  | some o =>
    obtain ⟨o', ho', hd⟩ := h.obj hp
    simp only [ObjPool.resource, ho', hp, Option.map_some, resource_of_data hd]

theorem ObjPool.exists_obj (pool : ObjPool) {i : Nat} (hi : i < maxConcurrentActions) :
    ∃ o, pool.obj i = some o :=
  ⟨_, Vector.getElem?_eq_getElem hi⟩

theorem ObjPool.update_eq (pool : ObjPool) {i : Nat} (f : SlPoolObj → SlPoolObj)
    (hi : i < maxConcurrentActions) :
    ∃ pool', pool.update i f = some pool' ∧
      pool'.obj i = (pool.obj i).map f ∧ ∀ j, j ≠ i → pool'.obj j = pool.obj j := by
  refine ⟨_, dif_pos hi, ?_, fun j hj => ?_⟩
  · rw [obj, obj, Vector.getElem?_set_self hi, Vector.getElem?_eq_getElem hi]
    rfl
  · exact Vector.getElem?_set_ne hi (Ne.symm hj)

theorem ObjPool.update_next (pool : ObjPool) {i : Nat} (n : Nat) (hi : i < maxConcurrentActions) :
    ∃ pool', pool.update i (fun obj => { obj with nextIndex := n }) = some pool' ∧
      SameData pool pool' ∧ (pool'.obj i).map SlPoolObj.nextIndex = some n ∧
      ∀ j, j ≠ i → pool'.obj j = pool.obj j := by
  obtain ⟨pool', hu, hsame, hother⟩ := pool.update_eq (fun obj => { obj with nextIndex := n }) hi
  obtain ⟨o, ho⟩ := pool.exists_obj hi
  rw [ho, Option.map_some] at hsame
  refine ⟨pool', hu, fun j => ?_, by rw [hsame]; rfl, hother⟩
  by_cases hj : j = i
  · subst hj
    rw [hsame, ho]
    rfl
  · rw [hother j hj]

/-! ## `_SlRemoveFromList` -/

abbrev PoolChain (pool : ObjPool) : Nat → List Nat → Prop :=
  Chain pool.obj SlPoolObj.nextIndex maxConcurrentActions

theorem slRemoveFromList_eq {pool : ObjPool} {head k : Nat} {l : List Nat}
    (h : PoolChain pool head l) (hn : l.Nodup) (hk : k ∈ l) :
    ∃ pool' head', slRemoveFromList pool head k = some (pool', head') ∧
      PoolChain pool' head' (l.erase k) ∧ SameData pool pool' ∧
      ∀ j, j ∉ l → pool'.obj j = pool.obj j := by
  have hlen := length_le_of_nodup hn h.lt
  have hk10 := h.lt k hk
  obtain ⟨item, hitem⟩ := pool.exists_obj hk10
  cases hl : h with
  | nil => cases hk
  | @cons _ x l' hx hi hrest =>
    rw [slRemoveFromList, hx]
    by_cases hlast : maxConcurrentActions = x.nextIndex
    · -- the only element: the head is reset whatever the item
      have hnil : l' = [] := by
        rcases hrest.head with ⟨hnil, -⟩ | ⟨_, _, -, -, hlt, -⟩
        · exact hnil
        · omega
      subst hnil
      obtain rfl := List.mem_singleton.1 hk
      refine ⟨pool, maxConcurrentActions, by simp only [if_pos hlast], ?_, fun _ => rfl, fun _ _ => rfl⟩
      rw [List.erase_cons_head]
      exact .nil
    · simp only [if_neg hlast]
      by_cases hhead : head = k
      · subst hhead
        refine ⟨pool, x.nextIndex, by simp only [if_true, hx], ?_, fun _ => rfl, fun _ _ => rfl⟩
        rw [List.erase_cons_head]
        exact hrest
      · obtain ⟨j, y, hfind, hy, hjl, hjk, hrec⟩ := h.unlink hn hk hhead hitem
        obtain ⟨pool', hu, hsame, hnext, hother⟩ :=
          pool.update_next item.nextIndex (h.lt j hjl)
        refine ⟨pool', head, ?_, ?_, hsame, fun m hm => hother m fun heq => hm (heq ▸ hjl)⟩
        · simp only [if_neg hhead, h.search _ (Nat.lt_succ_of_le hlen), hfind, hitem, hu]
        · exact hrec pool'.obj hnext fun m _ hmj => by rw [hother m hmj]

/-! ## The invariant -/

structure Lists (cb : SlDriverCb) (F P A W : List Nat) : Prop where
  free : PoolChain cb.objPool cb.freePoolIdx F
  pending : PoolChain cb.objPool cb.pendingPoolIdx P
  active : PoolChain cb.objPool cb.activePoolIdx A
  woken : ∀ i ∈ W, i < maxConcurrentActions
  once : ∀ i, F.count i + P.count i + A.count i + W.count i ≤ 1
  data : ∀ i o, cb.objPool.obj i = some o → o.additionalData ≤ slMaxSockets ∧
    (o.syncObj = true ↔ i ∈ W) ∧ (i ∈ F → o.additionalData = slMaxSockets)
  bits : ∀ r, bit cb.activeActionsBitmap r = true → ∃ i ∈ A, cb.objPool.resource i = some r

theorem Lists.nodup {cb : SlDriverCb} {F P A W : List Nat} (h : Lists cb F P A W) :
    F.Nodup ∧ P.Nodup ∧ A.Nodup ∧ W.Nodup := by
  simp only [List.nodup_iff_count_le_one]
  refine ⟨fun i => ?_, fun i => ?_, fun i => ?_, fun i => ?_⟩ <;> have := h.once i <;> omega

theorem and_mask {n : Nat} (h : n ≤ slMaxSockets) : n &&& bsdSocketIdMask = n := by
  rw [show bsdSocketIdMask = 2 ^ 4 - 1 from rfl, Nat.and_two_pow_sub_one_eq_mod]
  simp only [slMaxSockets] at h
  omega

theorem count_move {l : List Nat} {x : Nat} (hx : x ∈ l) (m : List Nat) (k : Nat) :
    (x :: m).count k + (l.erase x).count k = m.count k + l.count k := by
  have hperm := (List.perm_cons_erase hx).count_eq k
  rw [List.count_cons] at hperm ⊢
  omega

theorem PoolChain.frame {pool pool' : ObjPool} {k i : Nat} {l : List Nat}
    (h : PoolChain pool i l) (hk : k ∉ l) (ho : ∀ j, j ≠ k → pool'.obj j = pool.obj j) :
    PoolChain pool' i l :=
  h.congr fun j hj => by rw [ho j fun heq => hk (heq ▸ hj)]

theorem PoolChain.push {pool pool' : ObjPool} {k head : Nat} {l : List Nat}
    (h : PoolChain pool head l) (hk : k ∉ l) (hk10 : k < maxConcurrentActions)
    (ho : ∀ j, j ≠ k → pool'.obj j = pool.obj j)
    (hnext : (pool'.obj k).map SlPoolObj.nextIndex = some head) : PoolChain pool' k (k :: l) := by
  obtain ⟨x, hx, hxn⟩ := Option.map_eq_some_iff.1 hnext
  refine .cons hx hk10 ?_
  rw [hxn]
  exact h.frame hk ho

theorem SameData.data {p q : ObjPool} (h : SameData p q) {W F : List Nat}
    (hp : ∀ i o, p.obj i = some o → o.additionalData ≤ slMaxSockets ∧
      (o.syncObj = true ↔ i ∈ W) ∧ (i ∈ F → o.additionalData = slMaxSockets)) :
    ∀ i o, q.obj i = some o → o.additionalData ≤ slMaxSockets ∧
      (o.syncObj = true ↔ i ∈ W) ∧ (i ∈ F → o.additionalData = slMaxSockets) := by
  intro i o ho
  have hi := h i
  rw [ho, Option.map_some, eq_comm, Option.map_eq_some_iff] at hi
  obtain ⟨o', ho', hd⟩ := hi
  simp only [SlPoolObj.data, Prod.mk.injEq] at hd
  rw [← hd.1, ← hd.2.2]
  exact hp i o' ho'

/-! ## Waiting -/

/-- The object `c` is on none of the lists, and stands for action `a` on socket `s`. -/
structure Loose (cb : SlDriverCb) (F P A W : List Nat) (c a s : Nat) : Prop
    extends Lists cb F P A W where
  lt : c < maxConcurrentActions
  fresh : F.count c + P.count c + A.count c + W.count c = 0
  res : cb.objPool.resource c = some (if slMaxSockets > s then s else a)

/-- The bit of a resource is set; it was not set before if the arguments were valid. -/
structure Takes (cb cb' : SlDriverCb) (r : Nat) (valid : Prop) : Prop where
  bits : cb'.activeActionsBitmap = cb.activeActionsBitmap ||| (1#32 <<< r)
  idle : valid → bit cb.activeActionsBitmap r = false

theorem not_mem_of_count {c : Nat} {l : List Nat} (h : l.count c = 0) : c ∉ l :=
  List.count_eq_zero.1 h

theorem slDrvWaitForPoolObjLoop_eq {cb : SlDriverCb} {F P A W : List Nat} {c a s : Nat}
    (h : Loose cb F P A W c a s) :
    ∃ cb', SameData cb.objPool cb'.objPool ∧
      ((slDrvWaitForPoolObjLoop cb c a s = some (cb', .blocked c) ∧
          (∃ i ∈ A, cb.objPool.resource i = cb.objPool.resource c) ∧
          cb'.activeActionsBitmap = cb.activeActionsBitmap ∧ Lists cb' F (c :: P) A W) ∨
        (slDrvWaitForPoolObjLoop cb c a s = some (cb', .ret c) ∧
          Takes cb cb' (if slMaxSockets > s then s else a) (s ≤ slMaxSockets) ∧
          Lists cb' F P (c :: A) W)) := by
  have hfresh := h.fresh
  have hF := not_mem_of_count (show F.count c = 0 by omega)
  have hP := not_mem_of_count (show P.count c = 0 by omega)
  have hA := not_mem_of_count (show A.count c = 0 by omega)
  rw [slDrvWaitForPoolObjLoop]
  split
  next hbusy =>
    obtain ⟨pool, hu, hsame, hnext, hother⟩ := cb.objPool.update_next cb.pendingPoolIdx h.lt
    refine ⟨{ cb with objPool := pool, pendingPoolIdx := c }, hsame, .inl ⟨by simp only [hu], ?_, rfl, ?_⟩⟩
    · obtain ⟨i, hi, hr⟩ := h.bits (if slMaxSockets > s then s else a) (by
        rcases hbusy with ⟨hs, hb⟩ | ⟨hb, hs⟩
        · rw [if_pos hs]; exact hb
        · rw [if_neg (by omega)]; exact hb)
      exact ⟨i, hi, hr.trans h.res.symm⟩
    · exact {
        free := h.free.frame hF hother
        pending := h.pending.push hP h.lt hother hnext
        active := h.active.frame hA hother
        woken := h.woken
        once := fun i => by
          have := h.once i
          by_cases hi : c = i
          · subst hi; simp only [List.count_cons_self]; omega
          · simp only [List.count_cons_of_ne hi]; exact this
        data := hsame.data h.data
        bits := fun r hr => by
          obtain ⟨i, hi, hres⟩ := h.bits r hr
          exact ⟨i, hi, (hsame.resource i).trans hres⟩ }
  next hbusy =>
    obtain ⟨pool, hu, hsame, hnext, hother⟩ := cb.objPool.update_next cb.activePoolIdx h.lt
    refine ⟨{ cb with
      objPool := pool
      activePoolIdx := c
      activeActionsBitmap := cb.activeActionsBitmap |||
        (1#32 <<< if slMaxSockets > s then s else a) }, hsame, .inr ⟨by simp only [hu], ⟨rfl, ?_⟩, ?_⟩⟩
    · intro hs
      by_contra hb
      refine hbusy ?_
      by_cases h8 : slMaxSockets > s
      · exact .inl ⟨h8, by simpa [h8] using hb⟩
      · exact .inr ⟨by simpa [h8] using hb, by omega⟩
    exact {
      free := h.free.frame hF hother
      pending := h.pending.frame hP hother
      active := h.active.push hA h.lt hother hnext
      woken := h.woken
      once := fun i => by
        have := h.once i
        by_cases hi : c = i
        · subst hi; simp only [List.count_cons_self]; omega
        · simp only [List.count_cons_of_ne hi]; exact this
      data := hsame.data h.data
      bits := fun r hr => by
        simp only [bit_set, Bool.or_eq_true, decide_eq_true_eq] at hr
        rcases hr with hr | ⟨rfl, -⟩
        · obtain ⟨i, hi, hres⟩ := h.bits r hr
          exact ⟨i, List.mem_cons_of_mem _ hi, (hsame.resource i).trans hres⟩
        · exact ⟨c, List.mem_cons_self .., (hsame.resource c).trans h.res⟩ }

theorem slDrvWaitForPoolObj_eq {cb : SlDriverCb} {F P A W : List Nat} (h : Lists cb F P A W)
    (a s : Nat) :
    (F = [] ∧ slDrvWaitForPoolObj cb a s = some (cb, .ret maxConcurrentActions)) ∨
    ∃ c F' cb', F = c :: F' ∧ Loose cb' F' P A W c a s ∧
      (∀ j, j ≠ c → cb'.objPool.resource j = cb.objPool.resource j) ∧
      cb'.activeActionsBitmap = cb.activeActionsBitmap ∧
      slDrvWaitForPoolObj cb a s = slDrvWaitForPoolObjLoop cb' c a s := by
  rw [slDrvWaitForPoolObj]
  rcases h.free.head with ⟨rfl, hstop⟩ | ⟨x, F', rfl, hx, hc, hrest⟩
  · exact .inl ⟨rfl, by simp [hstop]⟩
  · right
    obtain ⟨pool, hu, hself, hother⟩ := cb.objPool.update_eq (fun obj => { obj with
      actionID := a
      additionalData := if slMaxSockets > s then s else obj.additionalData }) hc
    rw [hx, Option.map_some] at hself
    have hxd := h.data _ _ hx
    have hcF := h.once cb.freePoolIdx
    simp only [List.count_cons_self] at hcF
    have hcW : cb.freePoolIdx ∉ W := not_mem_of_count (by omega)
    have hx8 : x.additionalData = slMaxSockets := hxd.2.2 (List.mem_cons_self ..)
    have hnext : (if maxConcurrentActions > x.nextIndex then x.nextIndex
        else maxConcurrentActions) = x.nextIndex := by
      split
      · rfl
      next hge =>
        rcases hrest.head with ⟨-, hstop⟩ | ⟨_, _, -, -, hlt, -⟩
        · exact hstop.symm
        · omega
    refine ⟨cb.freePoolIdx, F', { cb with objPool := pool, freePoolIdx := x.nextIndex }, rfl, ?_, ?_, rfl, ?_⟩
    · refine ⟨⟨?_, ?_, ?_, h.woken, fun i => ?_, ?_, ?_⟩, hc, by omega, ?_⟩
      · exact PoolChain.frame hrest (not_mem_of_count (by omega)) hother
      · exact h.pending.frame (not_mem_of_count (by omega)) hother
      · exact h.active.frame (not_mem_of_count (by omega)) hother
      · have := h.once i
        rw [List.count_cons] at this
        omega
      · intro i o ho
        by_cases hi : i = cb.freePoolIdx
        · subst hi
          rw [hself, Option.some.injEq] at ho
          subst ho
          refine ⟨?_, hxd.2.1, fun hmem => ?_⟩
          · show (if slMaxSockets > s then s else x.additionalData) ≤ slMaxSockets
            split <;> omega
          · exact absurd hmem (not_mem_of_count (by omega))
        · have := h.data i o (hother i hi ▸ ho)
          exact ⟨this.1, this.2.1, fun hmem => this.2.2 (List.mem_cons_of_mem _ hmem)⟩
      · intro r hr
        obtain ⟨i, hi, hres⟩ := h.bits r hr
        refine ⟨i, hi, ?_⟩
        have hne : i ≠ cb.freePoolIdx := by
          rintro rfl
          exact not_mem_of_count (show A.count _ = 0 by omega) hi
        rw [ObjPool.resource, hother i hne]
        exact hres
      · rw [ObjPool.resource, hself, Option.map_some]
        congr 1
        simp only [SlPoolObj.resource]
        split
        next hs => rw [and_mask (by omega), if_pos hs]
        next hs => rw [hx8, and_mask (Nat.le_refl _), if_neg (Nat.lt_irrefl _)]
    · intro j hj
      rw [ObjPool.resource, ObjPool.resource, hother j hj]
    · simp only [gt_iff_lt, hc, if_true, hx]
      rw [hu]
      simp only [gt_iff_lt] at hnext
      simp only [hnext]

theorem slDrvWaitForPoolObjResume_eq {cb : SlDriverCb} {F P A W : List Nat} {c a s : Nat}
    (h : Lists cb F P A W) (hc : c ∈ W)
    (hres : cb.objPool.resource c = some (if slMaxSockets > s then s else a)) :
    ∃ cb', Loose cb' F P A (W.erase c) c a s ∧
      (∀ j, cb'.objPool.resource j = cb.objPool.resource j) ∧
      cb'.activeActionsBitmap = cb.activeActionsBitmap ∧
      slDrvWaitForPoolObjResume cb c a s = slDrvWaitForPoolObjLoop cb' c a s := by
  have hc10 := h.woken c hc
  have hcount := h.once c
  have hcW := List.count_pos_iff.2 hc
  obtain ⟨pool, hu, hself, hother⟩ :=
    cb.objPool.update_eq (fun obj => { obj with syncObj := false }) hc10
  have hpres : ∀ j, pool.resource j = cb.objPool.resource j := by
    intro j
    by_cases hj : j = c
    · subst hj
      rw [ObjPool.resource, ObjPool.resource, hself, Option.map_map]
      rfl
    · rw [ObjPool.resource, ObjPool.resource, hother j hj]
  refine ⟨{ cb with objPool := pool }, ⟨⟨?_, ?_, ?_, ?_, fun i => ?_, ?_, ?_⟩, hc10, ?_, ?_⟩, hpres, rfl, ?_⟩
  · exact h.free.frame (not_mem_of_count (by omega)) hother
  · exact h.pending.frame (not_mem_of_count (by omega)) hother
  · exact h.active.frame (not_mem_of_count (by omega)) hother
  · exact fun i hi => h.woken i (List.mem_of_mem_erase hi)
  · have := h.once i
    rw [List.count_erase]
    omega
  · intro i o ho
    by_cases hi : i = c
    · subst hi
      rw [hself, Option.map_eq_some_iff] at ho
      obtain ⟨x, hx, rfl⟩ := ho
      have := h.data _ _ hx
      refine ⟨this.1, ?_, this.2.2⟩
      simp only [Bool.false_eq_true, false_iff]
      exact not_mem_of_count (by rw [List.count_erase_self]; omega)
    · have := h.data i o (hother i hi ▸ ho)
      rw [List.mem_erase_of_ne hi]
      exact this
  · intro r hr
    obtain ⟨i, hi, hr'⟩ := h.bits r hr
    exact ⟨i, hi, (hpres i).trans hr'⟩
  · rw [List.count_erase_self]; omega
  · exact (hpres c).trans hres
  · rw [slDrvWaitForPoolObjResume, hu]

/-! ## Releasing -/

/-- The pending object that a release of `o` wakes. -/
def wakened (cb : SlDriverCb) (P : List Nat) (o : SlPoolObj) : Option Nat :=
  P.find? fun k => (cb.objPool.obj k).any (wakes o)

theorem releasePending_none {cb : SlDriverCb} {F P A W : List Nat} (h : Lists cb F P A W)
    {o : SlPoolObj} (hw : wakened cb P o = none) : releasePending cb o = some cb := by
  have hlen := length_le_of_nodup h.nodup.2.1 h.pending.lt
  rw [wakened] at hw
  rw [releasePending, h.pending.search _ (Nat.lt_succ_of_le hlen), hw]

theorem releasePending_some {cb : SlDriverCb} {F P A W : List Nat} (h : Lists cb F P A W)
    {o : SlPoolObj} {q : Nat} (hw : wakened cb P o = some q) :
    ∃ cb', releasePending cb o = some cb' ∧ Lists cb' F (P.erase q) A (q :: W) ∧
      (∀ j, cb'.objPool.resource j = cb.objPool.resource j) ∧
      cb'.activeActionsBitmap = cb.activeActionsBitmap ∧
      ∀ j, j ∉ P → cb'.objPool.obj j = cb.objPool.obj j := by
  have hlen := length_le_of_nodup h.nodup.2.1 h.pending.lt
  have hsearch := h.pending.search (wakes o) (Nat.lt_succ_of_le hlen)
  rw [wakened] at hw
  have hq := List.mem_of_find?_eq_some hw
  have hq10 := h.pending.lt q hq
  have hcount := h.once q
  have hqP := List.count_pos_iff.2 hq
  obtain ⟨pool, head, hrm, hchain, hsame, hother⟩ :=
    slRemoveFromList_eq h.pending h.nodup.2.1 hq
  obtain ⟨pool', hu, hself, hother'⟩ :=
    pool.update_eq (fun obj => { obj with syncObj := true }) hq10
  have hres : ∀ j, pool'.resource j = cb.objPool.resource j := by
    intro j
    rw [← hsame.resource j]
    by_cases hj : j = q
    · subst hj
      rw [ObjPool.resource, ObjPool.resource, hself, Option.map_map]
      rfl
    · rw [ObjPool.resource, ObjPool.resource, hother' j hj]
  have hout : ∀ j, j ∉ P → pool'.obj j = cb.objPool.obj j := by
    intro j hj
    rw [hother' j fun heq => hj (heq ▸ hq), hother j hj]
  have hdisj : ∀ {l : List Nat}, (∀ i, P.count i + l.count i ≤ 1) → ∀ j ∈ l, j ∉ P := by
    intro l hl j hj hjP
    have := hl j
    have := List.count_pos_iff.2 hj
    have := List.count_pos_iff.2 hjP
    omega
  refine ⟨{ cb with objPool := pool', pendingPoolIdx := head }, ?_, ?_, hres, rfl, hout⟩
  · rw [releasePending, hsearch, hw]
    simp only [hrm, hu]
  · have hF := hdisj fun i => (by have := h.once i; omega : P.count i + F.count i ≤ 1)
    have hA := hdisj fun i => (by have := h.once i; omega : P.count i + A.count i ≤ 1)
    refine ⟨?_, ?_, ?_, ?_, fun i => ?_, ?_, ?_⟩
    · exact h.free.congr fun j hj => by rw [hout j (hF j hj)]
    · refine PoolChain.frame hchain ?_ hother'
      exact not_mem_of_count (by rw [List.count_erase_self]; omega)
    · exact h.active.congr fun j hj => by rw [hout j (hA j hj)]
    · exact fun i hi => (List.mem_cons.1 hi).elim (fun heq => heq ▸ hq10) (h.woken i)
    · have := h.once i
      rw [List.count_erase, List.count_cons]
      by_cases hi : q = i
      · subst hi; simp only [beq_self_eq_true, if_true]; omega
      · simp only [beq_iff_eq, hi, if_false]; omega
    · intro i x hx
      have hpool := hsame.data h.data
      by_cases hi : i = q
      · subst hi
        rw [hself, Option.map_eq_some_iff] at hx
        obtain ⟨y, hy, rfl⟩ := hx
        have := hpool _ _ hy
        refine ⟨this.1, ?_, this.2.2⟩
        simp only [true_iff]
        exact List.mem_cons_self ..
      · have := hpool i x (hother' i hi ▸ hx)
        rw [List.mem_cons, or_iff_right hi]
        exact this
    · intro r hr
      obtain ⟨i, hi, hr'⟩ := h.bits r hr
      exact ⟨i, hi, (hres i).trans hr'⟩

/-- The rest of a release: the object goes from the active list to the free list. -/
theorem releaseObj_eq {cb : SlDriverCb} {F P A W : List Nat} (h : Lists cb F P A W) {i : Nat}
    (hi : i ∈ A) :
    ∃ cb', releaseObj cb i = some cb' ∧ Lists cb' (i :: F) P (A.erase i) W ∧
      (∀ j, j ≠ i → cb'.objPool.resource j = cb.objPool.resource j) ∧
      ∃ r, cb.objPool.resource i = some r ∧
        cb'.activeActionsBitmap = cb.activeActionsBitmap &&& ~~~(1#32 <<< r) := by
  have hi10 := h.active.lt i hi
  have hcount := h.once i
  have hiA := List.count_pos_iff.2 hi
  obtain ⟨o, ho⟩ := cb.objPool.exists_obj hi10
  obtain ⟨pool₁, hu₁, hself₁, hother₁⟩ := cb.objPool.update_eq
    (fun obj => { obj with actionID := 0, additionalData := slMaxSockets }) hi10
  have hlink : ∀ j, (pool₁.obj j).map SlPoolObj.nextIndex =
      (cb.objPool.obj j).map SlPoolObj.nextIndex := by
    intro j
    by_cases hj : j = i
    · subst hj
      rw [hself₁, Option.map_map]
      rfl
    · rw [hother₁ j hj]
  obtain ⟨pool₂, head, hrm, hchain, hsame₂, hother₂⟩ :=
    slRemoveFromList_eq (h.active.congr fun j _ => hlink j) h.nodup.2.2.1 hi
  obtain ⟨pool₃, hu₃, hsame₃, hnext₃, hother₃⟩ := pool₂.update_next cb.freePoolIdx hi10
  have hres : ∀ j, j ≠ i → pool₃.resource j = cb.objPool.resource j := by
    intro j hj
    rw [hsame₃.resource, hsame₂.resource, ObjPool.resource, hother₁ j hj]
    rfl
  have hmap : ∀ {l : List Nat}, (∀ k, A.count k + l.count k ≤ 1) → ∀ j ∈ l,
      (pool₃.obj j).map SlPoolObj.nextIndex = (cb.objPool.obj j).map SlPoolObj.nextIndex := by
    intro l hl j hj
    have hjl := List.count_pos_iff.2 hj
    have hjA : j ∉ A := not_mem_of_count (by have := hl j; omega)
    rw [hother₃ j fun heq => hjA (heq ▸ hi), hother₂ j hjA, hlink j]
  refine ⟨{ cb with
    objPool := pool₃
    freePoolIdx := i
    activePoolIdx := head
    activeActionsBitmap := cb.activeActionsBitmap &&& ~~~(1#32 <<< o.resource) },
    by simp only [releaseObj, ho, hu₁, hrm, hu₃]; rfl, ?_, hres, o.resource,
    by rw [ObjPool.resource, ho]; rfl, rfl⟩
  refine ⟨?_, ?_, ?_, h.woken, fun k => ?_, ?_, ?_⟩
  · obtain ⟨x, hx, hxn⟩ := Option.map_eq_some_iff.1 hnext₃
    refine .cons hx hi10 ?_
    rw [hxn]
    exact h.free.congr fun j hj =>
      hmap (fun k => (by have := h.once k; omega : A.count k + F.count k ≤ 1)) j hj
  · exact h.pending.congr fun j hj =>
      hmap (fun k => (by have := h.once k; omega : A.count k + P.count k ≤ 1)) j hj
  · exact PoolChain.frame hchain (not_mem_of_count (by rw [List.count_erase_self]; omega)) hother₃
  · have := h.once k
    rw [List.count_erase, List.count_cons]
    by_cases hk : i = k
    · subst hk; simp only [beq_self_eq_true, if_true]; omega
    · simp only [beq_iff_eq, hk, if_false]; omega
  · refine hsame₃.data (hsame₂.data ?_)
    intro j x hx
    by_cases hj : j = i
    · subst hj
      rw [hself₁, ho, Option.map_some, Option.some.injEq] at hx
      subst hx
      exact ⟨Nat.le_refl _, (h.data _ _ ho).2.1, fun _ => rfl⟩
    · have := h.data j x (hother₁ j hj ▸ hx)
      exact ⟨this.1, this.2.1, fun hm => this.2.2 ((List.mem_cons.1 hm).resolve_left hj)⟩
  · intro r hr
    simp only [bit_clear, Bool.and_eq_true, Bool.not_eq_true', decide_eq_false_iff_not] at hr
    obtain ⟨j, hj, hr'⟩ := h.bits r hr.1
    have hji : j ≠ i := by
      rintro rfl
      rw [ObjPool.resource, ho, Option.map_some, Option.some.injEq] at hr'
      exact hr.2 hr'.symm
    exact ⟨j, (List.mem_erase_of_ne hji).2 hj, (hres j hji).trans hr'⟩

end SimpleLink.Driver
