import SimpleLink.Driver.PoolEvents

/-!
# What a step of the pool does to its objects

`EvtInv` says what the lists are after a step. Here is what the threads see of one: which object
`_SlDrvWaitForPoolObj` gives out, that the signals of the objects in use are left alone, and that an
event is for an object in use.
-/

namespace SimpleLink.Driver.PoolSteps

open Lib

/-! ## Signals in the pool -/

/-- The objects of `q` are signalled as those of `p`, but for the one at `i`. -/
def SameSignals (i : Nat) (p q : ObjPool) : Prop :=
  ∀ j, j ≠ i → (q.obj j).any SlPoolObj.syncObj = (p.obj j).any SlPoolObj.syncObj

/-- No object is at `MAX_CONCURRENT_ACTIONS`. -/
abbrev noObj : Nat := maxConcurrentActions

theorem SameSignals.trans {i : Nat} {p q r : ObjPool} (h : SameSignals i p q)
    (h' : SameSignals i q r) : SameSignals i p r :=
  fun j hj => (h' j hj).trans (h j hj)

theorem SameSignals.all {p q : ObjPool} (h : SameSignals noObj p q) (j : Nat) :
    (q.obj j).any SlPoolObj.syncObj = (p.obj j).any SlPoolObj.syncObj := by
  by_cases hj : j = maxConcurrentActions
  · subst hj
    have hnone : ∀ r : ObjPool, r.obj maxConcurrentActions = none := fun r =>
      Vector.getElem?_eq_none (Nat.le_refl _)
    rw [hnone, hnone]
  · exact h j hj

theorem SameSignals.weaken {p q : ObjPool} (h : SameSignals noObj p q) (i : Nat) :
    SameSignals i p q := fun j _ => h.all j

theorem update_signals {p q : ObjPool} {i : Nat} {f : SlPoolObj → SlPoolObj}
    (h : p.update i f = some q) (hf : ∀ o, (f o).syncObj = o.syncObj) : SameSignals noObj p q := by
  have hi : i < maxConcurrentActions := by
    by_contra hge
    rw [ObjPool.update, dif_neg hge] at h
    cases h
  obtain ⟨q', hq', hself, hother⟩ := p.update_eq f hi
  obtain rfl := Option.some.inj (hq'.symm.trans h)
  intro j _
  by_cases hj : j = i
  · subst hj
    rw [hself]
    cases p.obj j with
    | none => rfl
    | some o => exact hf o
  · rw [hother j hj]

theorem update_other {p q : ObjPool} {i : Nat} {f : SlPoolObj → SlPoolObj}
    (h : p.update i f = some q) : SameSignals i p q := by
  have hi : i < maxConcurrentActions := by
    by_contra hge
    rw [ObjPool.update, dif_neg hge] at h
    cases h
  obtain ⟨q', hq', -, hother⟩ := p.update_eq f hi
  obtain rfl := Option.some.inj (hq'.symm.trans h)
  intro j hj
  rw [hother j hj]

theorem remove_signals {p q : ObjPool} {list item head : Nat}
    (h : slRemoveFromList p list item = some (q, head)) : SameSignals noObj p q := by
  unfold slRemoveFromList at h
  split at h
  · cases h
  · split at h
    · cases h
      exact fun _ _ => rfl
    · split at h
      · split at h
        · cases h
        · cases h
          exact fun _ _ => rfl
      · split at h
        · cases h
        · cases h
          exact fun _ _ => rfl
        · split at h
          · cases h
          · split at h
            · cases h
            · rename_i hu
              cases h
              exact update_signals hu fun _ => rfl

theorem loop_signals {cb cb' : SlDriverCb} {c a s : Nat} {w : Wait}
    (h : slDrvWaitForPoolObjLoop cb c a s = some (cb', w)) :
    SameSignals noObj cb.objPool cb'.objPool := by
  unfold slDrvWaitForPoolObjLoop at h
  split at h
  · split at h
    · cases h
    · rename_i hu
      cases h
      exact update_signals hu fun _ => rfl
  · dsimp only at h
    split at h
    · cases h
    · rename_i hu
      cases h
      exact update_signals hu fun _ => rfl

theorem wait_signals {cb cb' : SlDriverCb} {a s : Nat} {w : Wait}
    (h : slDrvWaitForPoolObj cb a s = some (cb', w)) :
    SameSignals noObj cb.objPool cb'.objPool := by
  unfold slDrvWaitForPoolObj at h
  split at h
  · dsimp only at h
    split at h
    · cases h
    · split at h
      · cases h
      · rename_i hu
        exact (update_signals hu fun _ => rfl).trans (loop_signals h)
  · cases h
    exact fun _ _ => rfl

theorem resume_signals {cb cb' : SlDriverCb} {c a s : Nat} {w : Wait}
    (h : slDrvWaitForPoolObjResume cb c a s = some (cb', w)) :
    SameSignals c cb.objPool cb'.objPool ∧ (cb'.objPool.obj c).any SlPoolObj.syncObj = false := by
  unfold slDrvWaitForPoolObjResume at h
  split at h
  · cases h
  · rename_i pool hu
    have hloop := loop_signals h
    refine ⟨(update_other hu).trans (hloop.weaken c), ?_⟩
    rw [hloop.all c]
    have hc : c < maxConcurrentActions := by
      by_contra hge
      rw [ObjPool.update, dif_neg hge] at hu
      cases hu
    obtain ⟨q', hq', hself, -⟩ := cb.objPool.update_eq (fun obj => { obj with syncObj := false }) hc
    obtain rfl := Option.some.inj (hq'.symm.trans hu)
    show (ObjPool.obj _ c).any _ = false
    rw [hself]
    cases cb.objPool.obj c <;> rfl

theorem releaseObj_signals {cb cb' : SlDriverCb} {i : Nat} (h : releaseObj cb i = some cb') :
    SameSignals noObj cb.objPool cb'.objPool := by
  unfold releaseObj at h
  split at h
  · cases h
  · dsimp only at h
    split at h
    · cases h
    · rename_i hu
      split at h
      · cases h
      · rename_i hr
        split at h
        · cases h
        · rename_i hn
          cases h
          exact ((update_signals hu fun _ => rfl).trans (remove_signals hr)).trans
            (update_signals hn fun _ => rfl)

theorem releasePending_signals {cb cb' : SlDriverCb} {o : SlPoolObj}
    (h : releasePending cb o = some cb') :
    ∃ k, (k = noObj ∨ search cb.objPool.obj SlPoolObj.nextIndex maxConcurrentActions (wakes o)
        (maxConcurrentActions + 1) cb.pendingPoolIdx = some (some k)) ∧
      SameSignals k cb.objPool cb'.objPool := by
  unfold releasePending at h
  split at h
  · cases h
  · cases h
    exact ⟨noObj, .inl rfl, fun _ _ => rfl⟩
  · rename_i k hs
    split at h
    · cases h
    · rename_i hr
      split at h
      · cases h
      · rename_i hu
        cases h
        exact ⟨k, .inr hs, ((remove_signals hr).weaken k).trans (update_other hu)⟩

/-! ## Steps of the pool -/

def Sound (sys : EvtSys) : Prop := ∃ q F P A W, EvtInv sys q F P A W

theorem Sound.poolStep {sys : EvtSys} (h : Sound sys) {op : PoolOp} (hc : EvtCond sys (.pool op)) :
    ∃ p, Driver.poolStep sys.toPoolSys op = some (p, ()) ∧ Sound { sys with toPoolSys := p } := by
  obtain ⟨q, F, P, A, W, hinv⟩ := h
  obtain ⟨sys', q', F', P', A', W', hs, hinv'⟩ := evt_step (fun _ => 0) hinv hc
  unfold evtStep at hs
  dsimp only at hs
  split at hs
  · cases hs
  · rename_i p _ hp
    cases hs
    exact ⟨p, hp, q', F', P', A', W', hinv'⟩

theorem Sound.free_not_held {sys : EvtSys} (h : Sound sys) : sys.cb.freePoolIdx ∉ sys.held := by
  obtain ⟨q, F, P, A, W, hinv⟩ := h
  exact hinv.freePoolIdx_not_held

theorem Sound.waiting_not_held {sys : EvtSys} (h : Sound sys) {i : Nat}
    (hi : i ∈ sys.waiting.map Waiter.objIdx) : i ∉ sys.held := by
  obtain ⟨q, F, P, A, W, hinv⟩ := h
  intro hheld
  have hcount : (sys.waiting.map Waiter.objIdx).count i = P.count i + W.count i := hinv.waiting i
  have hpos := List.count_pos_iff.2 hi
  have hA := List.count_pos_iff.2 (hinv.mem_held'.1 hheld)
  have honce := hinv.once i
  omega

theorem freePoolIdx_mem {sys : EvtSys} {q : ObjPool} {F P A W : List Nat}
    (h : EvtInv sys q F P A W) (hlt : sys.cb.freePoolIdx < maxConcurrentActions) :
    sys.cb.freePoolIdx ∈ F := by
  have hfree : PoolChain q sys.cb.freePoolIdx F := h.free
  rcases hfree.head with ⟨-, hstop⟩ | ⟨x, F', hF, -⟩
  · omega
  · rw [hF]
    exact List.mem_cons_self

theorem Sound.free_not_waiting {sys : EvtSys} (h : Sound sys)
    (hlt : sys.cb.freePoolIdx < maxConcurrentActions) :
    sys.cb.freePoolIdx ∉ sys.waiting.map Waiter.objIdx := by
  obtain ⟨q, F, P, A, W, hinv⟩ := h
  intro hi
  have hcount : (sys.waiting.map Waiter.objIdx).count sys.cb.freePoolIdx = _ := hinv.waiting _
  have hpos := List.count_pos_iff.2 hi
  have hF := List.count_pos_iff.2 (freePoolIdx_mem hinv hlt)
  have honce := hinv.once sys.cb.freePoolIdx
  omega

theorem Sound.free_quiet {sys : EvtSys} (h : Sound sys)
    (hlt : sys.cb.freePoolIdx < maxConcurrentActions) :
    sys.signalled sys.cb.freePoolIdx = false := by
  obtain ⟨q, F, P, A, W, hinv⟩ := h
  refine Bool.eq_false_iff.2 fun hs => ?_
  have hW := List.count_pos_iff.2 ((hinv.signalled_iff hlt hinv.freePoolIdx_not_held).1 hs)
  have hF := List.count_pos_iff.2 (freePoolIdx_mem hinv hlt)
  have honce := hinv.once sys.cb.freePoolIdx
  omega

theorem loop_index {cb cb' : SlDriverCb} {c a s : Nat} {w : Wait}
    (h : slDrvWaitForPoolObjLoop cb c a s = some (cb', w)) : w = .ret c ∨ w = .blocked c := by
  unfold slDrvWaitForPoolObjLoop at h
  split at h
  · split at h
    · cases h
    · cases h
      exact .inr rfl
  · dsimp only at h
    split at h
    · cases h
    · cases h
      exact .inl rfl

theorem resume_index {cb cb' : SlDriverCb} {c a s : Nat} {w : Wait}
    (h : slDrvWaitForPoolObjResume cb c a s = some (cb', w)) : w = .ret c ∨ w = .blocked c := by
  unfold slDrvWaitForPoolObjResume at h
  split at h
  · cases h
  · exact loop_index h

theorem wait_index {cb cb' : SlDriverCb} {a s : Nat} {w : Wait}
    (h : slDrvWaitForPoolObj cb a s = some (cb', w)) :
    if maxConcurrentActions > cb.freePoolIdx then
      w = .ret cb.freePoolIdx ∨ w = .blocked cb.freePoolIdx
    else w = .ret maxConcurrentActions := by
  unfold slDrvWaitForPoolObj at h
  split at h
  · rename_i hlt
    rw [if_pos hlt]
    dsimp only at h
    split at h
    · cases h
    · split at h
      · cases h
      · exact loop_index h
  · rename_i hge
    rw [if_neg hge]
    cases h
    rfl

/-- `_SlDrvWaitForPoolObj` takes the first free object, or waits with it. -/
theorem Sound.called {sys : EvtSys} {a : SlActionId} {s : Nat} {p : PoolSys}
    (hp : Driver.poolStep sys.toPoolSys (.call a s) = some (p, ())) :
    (∀ j, (p.cb.objPool.obj j).any SlPoolObj.syncObj = sys.signalled j) ∧
      if maxConcurrentActions > sys.cb.freePoolIdx then
        p.held = sys.cb.freePoolIdx :: sys.held ∧ p.waiting = sys.waiting ∨
          p.held = sys.held ∧ p.waiting = ⟨sys.cb.freePoolIdx, a, s⟩ :: sys.waiting
      else p.held = sys.held ∧ p.waiting = sys.waiting := by
  unfold Driver.poolStep at hp
  dsimp only at hp
  split at hp
  · cases hp
  · rename_i cb i hw
    cases hp
    refine ⟨(wait_signals hw).all, ?_⟩
    have hi := wait_index hw
    split at hi
    · rename_i hlt
      rcases hi with hi | hi
      · obtain rfl := Wait.ret.inj hi
        rw [if_pos hlt]
        exact .inl ⟨if_pos hlt, rfl⟩
      · cases hi
    · rename_i hge
      obtain rfl := Wait.ret.inj hi
      rw [if_neg hge]
      exact ⟨by simp, rfl⟩
  · rename_i cb i hw
    cases hp
    refine ⟨(wait_signals hw).all, ?_⟩
    have hi := wait_index hw
    split at hi
    · rename_i hlt
      rcases hi with hi | hi
      · cases hi
      · obtain rfl := Wait.blocked.inj hi
        rw [if_pos hlt]
        exact .inr ⟨rfl, rfl⟩
    · cases hi

theorem Sound.resumed {sys : EvtSys} {i : Nat} {p : PoolSys}
    (hp : Driver.poolStep sys.toPoolSys (.resume i) = some (p, ())) :
    (∀ j, j ≠ i → (p.cb.objPool.obj j).any SlPoolObj.syncObj = sys.signalled j) ∧
      (p.held = sys.held ∧ p.waiting = sys.waiting ∨
        p.held = i :: sys.held ∧ (p.cb.objPool.obj i).any SlPoolObj.syncObj = false ∧
          ∃ w, w.objIdx = i ∧ p.waiting = sys.waiting.erase w) := by
  unfold Driver.poolStep at hp
  dsimp only at hp
  split at hp
  · cases hp
    exact ⟨fun _ _ => rfl, .inl ⟨rfl, rfl⟩⟩
  · rename_i w hfind
    have hwi : w.objIdx = i := by simpa using List.find?_some hfind
    split at hp
    · split at hp
      · cases hp
      · rename_i cb k hw
        cases hp
        obtain ⟨hother, hself⟩ := resume_signals hw
        rcases resume_index hw with hk | hk
        · obtain rfl := Wait.ret.inj hk
          exact ⟨hother, .inr ⟨rfl, hself, w, hwi, rfl⟩⟩
        · cases hk
      · rename_i cb k hw
        cases hp
        obtain ⟨hother, hself⟩ := resume_signals hw
        exact ⟨hother, .inl ⟨rfl, rfl⟩⟩
    · cases hp
      exact ⟨fun _ _ => rfl, .inl ⟨rfl, rfl⟩⟩

/-- An object without a signal is released, and the objects of the others are left alone. -/
theorem Sound.release {sys : EvtSys} (h : Sound sys) {i : Nat} (hi : i ∈ sys.held)
    (hsig : sys.signalled i = false) :
    ∃ cb, slDrvReleasePoolObj sys.cb i = some cb ∧
      Sound { sys with cb := cb, held := sys.held.erase i } ∧
      ∀ j ∈ sys.held, (cb.objPool.obj j).any SlPoolObj.syncObj = sys.signalled j := by
  have hcond : EvtCond sys (.pool (.release i)) := fun _ => hsig
  obtain ⟨p, hp, hsound⟩ := h.poolStep hcond
  unfold Driver.poolStep at hp
  dsimp only at hp
  rw [if_pos hi] at hp
  split at hp
  · cases hp
  · rename_i cb hcb
    cases hp
    refine ⟨cb, hcb, hsound, fun j hj => ?_⟩
    unfold slDrvReleasePoolObj at hcb
    split at hcb
    · cases hcb
    · rename_i o ho
      split at hcb
      · cases hcb
      · rename_i cb₁ hpend
        obtain ⟨k, hk, hsame⟩ := releasePending_signals hpend
        rw [(releaseObj_signals hcb).all j]
        refine hsame j ?_
        rintro rfl
        obtain ⟨q, F, P, A, W, hinv⟩ := h
        rcases hk with rfl | hk
        · exact absurd (hinv.active.lt _ (hinv.mem_held'.1 hj)) (Nat.lt_irrefl _)
        · refine hinv.pending_not_held (t := wakes o) ?_ hj
          rw [hinv.veiled.search (t := wakes o) fun i p => ?_]
          · exact hk
          · simp only [wakes, veil_socket, veil_actionID]

theorem Sound.find {sys : EvtSys} (h : Sound sys) (behind : Nat → Nat) (opcode sd : Nat) :
    ∃ r, slFindAndSetActiveObj behind sys.cb opcode sd = some r := by
  obtain ⟨q, F, P, A, W, hinv⟩ := h
  exact slFindAndSetActiveObj_eq_some (hinv.chain hinv.active) hinv.nodup.2.2.1 behind opcode sd

theorem Sound.update {sys : EvtSys} (h : Sound sys) {i : Nat} (hi : i ∈ sys.held)
    {f : SlPoolObj → SlPoolObj} (hf : ∀ o, (f o).plain = o.plain) :
    ∃ pool, sys.update i f = some ({ sys with cb := { sys.cb with objPool := pool } }, ()) ∧
      Sound { sys with cb := { sys.cb with objPool := pool } } ∧
      SameSignals i sys.cb.objPool pool ∧ pool.obj i = (sys.cb.objPool.obj i).map f := by
  obtain ⟨q, F, P, A, W, hinv⟩ := h
  have hlt : i < maxConcurrentActions := hinv.active.lt i (hinv.mem_held'.1 hi)
  obtain ⟨sys', hs, hinv'⟩ := hinv.hidden hi hf
  obtain ⟨pool, hp, hself, hother⟩ := sys.cb.objPool.update_eq f hlt
  have he : sys.update i f = some ({ sys with cb := { sys.cb with objPool := pool } }, ()) := by
    unfold EvtSys.update
    rw [hp]
  obtain ⟨rfl, -⟩ := Prod.mk.inj (Option.some.inj (hs.symm.trans he))
  exact ⟨pool, he, ⟨q, F, P, A, W, hinv'⟩, update_other hp, hself⟩

theorem Sound.mem_erase {sys : EvtSys} (h : Sound sys) (i j : Nat) :
    j ∈ sys.held.erase i ↔ j ≠ i ∧ j ∈ sys.held := by
  obtain ⟨q, F, P, A, W, hinv⟩ := h
  exact hinv.held_nodup.mem_erase_iff

theorem Sound.congr {sys sys' : EvtSys} (h : Sound sys) (he : sys'.toPoolSys = sys.toPoolSys) :
    Sound sys' := by
  obtain ⟨q, F, P, A, W, hinv⟩ := h
  obtain ⟨p, i⟩ := sys'
  obtain rfl : p = sys.toPoolSys := he
  exact ⟨q, F, P, A, W, { hinv with }⟩

end SimpleLink.Driver.PoolSteps
