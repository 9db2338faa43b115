import SimpleLink.Driver.ApiCalls
import SimpleLink.Driver.PoolSteps

/-!
# Calls conserve the objects of the pool

`ApiInv` ties each call to its object: what is held is what the calls in progress have, each object
is one call's, and it is signalled once the response has been handled. A step of a call, and an
event, is a `move` of one call.
-/

namespace SimpleLink.Driver.ApiCalls

open Lib RxIrq PoolSteps

variable {ι : Type} [DecidableEq ι]

/-! ## The invariant -/

/-- The call waits in `_SlDrvWaitForPoolObj` with the object. -/
def Call.pends (c : Call) (i : Nat) : Bool := c.phase = .pending ∧ c.objIdx = some i

/-- `sl_Start` is in progress. -/
def Call.inStart (c : Call) : Bool := c.api.starts && !c.over

def Api.usable (a : Api) : Prop :=
  a.socket ≤ slMaxSockets ∧ ∀ callback, a ≠ .start false callback

def CallInv (sys : EvtSys) (c : Call) : Prop :=
  match c.phase with
  | .idle => c.released = [] ∧ c.delivered = 0
  | .enter => c.objIdx = none ∧ c.released = [] ∧ c.delivered = 0 ∧ c.api.usable
  | .pending => c.released = [] ∧ c.delivered = 0 ∧ c.api.usable ∧
      ∃ i, c.objIdx = some i ∧ i ∈ sys.waiting.map Waiter.objIdx
  | .taken => c.released = [] ∧ c.delivered = 0 ∧ c.api.usable ∧
      ∃ i, c.objIdx = some i ∧ sys.signalled i = false
  | .starting => c.released = [] ∧ c.delivered = 0 ∧ c.api.starts = true ∧
      ∃ i, c.objIdx = some i ∧ sys.signalled i = false
  | .cmdOp | .respWait => c.released = [] ∧
      ∃ i, c.objIdx = some i ∧ (sys.signalled i = true ↔ c.signals = 1)
  | .release => c.released = [] ∧ c.signals = c.delivered ∧
      ∃ i, c.objIdx = some i ∧ sys.signalled i = false
  | .returned => c.released = c.objIdx.toList ∧ c.signals = c.delivered
  | .halted => c.released = []

def Host.target (s : Host ι) (c : Call) : Prop :=
  match s.event with
  | none => False
  | some (.obj _) => c.holds s.sys.actionIndex = true
  | some .initComplete => c.awaitsInit = true

structure Handed (s : Host ι) (c : Call) : Prop where
  signals : c.signals ≤ c.delivered
  delivered : c.delivered ≤ 1
  eq : c.signals = c.delivered ∨ s.target c

def Host.pointed (s : Host ι) : Prop :=
  match s.event with
  | none => True
  | some (.obj _) => ∃ t, (s.calls t).holds s.sys.actionIndex = true ∧
      (s.calls t).signals < (s.calls t).delivered
  | some .initComplete => ∃ t, (s.calls t).phase = .starting ∨
      (s.calls t).awaitsInit = true ∧ (s.calls t).signals < (s.calls t).delivered

structure ApiInv (s : Host ι) : Prop where
  sound : Sound s.sys
  held : ∀ i, i ∈ s.sys.held ↔ ∃ t, (s.calls t).holds i = true
  alone : ∀ i t u, (s.calls t).holds i = true → (s.calls u).holds i = true → t = u
  pendsAlone : ∀ i t u, (s.calls t).pends i = true → (s.calls u).pends i = true → t = u
  starter : ∀ t u, (s.calls t).inStart = true → (s.calls u).inStart = true → t = u
  call : ∀ t, CallInv s.sys (s.calls t)
  handed : ∀ t, Handed s (s.calls t)
  pointed : s.pointed

section

omit [DecidableEq ι]

theorem CallInv.congr {sys sys' : EvtSys} {c : Call} (h : CallInv sys c)
    (hsig : ∀ i, c.holds i = true → sys'.signalled i = sys.signalled i)
    (hwaiting : ∀ i, c.pends i = true → i ∈ sys.waiting.map Waiter.objIdx →
      i ∈ sys'.waiting.map Waiter.objIdx) : CallInv sys' c := by
  unfold CallInv at h ⊢
  unfold Call.holds at hsig
  unfold Call.pends at hwaiting
  cases hp : c.phase with
  | idle | enter | returned | halted => simp only [hp] at h; exact h
  | pending =>
    simp only [hp] at h hwaiting
    obtain ⟨hr, hd, ha, i, hi, hw⟩ := h
    exact ⟨hr, hd, ha, i, hi, hwaiting i (by simp [hi]) hw⟩
  | taken | starting =>
    simp only [hp] at h hsig
    obtain ⟨hr, hd, ha, i, hi, hs⟩ := h
    exact ⟨hr, hd, ha, i, hi, (hsig i (by simp [hi])).trans hs⟩
  | cmdOp | respWait =>
    simp only [hp] at h hsig
    obtain ⟨hr, i, hi, hs⟩ := h
    refine ⟨hr, i, hi, ?_⟩
    rw [hsig i (by simp [hi])]
    exact hs
  | release =>
    simp only [hp] at h hsig
    obtain ⟨hr, hd, i, hi, hs⟩ := h
    exact ⟨hr, hd, i, hi, (hsig i (by simp [hi])).trans hs⟩

theorem CallInv.pends_waiting {sys : EvtSys} {c : Call} (h : CallInv sys c) {i : Nat}
    (hi : c.pends i = true) : i ∈ sys.waiting.map Waiter.objIdx := by
  unfold Call.pends at hi
  obtain ⟨hp, hi⟩ := of_decide_eq_true hi
  unfold CallInv at h
  simp only [hp] at h
  obtain ⟨-, -, -, j, hj, hw⟩ := h
  obtain rfl := Option.some.inj (hi.symm.trans hj)
  exact hw

end

/-- What holds of one call at most still does when another call takes it over, or nobody had it. -/
theorem unique_update {α : Type} {f : ι → α} {t : ι} {c : α} {P : α → Bool}
    (h : ∀ u v, P (f u) = true → P (f v) = true → u = v)
    (hc : P c = true → P (f t) = true ∨ ∀ u, P (f u) = false) (u v : ι)
    (hu : P (Function.update f t c u) = true) (hv : P (Function.update f t c v) = true) : u = v := by
  have key : ∀ w, w ≠ t → P (Function.update f t c w) = true → P c = true → False := by
    intro w hw hwc hcc
    rw [Function.update_of_ne hw] at hwc
    rcases hc hcc with ht | hnone
    · exact hw (h w t hwc ht)
    · rw [hnone w] at hwc
      cases hwc
  have hself : Function.update f t c t = c := Function.update_self t c f
  by_cases hut : u = t
  · subst hut
    rw [hself] at hu
    by_contra hne
    exact key v (Ne.symm hne) hv hu
  · by_cases hvt : v = t
    · subst hvt
      rw [hself] at hv
      exact (key u hut hu hv).elim
    · rw [Function.update_of_ne hut] at hu
      rw [Function.update_of_ne hvt] at hv
      exact h u v hu hv

/-- The call of `t` becomes `c`, and the pool changes for the objects of the two only. -/
structure Follows (s s' : Host ι) (t : ι) (c : Call) : Prop where
  calls : s'.calls = Function.update s.calls t c
  sound : Sound s'.sys
  held : ∀ i, i ∈ s'.sys.held ↔
    (i ∈ s.sys.held ∧ (s.calls t).holds i = false) ∨ c.holds i = true
  new : ∀ i, c.holds i = true → (s.calls t).holds i = true ∨ i ∉ s.sys.held
  waiting : ∀ i ∈ s.sys.waiting.map Waiter.objIdx,
    (s.calls t).pends i = true ∨ i ∈ s'.sys.waiting.map Waiter.objIdx
  pends : ∀ i, c.pends i = true →
    (s.calls t).pends i = true ∨ i ∉ s.sys.waiting.map Waiter.objIdx
  sig : ∀ i ∈ s.sys.held, (s.calls t).holds i = false → s'.sys.signalled i = s.sys.signalled i

theorem ApiInv.move {s s' : Host ι} (h : ApiInv s) {t : ι} {c : Call}
    (hf : Follows s s' t c)
    (hstart : c.inStart = true → (s.calls t).inStart = true ∨ ∀ u, (s.calls u).inStart = false)
    (hcall : CallInv s'.sys c) (hhanded : ∀ u, u ≠ t → Handed s' (s.calls u))
    (hself : Handed s' c) (hpointed : s'.pointed) : ApiInv s' := by
  have ht : s'.calls t = c := by
    rw [hf.calls]
    exact Function.update_self _ _ _
  have hu : ∀ u, u ≠ t → s'.calls u = s.calls u := by
    intro u hne
    rw [hf.calls]
    exact Function.update_of_ne hne _ _
  refine ⟨hf.sound, fun i => ?_, fun i => ?_, fun i => ?_, ?_, fun u => ?_, fun u => ?_, hpointed⟩
  · rw [hf.held i, h.held i]
    constructor
    · rintro (⟨⟨u, hi⟩, hfree⟩ | hi)
      · refine ⟨u, ?_⟩
        rw [hu u]
        · exact hi
        · rintro rfl
          rw [hi] at hfree
          cases hfree
      · exact ⟨t, by rw [ht]; exact hi⟩
    · rintro ⟨u, hi⟩
      by_cases hut : u = t
      · rw [hut, ht] at hi
        exact .inr hi
      · rw [hu u hut] at hi
        refine .inl ⟨⟨u, hi⟩, Bool.eq_false_iff.2 fun hti => hut (h.alone i u t hi hti)⟩
  · rw [hf.calls]
    refine unique_update (P := fun c : Call => c.holds i) (h.alone i) fun hi => ?_
    exact (hf.new i hi).imp_right fun hfree u => Bool.eq_false_iff.2 fun hui =>
      hfree ((h.held i).2 ⟨u, hui⟩)
  · rw [hf.calls]
    refine unique_update (P := fun c : Call => c.pends i) (h.pendsAlone i) fun hi => ?_
    exact (hf.pends i hi).imp_right fun hfree u => Bool.eq_false_iff.2 fun hui =>
      hfree ((h.call u).pends_waiting hui)
  · rw [hf.calls]
    exact unique_update h.starter hstart
  · by_cases hut : u = t
    · rw [hut, ht]
      exact hcall
    · rw [hu u hut]
      refine (h.call u).congr (fun i hi => ?_) fun i hi hw => ?_
      · refine hf.sig i ((h.held i).2 ⟨u, hi⟩) (Bool.eq_false_iff.2 fun hti => ?_)
        exact hut (h.alone i u t hi hti)
      · rcases hf.waiting i hw with hti | hw'
        · exact absurd (h.pendsAlone i u t hi hti) hut
        · exact hw'
  · by_cases hut : u = t
    · rw [hut, ht]
      exact hself
    · rw [hu u hut]
      exact hhanded u hut

theorem Call.inStart_of {c c' : Call} (h : c.inStart = true) (hapi : c.api = c'.api)
    (hover : c'.over = false) : c'.inStart = true := by
  unfold Call.inStart at h ⊢
  rw [Bool.and_eq_true] at h
  rw [hover, ← hapi, h.1]
  rfl

theorem ApiInv.step {s s' : Host ι} (h : ApiInv s) {t : ι} {c : Call}
    (hf : Follows s s' t c)
    (hstart : c.inStart = true → (s.calls t).inStart = true) (hcall : CallInv s'.sys c)
    (hevent : s'.event = s.event) (hidx : s'.sys.actionIndex = s.sys.actionIndex)
    (hsignals : c.signals = (s.calls t).signals) (hdelivered : c.delivered = (s.calls t).delivered)
    (hkeep : (s.calls t).signals = (s.calls t).delivered ∨
      (∀ i, (s.calls t).holds i = true → c.holds i = true) ∧
        ((s.calls t).awaitsInit = true → c.awaitsInit = true))
    (hnot : (s.calls t).phase ≠ .starting) : ApiInv s' := by
  have htarget : ∀ u, s.target u → s'.target u := by
    intro u hu
    unfold Host.target at hu ⊢
    rw [hevent, hidx]
    exact hu
  refine h.move hf (fun hc => .inl (hstart hc)) hcall
    (fun u _ => ⟨(h.handed u).signals, (h.handed u).delivered, (h.handed u).eq.imp_right (htarget _)⟩)
    ⟨?_, ?_, ?_⟩ ?_
  · rw [hsignals, hdelivered]
    exact (h.handed t).signals
  · rw [hdelivered]
    exact (h.handed t).delivered
  · rw [hsignals, hdelivered]
    rcases hkeep with heq | ⟨hholds, hawaits⟩
    · exact .inl heq
    · refine (h.handed t).eq.imp_right fun ht => htarget _ ?_
      unfold Host.target at ht ⊢
      cases hev : s.event with
      | none => simp only [hev] at ht
      | some e =>
        cases e with
        | obj sd => simp only [hev] at ht ⊢; exact hholds _ ht
        | initComplete => simp only [hev] at ht ⊢; exact hawaits ht
  · have hpointed := h.pointed
    unfold Host.pointed at hpointed ⊢
    rw [hevent]
    cases hev : s.event with
    | none => trivial
    | some e =>
      cases e with
      | obj sd =>
        simp only [hev] at hpointed
        obtain ⟨u, hu, hlt⟩ := hpointed
        refine ⟨u, ?_⟩
        rw [hf.calls, hidx]
        by_cases hut : u = t
        · subst hut
          rw [Function.update_self, hsignals, hdelivered]
          rcases hkeep with heq | ⟨hholds, -⟩
          · omega
          · exact ⟨hholds _ hu, hlt⟩
        · rw [Function.update_of_ne hut]
          exact ⟨hu, hlt⟩
      | initComplete =>
        simp only [hev] at hpointed
        obtain ⟨u, hu⟩ := hpointed
        refine ⟨u, ?_⟩
        rw [hf.calls]
        by_cases hut : u = t
        · subst hut
          rw [Function.update_self, hsignals, hdelivered]
          rcases hu with hu | ⟨hu, hlt⟩
          · exact absurd hu hnot
          · rcases hkeep with heq | ⟨-, hawaits⟩
            · omega
            · exact .inr ⟨hawaits hu, hlt⟩
        · rw [Function.update_of_ne hut]
          exact hu

theorem ApiInv.goto {s s' : Host ι} (h : ApiInv s) {t : ι} {p : Phase}
    (hcalls : s'.calls = Function.update s.calls t { s.calls t with phase := p })
    (hsys : s'.sys = s.sys) (hevent : s'.event = s.event)
    (hholds : ∀ i, ({ s.calls t with phase := p } : Call).holds i = (s.calls t).holds i)
    (hp : p ≠ .pending) (hover : (s.calls t).over = false)
    (hcall : CallInv s.sys { s.calls t with phase := p })
    (hkeep : (s.calls t).signals = (s.calls t).delivered ∨
      ((s.calls t).awaitsInit = true → ({ s.calls t with phase := p } : Call).awaitsInit = true))
    (hnot : (s.calls t).phase ≠ .starting) : ApiInv s' := by
  refine h.step ⟨hcalls, hsys ▸ h.sound, fun i => ?_, fun i hi => .inl ?_, fun i hi => .inr ?_,
    fun i hi => ?_, fun i _ _ => by rw [hsys]⟩ (fun hc => ?_) (hsys ▸ hcall) hevent (by rw [hsys]) rfl rfl
    ?_ hnot
  · rw [hsys, hholds i]
    constructor
    · intro hi
      cases hti : (s.calls t).holds i with
      | false => exact .inl ⟨hi, rfl⟩
      | true => exact .inr rfl
    · rintro (⟨hi, -⟩ | hi)
      · exact hi
      · exact (h.held i).2 ⟨t, hi⟩
  · rw [← hholds i]
    exact hi
  · rw [hsys]
    exact hi
  · unfold Call.pends at hi
    exact absurd (of_decide_eq_true hi).1 hp
  · exact Call.inStart_of hc rfl hover
  · exact hkeep.imp_right fun hawaits => ⟨fun i hi => by rw [hholds i]; exact hi, hawaits⟩

/-! ### `ActionIndex` -/

/-- The object of an `sl_Start` in progress is the one that `ActionIndex` names. -/
def Host.Own (s : Host ι) : Prop :=
  ∀ t i, (s.calls t).api.starts = true → (s.calls t).over = false →
    (s.calls t).objIdx = some i → i = s.sys.actionIndex

section

omit [DecidableEq ι]

theorem Host.Own.congr {s s' : Host ι} (h : s.Own) (hidx : s'.sys.actionIndex = s.sys.actionIndex)
    (hcalls : ∀ u, (s'.calls u).api = (s.calls u).api ∧ (s'.calls u).objIdx = (s.calls u).objIdx ∧
      ((s'.calls u).over = false → (s.calls u).over = false)) : s'.Own := by
  intro u i hstarts hover hobj
  obtain ⟨hapi, hidx', hover'⟩ := hcalls u
  rw [hidx]
  exact h u i (hapi ▸ hstarts) (hover' hover) (hidx' ▸ hobj)

theorem Host.pool_same {s s' : Host ι} {op : PoolOp} (h : s.pool op = some s') :
    s'.sys.actionIndex = s.sys.actionIndex ∧ s'.calls = s.calls := by
  unfold Host.pool at h
  split at h
  · cases h
  · cases h
    exact ⟨rfl, rfl⟩

theorem Host.update_same {s s' : Host ι} {i : Nat} {f : SlPoolObj → SlPoolObj}
    (h : s.update i f = some s') : s'.sys.actionIndex = s.sys.actionIndex ∧ s'.calls = s.calls := by
  unfold Host.update at h
  split at h
  · cases h
  · rename_i sys _ hu
    cases h
    unfold EvtSys.update at hu
    split at hu
    · cases hu
    · cases hu
      exact ⟨rfl, rfl⟩

theorem Host.release_same {s s' : Host ι} {i : Nat} (h : s.release i = some s') :
    s'.sys.actionIndex = s.sys.actionIndex ∧ s'.calls = s.calls := by
  unfold Host.release at h
  split at h
  · cases h
  · cases h
    exact ⟨rfl, rfl⟩

end

theorem Host.Own.set {s s' : Host ι} {t : ι} {c : Call} (h : s.Own)
    (hsame : s'.sys.actionIndex = s.sys.actionIndex ∧ s'.calls = s.calls)
    (hapi : c.api = (s.calls t).api) (hobj : c.objIdx = (s.calls t).objIdx)
    (hover : c.over = false → (s.calls t).over = false) : (s'.set t c).Own := by
  refine h.congr hsame.1 fun u => ?_
  unfold Host.set
  rw [hsame.2]
  dsimp only
  by_cases hut : u = t
  · subst hut
    rw [Function.update_self]
    exact ⟨hapi, hobj, hover⟩
  · rw [Function.update_of_ne hut]
    exact ⟨rfl, rfl, id⟩

theorem Host.Own.goto {s s' : Host ι} {t : ι} {p : Phase} (h : s.Own)
    (hsame : s'.sys.actionIndex = s.sys.actionIndex ∧ s'.calls = s.calls)
    (hover : (s.calls t).over = false) : (s'.goto t p).Own := by
  unfold Host.goto
  rw [hsame.2]
  exact h.set hsame rfl rfl fun _ => hover

theorem Host.Own.fail {s s' : Host ι} {t : ι} (h : s.Own) (hd : Handling)
    (hsame : s'.sys.actionIndex = s.sys.actionIndex ∧ s'.calls = s.calls)
    (hover : (s.calls t).over = false) : (s'.fail hd t).Own := by
  cases hd with
  | assert => exact h.goto hsame hover
  | error => exact h.goto hsame hover

theorem Host.Own.enter {s s' : Host ι} {t : ι} {hd : Handling} {r : Run} (h : s.Own)
    (hp : (s.calls t).phase = .enter) (hcond : CallCond hd s (s.calls t) r)
    (hs : callStep hd s t r = some s') : s'.Own := by
  unfold ApiCalls.callStep at hs
  unfold CallCond at hcond
  have hover : (s.calls t).over = false := by simp [Call.over, hp]
  simp only [hp] at hs hcond
  split at hs
  · cases hs
  · rename_i s₁ hpool
    have hsame := Host.pool_same hpool
    split at hs
    · -- the object is the one that the condition names
      cases hs
      intro u i hstarts hu hobj
      unfold Host.set at hstarts hu hobj ⊢
      dsimp only at hstarts hu hobj ⊢
      rw [hsame.1]
      by_cases hut : u = t
      · subst hut
        rw [Function.update_self] at hstarts hobj
        cases hobj
        exact hcond hstarts
      · rw [Function.update_of_ne hut, hsame.2] at hstarts hu hobj
        exact h u i hstarts hu hobj
    · cases hs
      exact h.goto hsame hover

theorem Host.Own.callStep {s s' : Host ι} {t : ι} {hd : Handling} {r : Run} (h : s.Own)
    (hcond : CallCond hd s (s.calls t) r) (hs : callStep hd s t r = some s') : s'.Own := by
  by_cases henter : (s.calls t).phase = .enter
  · exact h.enter henter hcond hs
  unfold ApiCalls.callStep at hs
  cases hobj : (s.calls t).objIdx with
  | none =>
    cases hp : (s.calls t).phase with
    | enter => exact absurd hp henter
    | _ => simp only [hp, hobj] at hs; cases hs; exact h
  | some i =>
    cases hp : (s.calls t).phase with
    | enter => exact absurd hp henter
    | idle | starting | returned | halted =>
      simp only [hp] at hs
      cases hs
      exact h
    | pending =>
      have hover : (s.calls t).over = false := by simp [Call.over, hp]
      simp only [hp, hobj] at hs
      split at hs
      · cases hs
      · rename_i s₁ hpool
        have hsame := Host.pool_same hpool
        cases hs
        split
        · exact h.goto hsame hover
        · exact h.congr hsame.1 fun u => by rw [hsame.2]; exact ⟨rfl, rfl, id⟩
    | taken =>
      have hover : (s.calls t).over = false := by simp [Call.over, hp]
      simp only [hp, hobj] at hs
      split at hs
      · split at hs <;>
          · cases hs
            exact h.goto ⟨rfl, rfl⟩ hover
      · split at hs
        · split at hs
          · cases hs
          · rename_i hu
            cases hs
            exact h.goto (Host.update_same hu) hover
        · cases hs
          exact h.goto ⟨rfl, rfl⟩ hover
    | cmdOp =>
      have hover : (s.calls t).over = false := by simp [Call.over, hp]
      simp only [hp, hobj] at hs
      split at hs
      · cases hs
        exact h.goto ⟨rfl, rfl⟩ hover
      · cases hs
        exact h.fail hd ⟨rfl, rfl⟩ hover
    | respWait =>
      have hover : (s.calls t).over = false := by simp [Call.over, hp]
      simp only [hp, hobj] at hs
      split at hs
      · split at hs
        · cases hs
        · rename_i hu
          cases hs
          split
          · exact h.goto (Host.update_same hu) hover
          · exact h.fail hd (Host.update_same hu) hover
      · cases hs
        exact h
    | release =>
      have hover : (s.calls t).over = false := by simp [Call.over, hp]
      simp only [hp, hobj] at hs
      split at hs
      · cases hs
      · rename_i hu
        cases hs
        exact h.set (Host.release_same hu) rfl hobj.symm fun _ => hover

omit [DecidableEq ι] in
theorem Host.Own.signal {s s' : Host ι} (h : s.Own) (hs : s.signal = some s') : s'.Own := by
  unfold Host.signal at hs
  dsimp only at hs
  split at hs
  · cases hs
  · rename_i hu
    have hsame := Host.update_same hu
    cases hs
    refine h.congr hsame.1 fun u => ?_
    dsimp only
    rw [hsame.2]
    split <;> exact ⟨rfl, rfl, id⟩

omit [DecidableEq ι] in
theorem Host.Own.handle {s s' : Host ι} (h : s.Own) (hs : ApiCalls.handle s = some s') :
    s'.Own := by
  have hquiet : ({ s with event := none } : Host ι).Own := h.congr rfl fun _ => ⟨rfl, rfl, id⟩
  unfold ApiCalls.handle at hs
  split at hs
  · cases hs
    exact h
  · split at hs
    · cases hs
    · split at hs
      · cases hs
      · exact h.signal hs
      · cases hs
        exact hquiet
  · dsimp only at hs
    split at hs
    · split at hs
      · cases hs
      · rename_i hu
        have hsame := Host.release_same hu
        cases hs
        refine h.congr hsame.1 fun u => ?_
        dsimp only
        rw [hsame.2]
        split
        · rename_i hp
          exact ⟨rfl, rfl, fun _ => by simp [Call.over, hp]⟩
        · exact ⟨rfl, rfl, id⟩
    · exact h.signal hs

omit [DecidableEq ι] in
/-- An event for an object is found while no `sl_Start` is in progress. -/
theorem Host.Own.msgRead {s s' : Host ι} {hd : Handling} {behind : Nat → Nat} {opcode sd : Nat} (h : s.Own)
    (hcond : HostCond hd behind s (.event opcode sd))
    (hs : ApiCalls.msgRead behind s opcode sd = some s') : s'.Own := by
  unfold HostCond at hcond
  unfold ApiCalls.msgRead at hs
  split at hs
  · cases hs
  · rename_i i hfind
    simp only [hfind] at hcond
    cases hs
    intro u j hstarts hover
    have hcall : (if (s.calls u).waits i then
        ({ s.calls u with delivered := (s.calls u).delivered + 1 } : Call) else s.calls u).over =
          (s.calls u).over ∧ (if (s.calls u).waits i then
        ({ s.calls u with delivered := (s.calls u).delivered + 1 } : Call) else s.calls u).api =
          (s.calls u).api := by
      split <;> exact ⟨rfl, rfl⟩
    have hfree := hcond.2 u (hcall.2 ▸ hstarts)
    rw [← hcall.1] at hfree
    exact (Bool.false_ne_true (hover.symm.trans hfree)).elim
  · split at hs
    · cases hs
      refine h.congr rfl fun u => ?_
      dsimp only
      split <;> exact ⟨rfl, rfl, id⟩
    · cases hs
      exact h

theorem Host.Own.hostStep {s s' : Host ι} {hd : Handling} {behind : Nat → Nat} {i : Act ι} {o : Unit} (h : s.Own)
    (hcond : HostCond hd behind s i) (hs : ApiCalls.hostStep hd behind s i = some (s', o)) :
    s'.Own := by
  unfold ApiCalls.hostStep at hs
  cases i with
  | call t api =>
    -- the new call has no object, and no other is in progress where `ActionIndex` is set
    have hnew : ∀ {s₁ : Host ι} {c : Call}, s₁.Own → c.objIdx = none → (s₁.set t c).Own := by
      intro s₁ c hown hnone u j hstarts hover hobj
      unfold Host.set at hstarts hover hobj ⊢
      dsimp only at hstarts hover hobj ⊢
      by_cases hut : u = t
      · subst hut
        rw [Function.update_self, hnone] at hobj
        cases hobj
      · rw [Function.update_of_ne hut] at hstarts hover hobj
        exact hown u j hstarts hover hobj
    dsimp only at hs
    split at hs
    · split at hs
      · cases hs
        obtain ⟨-, -, hall⟩ := hcond
        refine hnew (fun u j _ hover => ?_) rfl
        exact (Bool.false_ne_true (hover.symm.trans (hall u))).elim
      · cases hs
        exact hnew h rfl
      · cases hs
        exact hnew h rfl
    · cases hs
      exact h
  | run t r =>
    obtain ⟨s₁, hs₁, heq⟩ := Option.map_eq_some_iff.1 hs
    obtain ⟨rfl, -⟩ := Prod.mk.inj heq
    exact h.callStep hcond hs₁
  | event opcode sd =>
    dsimp only at hs
    split at hs
    · cases hs
      exact h
    · obtain ⟨s₁, hs₁, heq⟩ := Option.map_eq_some_iff.1 hs
      obtain ⟨rfl, -⟩ := Prod.mk.inj heq
      exact h.msgRead hcond hs₁
  | handle =>
    obtain ⟨s₁, hs₁, heq⟩ := Option.map_eq_some_iff.1 hs
    obtain ⟨rfl, -⟩ := Prod.mk.inj heq
    exact h.handle hs₁

/-! ### A thread -/

variable {s : Host ι} {t : ι} {hd : Handling} {r : Run}

omit [DecidableEq ι] in
theorem ApiInv.signals_zero (h : ApiInv s) (t : ι) (hd : (s.calls t).delivered = 0) :
    (s.calls t).signals = 0 := by
  have hle := (h.handed t).signals
  omega

theorem enter_inv (h : ApiInv s) (hp : (s.calls t).phase = .enter) :
    ∃ s', callStep hd s t r = some s' ∧ ApiInv s' := by
  have hnot : (s.calls t).phase ≠ .starting := by rw [hp]; exact nofun
  have hc := h.call t
  unfold CallInv at hc
  simp only [hp] at hc
  obtain ⟨hobj, hrel, hdel, huse⟩ := hc
  have hcond : EvtCond s.sys (.pool (.call (s.calls t).api.action (s.calls t).api.socket)) :=
    huse.1
  obtain ⟨p, hpool, hsound⟩ := h.sound.poolStep hcond
  obtain ⟨hsig, hcase⟩ := Sound.called hpool
  have hzero := h.signals_zero t hdel
  have heq : (s.calls t).signals = (s.calls t).delivered := hzero.trans hdel.symm
  have hnone : ∀ i, (s.calls t).holds i = false := fun i => by simp [Call.holds, hp]
  have hover : (s.calls t).over = false := by simp [Call.over, hp]
  unfold callStep
  simp only [hp, Host.pool, hpool]
  by_cases hlt : maxConcurrentActions > s.sys.cb.freePoolIdx
  · rw [if_pos hlt] at hcase ⊢
    refine ⟨_, rfl, ?_⟩
    rcases hcase with ⟨hheld, hwaiting⟩ | ⟨hheld, hwaiting⟩
    · -- the object is active
      have hmem : s.sys.cb.freePoolIdx ∈ p.held := by
        rw [hheld]
        exact List.mem_cons_self
      simp only [hmem, if_true]
      refine h.step (t := t) ⟨rfl, hsound, fun i => ?_, fun i hi => .inr ?_, fun i hi => .inr ?_, nofun,
        fun i _ _ => hsig i⟩ (fun hc => ?_) ?_ rfl rfl rfl rfl (.inl heq) hnot
      · show i ∈ p.held ↔ _ ∨ decide (some s.sys.cb.freePoolIdx = some i) = true
        rw [hheld, List.mem_cons, hnone i, decide_eq_true_iff, Option.some_inj]
        grind
      · obtain rfl := Option.some.inj (of_decide_eq_true hi)
        exact h.sound.free_not_held
      · show i ∈ p.waiting.map _
        rw [hwaiting]
        exact hi
      · exact Call.inStart_of hc rfl hover
      · exact And.intro hrel ⟨hdel, huse, _, rfl, (hsig _).trans (h.sound.free_quiet hlt)⟩
    · -- the thread waits
      have hmem : s.sys.cb.freePoolIdx ∉ p.held := by
        rw [hheld]
        exact h.sound.free_not_held
      simp only [hmem, if_false]
      refine h.step (t := t) ⟨rfl, hsound, fun i => ?_, nofun, fun i hi => .inr ?_, fun i hi => .inr ?_,
        fun i _ _ => hsig i⟩ (fun hc => ?_) ?_ rfl rfl rfl rfl (.inl heq) hnot
      · show i ∈ p.held ↔ _ ∨ false = true
        rw [hheld, hnone i]
        simp
      · show i ∈ p.waiting.map _
        rw [hwaiting]
        exact List.mem_cons_of_mem _ hi
      · obtain rfl := Option.some.inj (of_decide_eq_true hi).2
        exact h.sound.free_not_waiting hlt
      · exact Call.inStart_of hc rfl hover
      · refine And.intro hrel ⟨hdel, huse, _, rfl, ?_⟩
        show _ ∈ p.waiting.map _
        rw [hwaiting]
        exact List.mem_cons_self
  · rw [if_neg hlt] at hcase ⊢
    refine ⟨_, rfl, ?_⟩
    refine h.step (t := t) ⟨rfl, hsound, fun i => ?_, nofun, fun i hi => .inr ?_, nofun,
      fun i _ _ => hsig i⟩ (fun hc => ?_) ?_ rfl rfl rfl rfl (.inl heq) hnot
    · show i ∈ p.held ↔ _ ∨ false = true
      rw [hcase.1, hnone i]
      simp
    · show i ∈ p.waiting.map _
      rw [hcase.2]
      exact hi
    · simp [Call.inStart, Call.over] at hc
    · refine And.intro ?_ heq
      show (s.calls t).released = (s.calls t).objIdx.toList
      rw [hrel, hobj]
      rfl

theorem pending_inv (h : ApiInv s) (hp : (s.calls t).phase = .pending) :
    ∃ s', callStep hd s t r = some s' ∧ ApiInv s' := by
  have hnot : (s.calls t).phase ≠ .starting := by rw [hp]; exact nofun
  have hc := h.call t
  unfold CallInv at hc
  simp only [hp] at hc
  obtain ⟨hrel, hdel, huse, i, hobj, hw⟩ := hc
  have hcond : EvtCond s.sys (.pool (.resume i)) := trivial
  obtain ⟨p, hpool, hsound⟩ := h.sound.poolStep hcond
  obtain ⟨hsig, hcase⟩ := Sound.resumed hpool
  have heq : (s.calls t).signals = (s.calls t).delivered := (h.signals_zero t hdel).trans hdel.symm
  have hnone : ∀ j, (s.calls t).holds j = false := fun j => by simp [Call.holds, hp]
  have hover : (s.calls t).over = false := by simp [Call.over, hp]
  have hpends : (s.calls t).pends i = true := by simp [Call.pends, hp, hobj]
  have hfree := h.sound.waiting_not_held hw
  have hne : ∀ j ∈ s.sys.held, j ≠ i := by
    rintro j hj rfl
    exact hfree hj
  unfold callStep
  simp only [hp, hobj, Host.pool, hpool]
  refine ⟨_, rfl, ?_⟩
  rcases hcase with ⟨hheld, hwaiting⟩ | ⟨hheld, hquiet, w, hwi, hwaiting⟩
  · -- the thread waits again
    have hmem : i ∉ p.held := by
      rw [hheld]
      exact hfree
    rw [if_neg hmem]
    refine h.step (t := t) (c := s.calls t) ⟨(Function.update_eq_self t s.calls).symm, hsound, fun j => ?_,
      fun j hj => .inl hj, fun j hj => .inr ?_, fun j hj => .inl hj, fun j hj _ => hsig j (hne j hj)⟩ id ?_
      rfl rfl rfl rfl (.inl heq) hnot
    · show j ∈ p.held ↔ _
      rw [hheld, hnone j]
      simp
    · show j ∈ p.waiting.map _
      rw [hwaiting]
      exact hj
    · refine (h.call t).congr (fun j hj => ?_) fun j _ hj => ?_
      · rw [hnone j] at hj
        cases hj
      · show j ∈ p.waiting.map _
        rw [hwaiting]
        exact hj
  · -- the object is active
    have hmem : i ∈ p.held := by
      rw [hheld]
      exact List.mem_cons_self
    rw [if_pos hmem]
    refine h.step (t := t) ⟨rfl, hsound, fun j => ?_, fun j hj => .inr ?_, fun j hj => ?_, nofun,
      fun j hj _ => hsig j (hne j hj)⟩ (fun hc => ?_) ?_ rfl rfl rfl rfl (.inl heq) hnot
    · show j ∈ p.held ↔ _ ∨ decide ((s.calls t).objIdx = some j) = true
      rw [hheld, List.mem_cons, hnone j, decide_eq_true_iff, hobj, Option.some_inj]
      grind
    · have hj : (s.calls t).objIdx = some j := of_decide_eq_true hj
      obtain rfl := Option.some.inj (hobj.symm.trans hj)
      exact hfree
    · by_cases hji : j = i
      · subst hji
        exact .inl hpends
      · right
        show j ∈ p.waiting.map _
        obtain ⟨v, hv, rfl⟩ := List.mem_map.1 hj
        rw [hwaiting]
        refine List.mem_map.2 ⟨v, (List.mem_erase_of_ne ?_).2 hv, rfl⟩
        rintro rfl
        exact hji hwi
    · exact Call.inStart_of hc rfl hover
    · exact And.intro hrel ⟨hdel, huse, i, hobj, hquiet⟩

theorem taken_goto (h : ApiInv s) (hp : (s.calls t).phase = .taken) : ApiInv (s.goto t .cmdOp) := by
  have hnot : (s.calls t).phase ≠ .starting := by rw [hp]; exact nofun
  have hc := h.call t
  unfold CallInv at hc
  simp only [hp] at hc
  obtain ⟨hrel, hdel, -, i, hobj, hquiet⟩ := hc
  have hzero := h.signals_zero t hdel
  refine h.goto rfl rfl rfl (fun j => ?_) nofun (by simp [Call.over, hp]) ?_
    (.inl (hzero.trans hdel.symm)) hnot
  · unfold Call.holds
    rw [hp]
  · refine And.intro hrel ⟨i, hobj, ?_⟩
    show _ ↔ (s.calls t).signals = 1
    rw [hquiet, hzero]
    decide

omit [DecidableEq ι] in
theorem ApiInv.mark (h : ApiInv s) {i : Nat} (hi : i ∈ s.sys.held) :
    ∃ s', (s.update i fun obj =>
        { obj with additionalData := obj.additionalData ||| slNetappFamilyMask }) = some s' ∧
      s'.calls = s.calls ∧ ApiInv s' := by
  obtain ⟨pool, hu, hsound, hother, hself⟩ := h.sound.update hi plain_family
  have hsig : ∀ j, (pool.obj j).any SlPoolObj.syncObj = s.sys.signalled j := by
    intro j
    by_cases hj : j = i
    · subst hj
      rw [hself]
      unfold EvtSys.signalled
      cases s.sys.cb.objPool.obj j <;> rfl
    · exact hother j hj
  unfold Host.update
  rw [hu]
  refine ⟨_, rfl, rfl, hsound, h.held, h.alone, h.pendsAlone, h.starter, fun u => ?_, fun u => ?_,
    h.pointed⟩
  · exact (h.call u).congr (fun j _ => hsig j) fun _ _ hw => hw
  · exact ⟨(h.handed u).signals, (h.handed u).delivered, (h.handed u).eq⟩

theorem taken_inv (h : ApiInv s) (hp : (s.calls t).phase = .taken) :
    ∃ s', callStep hd s t r = some s' ∧ ApiInv s' := by
  have hnot : (s.calls t).phase ≠ .starting := by simp [hp]
  have hc := h.call t
  unfold CallInv at hc
  simp only [hp] at hc
  obtain ⟨hrel, hdel, huse, i, hobj, hquiet⟩ := hc
  have hzero := h.signals_zero t hdel
  have hover : (s.calls t).over = false := by simp [Call.over, hp]
  have hheld : i ∈ s.sys.held := (h.held i).2 ⟨t, by simp [Call.holds, hp, hobj]⟩
  have hfamily : ∃ s₁, (s.update i fun obj =>
      { obj with additionalData := obj.additionalData ||| slNetappFamilyMask }) = some s₁ ∧
        ApiInv (s₁.goto t .cmdOp) := by
    obtain ⟨s₁, hu, hcalls, hinv⟩ := h.mark hheld
    exact ⟨s₁, hu, taken_goto hinv (by rw [hcalls]; exact hp)⟩
  unfold callStep
  simp only [hp, hobj]
  cases hapi : (s.calls t).api with
  | start opens callback =>
    have hopens : opens = true := by
      cases opens with
      | true => rfl
      | false => exact absurd hapi (huse.2 callback)
    subst hopens
    refine ⟨_, rfl, h.goto (t := t) rfl rfl rfl (fun j => ?_) ?_ hover ?_
      (.inl (hzero.trans hdel.symm)) hnot⟩
    · cases callback <;> · unfold Call.holds; rw [hp]; rfl
    · cases callback <;> simp
    · cases callback with
      | true => exact And.intro hrel ⟨hdel, by rw [hapi]; rfl, i, hobj, hquiet⟩
      | false =>
        refine And.intro hrel ⟨i, hobj, ?_⟩
        show _ ↔ (s.calls t).signals = 1
        rw [hquiet, hzero]
        decide
  | connect family sd => exact ⟨_, rfl, taken_goto h hp⟩
  | accept sd => exact ⟨_, rfl, taken_goto h hp⟩
  | getHostByName ipv6 =>
    cases ipv6 with
    | true =>
      obtain ⟨s₁, hu, hinv⟩ := hfamily
      simp only [hu]
      exact ⟨_, rfl, hinv⟩
    | false => exact ⟨_, rfl, taken_goto h hp⟩
  | getHostByService ipv6 =>
    cases ipv6 with
    | true =>
      obtain ⟨s₁, hu, hinv⟩ := hfamily
      simp only [hu]
      exact ⟨_, rfl, hinv⟩
    | false => exact ⟨_, rfl, taken_goto h hp⟩

theorem cmdOp_inv (h : ApiInv s) (hp : (s.calls t).phase = .cmdOp)
    (hcond : CallCond hd s (s.calls t) r) : ∃ s', callStep hd s t r = some s' ∧ ApiInv s' := by
  have hc := h.call t
  unfold CallInv at hc
  unfold CallCond at hcond
  simp only [hp] at hc hcond
  obtain ⟨hrel, i, hobj, hsig⟩ := hc
  have hover : (s.calls t).over = false := by simp [Call.over, hp]
  have hawaits : (s.calls t).awaitsInit = false := by simp [Call.awaitsInit, hp]
  have hnot : (s.calls t).phase ≠ .starting := by rw [hp]; exact nofun
  have hholds : ∀ p : Phase, p = .respWait ∨ p = .release ∨ p = .halted → ∀ j,
      ({ s.calls t with phase := p } : Call).holds j = (s.calls t).holds j := by
    rintro p (rfl | rfl | rfl) j <;> · unfold Call.holds; rw [hp]
  unfold callStep
  simp only [hp, hobj]
  split
  · refine ⟨_, rfl, ?_⟩
    cases hacc : r.accepted with
    | true =>
      refine h.goto (t := t) rfl rfl rfl (hholds _ (.inl rfl)) nofun hover ?_
        (.inr fun ha => ?_) hnot
      · exact And.intro hrel ⟨i, hobj, hsig⟩
      · rw [hawaits] at ha
        cases ha
    | false =>
      have hdel := hcond.1 hacc
      have hzero := h.signals_zero t hdel
      refine h.goto (t := t) rfl rfl rfl (hholds _ (.inr (.inl rfl))) nofun hover ?_
        (.inl (hzero.trans hdel.symm)) hnot
      refine And.intro hrel ⟨hzero.trans hdel.symm, i, hobj, ?_⟩
      rw [Bool.eq_false_iff]
      intro hs
      have hone := hsig.1 hs
      omega
  · rename_i hfail
    refine ⟨_, rfl, ?_⟩
    cases hd with
    | assert =>
      refine h.goto (t := t) rfl rfl rfl (hholds _ (.inr (.inr rfl))) nofun hover hrel
        (.inr fun ha => ?_) hnot
      rw [hawaits] at ha
      cases ha
    | error =>
      refine absurd ?_ hfail
      have hsd := hcond.2.2
      rw [hcond.2.1]
      cases hcheck : (s.calls t).api.checksSd with
      | true => rw [hsd hcheck]; rfl
      | false => rfl

theorem respWait_inv (h : ApiInv s) (hp : (s.calls t).phase = .respWait)
    (hcond : CallCond hd s (s.calls t) r) : ∃ s', callStep hd s t r = some s' ∧ ApiInv s' := by
  have hnot : (s.calls t).phase ≠ .starting := by rw [hp]; exact nofun
  have hc := h.call t
  unfold CallInv at hc
  unfold CallCond at hcond
  simp only [hp] at hc hcond
  obtain ⟨hrel, i, hobj, hsig⟩ := hc
  have hover : (s.calls t).over = false := by simp [Call.over, hp]
  have hheld : i ∈ s.sys.held := (h.held i).2 ⟨t, by simp [Call.holds, hp, hobj]⟩
  unfold callStep
  simp only [hp, hobj]
  by_cases hs : s.sys.signalled i = true
  · rw [if_pos hs]
    have hone := hsig.1 hs
    have heq : (s.calls t).signals = (s.calls t).delivered := by
      have hle := (h.handed t).signals
      have hle' := (h.handed t).delivered
      omega
    obtain ⟨pool, hu, hsound, hother, hself⟩ :=
      h.sound.update hheld (f := fun obj => { obj with syncObj := false }) fun _ => rfl
    have hquiet : (pool.obj i).any SlPoolObj.syncObj = false := by
      rw [hself]
      cases s.sys.cb.objPool.obj i <;> rfl
    have hmove : ∀ p : Phase, p = .release ∨ p = .halted →
        ApiInv ({ s with sys := { s.sys with cb := { s.sys.cb with objPool := pool } } }.goto t p) := by
      intro p hpp
      have hholds : ∀ j, ({ s.calls t with phase := p } : Call).holds j = (s.calls t).holds j := by
        rcases hpp with rfl | rfl <;> · intro j; unfold Call.holds; rw [hp]
      refine h.step (t := t) ⟨rfl, hsound, fun j => ?_, fun j hj => .inl ?_, fun j hj => .inr hj,
        fun j hj => ?_, fun j hj hfree => hother j ?_⟩ (fun hc => Call.inStart_of hc rfl hover) ?_ rfl rfl
        rfl rfl (.inl heq) hnot
      · show j ∈ s.sys.held ↔ _ ∨ ({ s.calls t with phase := p } : Call).holds j = true
        rw [hholds j]
        constructor
        · intro hj
          cases htj : (s.calls t).holds j with
          | false => exact .inl ⟨hj, rfl⟩
          | true => exact .inr rfl
        · rintro (⟨hj, -⟩ | hj)
          · exact hj
          · exact (h.held j).2 ⟨t, hj⟩
      · rw [← hholds j]
        exact hj
      · rcases hpp with rfl | rfl <;> cases (of_decide_eq_true hj).1
      · rintro rfl
        simp [Call.holds, hp, hobj] at hfree
      · rcases hpp with rfl | rfl
        · exact And.intro hrel ⟨heq, i, hobj, hquiet⟩
        · exact hrel
    unfold Host.update
    rw [hu]
    dsimp only
    split
    · exact ⟨_, rfl, hmove _ (.inl rfl)⟩
    · rename_i hfail
      cases hd with
      | assert => exact ⟨_, rfl, hmove _ (.inr rfl)⟩
      | error =>
        refine absurd ?_ hfail
        cases hcheck : (s.calls t).api.checksSd with
        | true => rw [hcond hcheck]; rfl
        | false => rfl
  · rw [if_neg hs]
    exact ⟨s, rfl, h⟩

theorem release_inv (h : ApiInv s) (hown : s.Own) (hp : (s.calls t).phase = .release) :
    ∃ s', callStep hd s t r = some s' ∧ ApiInv s' := by
  have hnot : (s.calls t).phase ≠ .starting := by rw [hp]; exact nofun
  have hc := h.call t
  unfold CallInv at hc
  simp only [hp] at hc
  obtain ⟨hrel, heq, i, hobj, hquiet⟩ := hc
  have hholds : ∀ j, (s.calls t).holds j = decide (j = i) := by
    intro j
    simp [Call.holds, hp, hobj, eq_comm]
  have hheld : i ∈ s.sys.held := (h.held i).2 ⟨t, by simp [hholds]⟩
  obtain ⟨cb, hcb, hsound, hsame⟩ := h.sound.release hheld hquiet
  have hidx : (if (s.calls t).api.starts then s.sys.actionIndex else i) = i := by
    split
    · rename_i hstarts
      exact (hown t i hstarts (by simp [Call.over, hp]) hobj).symm
    · rfl
  unfold callStep
  simp only [hp, hobj, hidx, Host.release, hcb]
  refine ⟨_, rfl, h.step (t := t) ⟨rfl, hsound, fun j => ?_, nofun, fun j hj => .inr hj, nofun,
    fun j hj _ => hsame j hj⟩ (fun hc => ?_) ?_ rfl rfl rfl rfl (.inl heq) hnot⟩
  · show j ∈ s.sys.held.erase i ↔ _ ∨ false = true
    rw [h.sound.mem_erase, hholds j]
    simp [and_comm]
  · simp [Call.inStart, Call.over] at hc
  · refine And.intro ?_ heq
    show i :: (s.calls t).released = (some i).toList
    rw [hrel]
    rfl

theorem run_inv (h : ApiInv s) (hown : s.Own) (hcond : CallCond hd s (s.calls t) r) :
    ∃ s', callStep hd s t r = some s' ∧ ApiInv s' := by
  cases hp : (s.calls t).phase with
  | enter => exact enter_inv h hp
  | pending => exact pending_inv h hp
  | taken => exact taken_inv h hp
  | cmdOp => exact cmdOp_inv h hp hcond
  | respWait => exact respWait_inv h hp hcond
  | release => exact release_inv h hown hp
  | idle => exact ⟨s, by simp only [callStep, hp], h⟩
  | starting => exact ⟨s, by simp only [callStep, hp], h⟩
  | returned => exact ⟨s, by simp only [callStep, hp], h⟩
  | halted => exact ⟨s, by simp only [callStep, hp], h⟩

/-! ### Calls and events -/

omit [DecidableEq ι] in
theorem Call.over_iff {c : Call} : c.over = true ↔ c.phase = .idle ∨ c.phase = .returned :=
  decide_eq_true_iff

theorem Call.awaitsInit_iff {c : Call} :
    c.awaitsInit = true ↔ c.phase = .respWait ∧ c.api.starts = true := by
  unfold Call.awaitsInit
  cases hp : c.phase <;> simp

theorem Call.over_holds {c : Call} (h : c.over = true) (i : Nat) : c.holds i = false := by
  unfold Call.holds
  rcases Call.over_iff.1 h with hp | hp <;> rw [hp]

theorem Call.over_pends {c : Call} (h : c.over = true) (i : Nat) : c.pends i = false := by
  unfold Call.pends
  rcases Call.over_iff.1 h with hp | hp <;> simp [hp]

theorem Call.over_inStart {c : Call} (h : c.over = true) : c.inStart = false := by
  unfold Call.inStart
  rw [h, Bool.not_true, Bool.and_false]

theorem call_inv (h : ApiInv s) (hover : (s.calls t).over = true) {api : Api} {p : Phase}
    (hstarts : api.starts = false ∨ p = .returned)
    (hp : p = .enter ∧ api.usable ∨ p = .returned) :
    ApiInv (s.set t ⟨api, p, none, [], 0, 0⟩) := by
  let c : Call := ⟨api, p, none, [], 0, 0⟩
  have hnone : ∀ i, c.holds i = false := by
    rcases hp with ⟨rfl, -⟩ | rfl <;> exact fun _ => rfl
  have hpends : ∀ i, c.pends i = false := by
    rcases hp with ⟨rfl, -⟩ | rfl <;> exact fun _ => rfl
  refine h.move (t := t) (c := c) ⟨rfl, h.sound, fun i => ?_, fun i hi => ?_, fun i hi => .inr hi,
    fun i hi => ?_, fun i _ _ => rfl⟩ (fun hc => ?_) ?_ (fun u _ => ?_) ⟨le_rfl, zero_le_one, .inl rfl⟩ ?_
  · rw [hnone i, Call.over_holds hover i]
    simp [Host.set]
  · rw [hnone i] at hi
    cases hi
  · rw [hpends i] at hi
    cases hi
  · rcases hstarts with hs | rfl
    · have hc : (api.starts && !c.over) = true := hc
      rw [hs] at hc
      cases hc
    · have hc : (api.starts && false) = true := hc
      rw [Bool.and_false] at hc
      cases hc
  · rcases hp with ⟨rfl, huse⟩ | rfl
    · exact And.intro rfl ⟨rfl, rfl, huse⟩
    · exact And.intro rfl rfl
  · exact ⟨(h.handed u).signals, (h.handed u).delivered, (h.handed u).eq⟩
  · have hpointed := h.pointed
    unfold Host.pointed at hpointed ⊢
    have hcall : ∀ u, u ≠ t → (s.set t c).calls u = s.calls u := fun u hut =>
      Function.update_of_ne hut _ _
    show match s.event with
      | none => True
      | some (.obj _) => ∃ u, ((s.set t c).calls u).holds s.sys.actionIndex = true ∧ _
      | some .initComplete => ∃ u, ((s.set t c).calls u).phase = .starting ∨ _
    cases hev : s.event with
    | none => trivial
    | some e =>
      cases e with
      | obj sd =>
        simp only [hev] at hpointed
        obtain ⟨u, hu, hlt⟩ := hpointed
        refine ⟨u, ?_⟩
        rw [hcall u]
        · exact ⟨hu, hlt⟩
        · rintro rfl
          rw [Call.over_holds hover] at hu
          cases hu
      | initComplete =>
        simp only [hev] at hpointed
        obtain ⟨u, hu⟩ := hpointed
        refine ⟨u, ?_⟩
        rw [hcall u]
        · exact hu
        · rintro rfl
          rcases hu with hu | ⟨hu, -⟩
          · rcases Call.over_iff.1 hover with hp | hp <;> · rw [hp] at hu; cases hu
          · rcases Call.over_iff.1 hover with hp | hp <;>
              · rw [(Call.awaitsInit_iff.1 hu).1] at hp; cases hp

/-- `sl_Start` is called while no call is in progress. -/
theorem start_inv (h : ApiInv s) {callback : Bool} (hev : s.event = none)
    (hall : ∀ u, (s.calls u).over = true) :
    ApiInv ({ s with sys := evtInit, initCallback := false }.set t
      ⟨.start true callback, .enter, none, [], 0, 0⟩) := by
  let c : Call := ⟨.start true callback, .enter, none, [], 0, 0⟩
  have huse : (Api.start true callback).usable := ⟨le_rfl, nofun⟩
  have hupdate : ∀ P : Call → Prop, P c → (∀ u, P (s.calls u)) →
      ∀ u, P (Function.update s.calls t c u) := by
    intro P hc hrest u
    by_cases hut : u = t
    · rw [hut, Function.update_self]
      exact hc
    · rw [Function.update_of_ne hut]
      exact hrest u
  have hholds : ∀ u i, (Function.update s.calls t c u).holds i = false :=
    hupdate (fun d => ∀ i, d.holds i = false) (fun _ => rfl) fun u => Call.over_holds (hall u)
  have hpends : ∀ u i, (Function.update s.calls t c u).pends i = false :=
    hupdate (fun d => ∀ i, d.pends i = false) (fun _ => rfl) fun u => Call.over_pends (hall u)
  refine ⟨⟨_, _, _, _, _, evtInv_init⟩, fun i => ?_, fun i u v hu => ?_, fun i u v hu => ?_,
    ?_, ?_, ?_, ?_⟩
  · constructor
    · nofun
    · rintro ⟨u, hu⟩
      exact (Bool.false_ne_true ((hholds u i).symm.trans hu)).elim
  · exact (Bool.false_ne_true ((hholds u i).symm.trans hu)).elim
  · exact (Bool.false_ne_true ((hpends u i).symm.trans hu)).elim
  · exact unique_update (P := fun c : Call => c.inStart) h.starter fun _ =>
      .inr fun u => Call.over_inStart (hall u)
  · refine hupdate (CallInv evtInit) ⟨rfl, rfl, rfl, huse⟩ fun u => ?_
    refine (h.call u).congr (fun i hi => ?_) fun i hi => ?_
    · rw [Call.over_holds (hall u)] at hi
      cases hi
    · rw [Call.over_pends (hall u)] at hi
      cases hi
  · refine hupdate (Handed _) ⟨le_rfl, zero_le_one, .inl rfl⟩ fun u => ?_
    refine ⟨(h.handed u).signals, (h.handed u).delivered, .inl ?_⟩
    refine (h.handed u).eq.resolve_right fun ht => ?_
    unfold Host.target at ht
    simp only [hev] at ht
  · show match s.event with
      | none => True
      | some (.obj _) => _
      | some .initComplete => _
    rw [hev]
    trivial

omit [DecidableEq ι] in
theorem Call.holds_of_waits {c : Call} {i : Nat} (h : c.waits i = true) : c.holds i = true := by
  unfold Call.waits at h
  unfold Call.holds
  cases hp : c.phase with
  | cmdOp => rw [hp] at h; exact h
  | respWait => rw [hp] at h; exact h
  | _ => rw [hp] at h; cases h

theorem Call.inStart_of_awaits {c : Call} (h : c.awaitsInit = true) : c.inStart = true := by
  obtain ⟨hp, hs⟩ := Call.awaitsInit_iff.1 h
  simp [Call.inStart, Call.over, hp, hs]

omit [DecidableEq ι] in
theorem ApiInv.settled (h : ApiInv s) (hev : s.event = none) (u : ι) :
    (s.calls u).signals = (s.calls u).delivered := by
  refine (h.handed u).eq.resolve_right fun ht => ?_
  unfold Host.target at ht
  simp only [hev] at ht

theorem deliver_inv (h : ApiInv s) (hev : s.event = none) {s' : Host ι}
    (hcalls : s'.calls = Function.update s.calls t
      { s.calls t with delivered := (s.calls t).delivered + 1 })
    (hwait : (s.calls t).phase = .cmdOp ∨ (s.calls t).phase = .respWait)
    (hzero : (s.calls t).delivered = 0) (hsys : s'.sys.toPoolSys = s.sys.toPoolSys)
    (htarget : s'.target { s.calls t with delivered := (s.calls t).delivered + 1 }) :
    ApiInv s' := by
  let d : Call := { s.calls t with delivered := (s.calls t).delivered + 1 }
  have hsig : ∀ j, s'.sys.signalled j = s.sys.signalled j := by
    intro j
    unfold EvtSys.signalled
    rw [hsys]
  have hself : s'.calls t = d := by
    rw [hcalls]
    exact Function.update_self _ _ _
  have hsignals := h.signals_zero t hzero
  refine h.move (c := d) ⟨hcalls, h.sound.congr hsys, fun j => ?_, fun j hj => .inl hj, fun j hj => .inr ?_,
    fun j hj => .inl hj, fun j _ _ => hsig j⟩ (fun hc => .inl hc) ?_
    (fun u _ => ⟨(h.handed u).signals, (h.handed u).delivered, .inl (h.settled hev u)⟩)
    ⟨?_, ?_, .inr htarget⟩ ?_
  · rw [show s'.sys.held = s.sys.held by rw [hsys]]
    constructor
    · intro hj
      cases htj : (s.calls t).holds j with
      | false => exact .inl ⟨hj, rfl⟩
      | true => exact .inr htj
    · rintro (⟨hj, -⟩ | hj)
      · exact hj
      · exact (h.held j).2 ⟨t, hj⟩
  · rw [hsys]
    exact hj
  · have hc := h.call t
    unfold CallInv at hc ⊢
    rcases hwait with hp | hp
    · simp only [hp] at hc
      simp only [d, hp, hsig]
      exact hc
    · simp only [hp] at hc
      simp only [d, hp, hsig]
      exact hc
  · exact Nat.le_succ_of_le (h.handed t).signals
  · show (s.calls t).delivered + 1 ≤ 1
    omega
  · have hlt : (s.calls t).signals < (s.calls t).delivered + 1 := by omega
    unfold Host.target at htarget
    unfold Host.pointed
    cases hev' : s'.event with
    | none => trivial
    | some e =>
      cases e with
      | obj sd =>
        simp only [hev'] at htarget
        refine ⟨t, ?_⟩
        rw [hself]
        exact ⟨htarget, hlt⟩
      | initComplete =>
        simp only [hev'] at htarget
        refine ⟨t, .inr ?_⟩
        rw [hself]
        exact ⟨htarget, hlt⟩

theorem event_inv (h : ApiInv s) {behind : Nat → Nat} {opcode sd : Nat} (hev : s.event = none)
    (hcond : HostCond hd behind s (.event opcode sd)) :
    ∃ s', msgRead behind s opcode sd = some s' ∧ ApiInv s' := by
  unfold HostCond at hcond
  dsimp only at hcond
  unfold msgRead
  obtain ⟨res, hres⟩ := h.sound.find behind opcode sd
  rw [hres] at hcond ⊢
  cases res with
  | some i =>
    obtain ⟨⟨t, hwaits, hzero⟩, -⟩ := hcond
    have hholds := Call.holds_of_waits hwaits
    have hphase : (s.calls t).phase = .cmdOp ∨ (s.calls t).phase = .respWait := by
      unfold Call.waits at hwaits
      cases hp : (s.calls t).phase <;> simp [hp] at hwaits ⊢
    refine ⟨_, rfl, deliver_inv (t := t) h hev ?_ hphase hzero rfl hholds⟩
    funext u
    by_cases hut : u = t
    · subst hut
      rw [Function.update_self]
      exact if_pos hwaits
    · rw [Function.update_of_ne hut]
      refine if_neg fun hu => hut ?_
      exact h.alone i u t (Call.holds_of_waits hu) hholds
  | none =>
    dsimp only at hcond ⊢
    split
    · rename_i hop
      obtain ⟨t, hwaits, hzero⟩ := hcond hop
      refine ⟨_, rfl, ?_⟩
      rcases hwaits with ht | hp
      · refine deliver_inv (t := t) h hev ?_ (.inr (Call.awaitsInit_iff.1 ht).1) hzero rfl ht
        funext u
        by_cases hut : u = t
        · subst hut
          rw [Function.update_self]
          exact if_pos ht
        · rw [Function.update_of_ne hut]
          refine if_neg fun hu => hut ?_
          exact h.starter u t (Call.inStart_of_awaits hu) (Call.inStart_of_awaits ht)
      · -- nobody waits where there is an init callback
        have hin : (s.calls t).inStart = true := by
          have hc := h.call t
          unfold CallInv at hc
          simp only [hp] at hc
          simp [Call.inStart, Call.over, hp, hc.2.2.1]
        have hcalls : (fun t => if (s.calls t).awaitsInit = true then
            ({ s.calls t with delivered := (s.calls t).delivered + 1 } : Call)
            else s.calls t) = s.calls := by
          funext u
          refine if_neg fun hu => ?_
          obtain rfl := h.starter u t (Call.inStart_of_awaits hu) hin
          rw [(Call.awaitsInit_iff.1 hu).1] at hp
          cases hp
        rw [hcalls]
        exact ⟨h.sound, h.held, h.alone, h.pendsAlone, h.starter, h.call,
          fun u => ⟨(h.handed u).signals, (h.handed u).delivered, .inl (h.settled hev u)⟩,
          ⟨t, .inl hp⟩⟩
    · exact ⟨s, rfl, h⟩

/-- The object at `ActionIndex` is signalled, and the call that holds it is the one the event is
for. -/
theorem signal_inv (h : ApiInv s) (hholds : (s.calls t).holds s.sys.actionIndex = true)
    (hlt : (s.calls t).signals < (s.calls t).delivered)
    (honly : ∀ u, s.target (s.calls u) → u = t) : ∃ s', s.signal = some s' ∧ ApiInv s' := by
  have hheld : s.sys.actionIndex ∈ s.sys.held := (h.held _).2 ⟨t, hholds⟩
  obtain ⟨pool, hu, hsound, hother, hself⟩ :=
    h.sound.update hheld (f := fun obj => { obj with syncObj := true }) fun _ => rfl
  let d : Call := { s.calls t with signals := (s.calls t).signals + 1 }
  have hdel := (h.handed t).delivered
  unfold Host.signal Host.update
  simp only [hu]
  refine ⟨_, rfl, ?_⟩
  refine h.move (t := t) (c := d) ⟨?_, hsound, fun j => ?_, fun j hj => .inl hj, fun j hj => .inr hj,
    fun j hj => .inl hj, fun j hj hfree => hother j ?_⟩ (fun hc => .inl hc) ?_
    (fun u hut => ⟨(h.handed u).signals, (h.handed u).delivered, .inl ?_⟩) ⟨?_, hdel, .inl ?_⟩ trivial
  · funext u
    by_cases hut : u = t
    · subst hut
      rw [Function.update_self]
      exact if_pos hholds
    · rw [Function.update_of_ne hut]
      exact if_neg fun hu => hut (h.alone _ u t hu hholds)
  · constructor
    · intro hj
      cases htj : (s.calls t).holds j with
      | false => exact .inl ⟨hj, rfl⟩
      | true => exact .inr htj
    · rintro (⟨hj, -⟩ | hj)
      · exact hj
      · exact (h.held j).2 ⟨t, hj⟩
  · rintro rfl
    rw [hholds] at hfree
    cases hfree
  · have hc := h.call t
    have hsig : (pool.obj s.sys.actionIndex).any SlPoolObj.syncObj = true := by
      have hlt10 : s.sys.actionIndex < maxConcurrentActions := by
        obtain ⟨q, F, P, A, W, hinv⟩ := h.sound
        exact hinv.active.lt _ (hinv.mem_held'.1 hheld)
      obtain ⟨o, ho⟩ := s.sys.cb.objPool.exists_obj hlt10
      rw [hself, ho]
      rfl
    have hone : (s.calls t).signals + 1 = 1 := by omega
    unfold CallInv at hc ⊢
    unfold Call.holds at hholds
    cases hp : (s.calls t).phase with
    | cmdOp | respWait =>
      simp only [hp] at hc hholds
      simp only [d]
      exact ⟨hc.1, _, of_decide_eq_true hholds, iff_of_true hsig hone⟩
    | halted =>
      simp only [hp] at hc
      simp only [d]
      exact hc
    | taken | starting | release =>
      simp only [hp] at hc
      omega
    | _ =>
      simp only [hp] at hholds
      cases hholds
  · exact (h.handed u).eq.resolve_right fun ht => hut (honly u ht)
  · show (s.calls t).signals + 1 ≤ (s.calls t).delivered
    omega
  · show (s.calls t).signals + 1 = (s.calls t).delivered
    omega

/-- The init callback of `sl_Start` has been called, and its object is released. -/
theorem initCallback_inv (h : ApiInv s) (hev : s.event = some .initComplete)
    (hcb : s.initCallback = true) (hobj : (s.calls t).objIdx = some s.sys.actionIndex)
    (hp : (s.calls t).phase = .starting) : ∃ s', handle s = some s' ∧ ApiInv s' := by
  have hc := h.call t
  unfold CallInv at hc
  simp only [hp] at hc
  obtain ⟨hrel, hdel, hstarts, i, hi, hquiet⟩ := hc
  obtain rfl := Option.some.inj (hobj.symm.trans hi)
  have hholds : ∀ j, (s.calls t).holds j = decide (j = s.sys.actionIndex) := by
    intro j
    simp [Call.holds, hp, hobj, eq_comm]
  have hheld : s.sys.actionIndex ∈ s.sys.held := (h.held _).2 ⟨t, by simp [hholds]⟩
  have hin : (s.calls t).inStart = true := by simp [Call.inStart, Call.over, hp, hstarts]
  obtain ⟨cb, hrelease, hsound, hsame⟩ := h.sound.release hheld hquiet
  let d : Call := { s.calls t with
    phase := .returned, released := s.sys.actionIndex :: (s.calls t).released }
  have hd : d.over = true := by simp [d, Call.over]
  unfold handle Host.release
  simp only [hev, hcb, if_true, hrelease]
  refine ⟨_, rfl, ?_⟩
  refine h.move (t := t) (c := d) ⟨?_, hsound, fun j => ?_, fun j hj => ?_, fun j hj => .inr hj,
    fun j hj => ?_, fun j hj _ => hsame j hj⟩ (fun hc => ?_) ?_
    (fun u hut => ⟨(h.handed u).signals, (h.handed u).delivered, .inl ?_⟩)
    ⟨(h.handed t).signals, (h.handed t).delivered, .inl ?_⟩ trivial
  · funext u
    by_cases hut : u = t
    · subst hut
      rw [Function.update_self]
      exact if_pos hp
    · rw [Function.update_of_ne hut]
      refine if_neg fun hu => hut (h.starter u t ?_ hin)
      have hcu := h.call u
      unfold CallInv at hcu
      simp only [hu] at hcu
      simp [Call.inStart, Call.over, hu, hcu.2.2.1]
  · show j ∈ s.sys.held.erase s.sys.actionIndex ↔ _
    rw [h.sound.mem_erase, hholds j, Call.over_holds hd]
    simp [and_comm]
  · rw [Call.over_holds hd] at hj
    cases hj
  · rw [Call.over_pends hd] at hj
    cases hj
  · rw [Call.over_inStart hd] at hc
    cases hc
  · refine And.intro ?_ ((h.signals_zero t hdel).trans hdel.symm)
    show s.sys.actionIndex :: (s.calls t).released = (s.calls t).objIdx.toList
    rw [hrel, hobj]
    rfl
  · refine (h.handed u).eq.resolve_right fun ht => hut (h.starter u t ?_ hin)
    unfold Host.target at ht
    simp only [hev] at ht
    exact Call.inStart_of_awaits ht
  · exact (h.signals_zero t hdel).trans hdel.symm

theorem asyncEvtHandler_signals {obj : SlPoolObj} {sd : Nat} (h : Answerable obj sd) :
    asyncEvtHandler obj sd = some true := by
  unfold asyncEvtHandler
  split_ifs with hsd hs hname
  · rfl
  · exact absurd (h.socket hsd) hs
  · rw [h.family hname]
    rfl
  · rfl

theorem handle_inv (h : ApiInv s) (hown : s.Own) {behind : Nat → Nat}
    (hcond : HostCond hd behind s .handle) : ∃ s', handle s = some s' ∧ ApiInv s' := by
  unfold HostCond at hcond
  dsimp only at hcond
  cases hev : s.event with
  | none =>
    refine ⟨s, ?_, h⟩
    unfold handle
    simp only [hev]
  | some e =>
    simp only [hev] at hcond
    cases e with
    | obj sd =>
      have hpointed := h.pointed
      unfold Host.pointed at hpointed
      simp only [hev] at hpointed
      obtain ⟨t, hholds, hlt⟩ := hpointed
      obtain ⟨s', hs, hinv⟩ := signal_inv h hholds hlt fun u hu => by
        unfold Host.target at hu
        simp only [hev] at hu
        exact h.alone _ u t hu hholds
      refine ⟨s', ?_, hinv⟩
      have hlt10 : s.sys.actionIndex < maxConcurrentActions := by
        obtain ⟨q, F, P, A, W, hpool⟩ := h.sound
        exact hpool.active.lt _ (hpool.mem_held'.1 ((h.held _).2 ⟨t, hholds⟩))
      obtain ⟨o, ho⟩ := s.sys.cb.objPool.exists_obj hlt10
      unfold handle
      simp only [hev, ho, asyncEvtHandler_signals (hcond o ho)]
      exact hs
    | initComplete =>
      obtain ⟨t, hstarts, hp⟩ := hcond
      have hobj : (s.calls t).objIdx = some s.sys.actionIndex := by
        have hc := h.call t
        unfold CallInv at hc
        have hover : (s.calls t).over = false := by
          unfold Call.over
          rw [hp]
          cases s.initCallback <;> rfl
        cases hcb : s.initCallback with
        | true =>
          simp only [hp, hcb, if_true] at hc
          obtain ⟨-, -, -, i, hi, -⟩ := hc
          rw [hi, hown t i hstarts hover hi]
        | false =>
          simp only [hp, hcb, Bool.false_eq_true, if_false] at hc
          obtain ⟨-, i, hi, -⟩ := hc
          rw [hi, hown t i hstarts hover hi]
      cases hcb : s.initCallback with
      | true =>
        rw [hcb] at hp
        exact initCallback_inv h hev hcb hobj hp
      | false =>
        simp only [hcb, Bool.false_eq_true, if_false] at hp
        have hawaits : (s.calls t).awaitsInit = true := Call.awaitsInit_iff.2 ⟨hp, hstarts⟩
        have hpointed := h.pointed
        unfold Host.pointed at hpointed
        simp only [hev] at hpointed
        obtain ⟨u, hu⟩ := hpointed
        have hlt : (s.calls t).signals < (s.calls t).delivered := by
          rcases hu with hu | ⟨hu, hlt⟩
          · have hin : (s.calls u).inStart = true := by
              have hc := h.call u
              unfold CallInv at hc
              simp only [hu] at hc
              simp [Call.inStart, Call.over, hu, hc.2.2.1]
            obtain rfl := h.starter u t hin (Call.inStart_of_awaits hawaits)
            rw [hp] at hu
            cases hu
          · obtain rfl := h.starter u t (Call.inStart_of_awaits hu) (Call.inStart_of_awaits hawaits)
            exact hlt
        have hholds : (s.calls t).holds s.sys.actionIndex = true := by
          simp [Call.holds, hp, hobj]
        obtain ⟨s', hs, hinv⟩ := signal_inv h hholds hlt fun v hv => by
          unfold Host.target at hv
          simp only [hev] at hv
          exact h.starter v t (Call.inStart_of_awaits hv) (Call.inStart_of_awaits hawaits)
        refine ⟨s', ?_, hinv⟩
        unfold handle
        simp only [hev, hcb, Bool.false_eq_true, if_false]
        exact hs

/-! ## Runs -/

omit [DecidableEq ι] in
theorem apiInv_init : ApiInv (hostInit : Host ι) := by
  refine ⟨⟨_, _, _, _, _, evtInv_init⟩, fun i => ⟨nofun, ?_⟩, nofun, nofun, nofun,
    fun _ => ⟨rfl, rfl⟩, fun _ => ⟨le_rfl, zero_le_one, .inl rfl⟩, trivial⟩
  rintro ⟨_, hi⟩
  cases hi

theorem hostStep_inv {behind : Nat → Nat} {i : Act ι} (h : ApiInv s) (hown : s.Own)
    (hcond : HostCond hd behind s i) : ∃ s' o, hostStep hd behind s i = some (s', o) ∧ ApiInv s' := by
  unfold hostStep
  cases i with
  | call t api =>
    by_cases hover : (s.calls t).over = true
    · simp only [hover, if_true]
      unfold HostCond at hcond
      cases api with
      | start opens callback =>
        obtain ⟨rfl, hev, hall⟩ := hcond
        exact ⟨_, (), rfl, start_inv h hev hall⟩
      | connect family sd =>
        cases family with
        | false => exact ⟨_, (), rfl, call_inv h hover (.inl rfl) (.inr rfl)⟩
        | true => exact ⟨_, (), rfl, call_inv h hover (.inl rfl) (.inl ⟨rfl, le_of_lt hcond, nofun⟩)⟩
      | accept sd =>
        exact ⟨_, (), rfl, call_inv h hover (.inl rfl) (.inl ⟨rfl, le_of_lt hcond, nofun⟩)⟩
      | getHostByName ipv6 =>
        exact ⟨_, (), rfl, call_inv h hover (.inl rfl) (.inl ⟨rfl, le_rfl, nofun⟩)⟩
      | getHostByService ipv6 =>
        exact ⟨_, (), rfl, call_inv h hover (.inl rfl) (.inl ⟨rfl, le_rfl, nofun⟩)⟩
    · dsimp only
      rw [if_neg hover]
      exact ⟨s, (), rfl, h⟩
  | run t r =>
    obtain ⟨s', hs, hinv⟩ := run_inv (r := r) h hown hcond
    refine ⟨s', (), ?_, hinv⟩
    show (callStep hd s t r).map _ = _
    rw [hs]
    rfl
  | event opcode sd =>
    dsimp only
    cases hev : s.event with
    | some e => exact ⟨s, (), rfl, h⟩
    | none =>
      obtain ⟨s', hs, hinv⟩ := event_inv h hev hcond
      refine ⟨s', (), ?_, hinv⟩
      dsimp only
      rw [hs]
      rfl
  | handle =>
    obtain ⟨s', hs, hinv⟩ := handle_inv h hown hcond
    refine ⟨s', (), ?_, hinv⟩
    show (handle s).map _ = _
    rw [hs]
    rfl

omit [DecidableEq ι] in
theorem ApiInv.law (h : ApiInv s) : ApiLaw s where
  released t hp := by
    have hc := h.call t
    unfold CallInv at hc
    simp only [hp] at hc
    exact hc.1
  held := h.held
  signals t := ⟨(h.handed t).signals, (h.handed t).delivered, fun hev => h.settled hev t⟩
  wakes t i hwaits hone := by
    have hc := h.call t
    unfold CallInv at hc
    unfold Call.waits at hwaits
    cases hp : (s.calls t).phase with
    | cmdOp | respWait =>
      simp only [hp] at hc hwaits
      obtain ⟨-, j, hj, hsig⟩ := hc
      obtain rfl := Option.some.inj ((of_decide_eq_true hwaits).symm.trans hj)
      exact hsig.2 hone
    | _ =>
      simp only [hp] at hwaits
      cases hwaits

theorem respWait_next {s' : Host ι} {i : Nat} (hp : (s.calls t).phase = .respWait)
    (hobj : (s.calls t).objIdx = some i) (hsig : s.sys.signalled i = true)
    (hok : (s.calls t).api.checksSd = true → r.sameSd = true)
    (hs : callStep hd s t r = some s') :
    s'.calls t = { s.calls t with phase := .release } ∧ s'.sys.actionIndex = s.sys.actionIndex := by
  have hcheck : (!(s.calls t).api.checksSd || r.sameSd) = true := by
    cases hc : (s.calls t).api.checksSd with
    | true => rw [hok hc]; rfl
    | false => rfl
  unfold callStep Host.update EvtSys.update at hs
  simp only [hp, hobj, hsig, if_true] at hs
  split at hs
  · cases hs
  · rename_i s₁ hu
    rw [if_pos hcheck] at hs
    cases hs
    split at hu
    · cases hu
    · rename_i sys _ hpool
      cases hu
      split at hpool
      · cases hpool
      · cases hpool
        exact ⟨Function.update_self _ _ _, rfl⟩

theorem release_next {s' : Host ι} {i : Nat} (hp : (s.calls t).phase = .release)
    (hobj : (s.calls t).objIdx = some i) (hs : callStep hd s t r = some s') :
    (s'.calls t).phase = .returned ∧ (s'.calls t).objIdx = some i := by
  unfold callStep at hs
  simp only [hp, hobj] at hs
  split at hs
  · cases hs
  · cases hs
    simp [Host.set]

/-- A call that waits and has been signalled returns: it takes the signal and releases its object. -/
theorem ApiInv.returns (h : ApiInv s) (hown : s.Own) {behind : Nat → Nat} (r' : Run) {i : Nat}
    (hp : (s.calls t).phase = .respWait) (hobj : (s.calls t).objIdx = some i)
    (hone : (s.calls t).signals = 1) (hok : (s.calls t).api.checksSd = true → r.sameSd = true) :
    ∃ s' os, runs (hostStep hd behind) s [.run t r, .run t r'] = some (s', os) ∧
      (s'.calls t).phase = .returned ∧ (s'.calls t).released = [i] := by
  have hwaits : (s.calls t).waits i = true := by simp [Call.waits, hp, hobj]
  have hsig := h.law.wakes t i hwaits hone
  have hcond : CallCond hd s (s.calls t) r := by
    unfold CallCond
    simp only [hp]
    cases hd with
    | assert => trivial
    | error => exact hok
  obtain ⟨s₁, hs₁, hinv₁⟩ := run_inv h hown hcond
  obtain ⟨hcall, hindex⟩ := respWait_next hp hobj hsig hok hs₁
  have hp₁ : (s₁.calls t).phase = .release := by rw [hcall]
  have hobj₁ : (s₁.calls t).objIdx = some i := by rw [hcall]; exact hobj
  have hcond₁ : CallCond hd s₁ (s₁.calls t) r' := by
    unfold CallCond
    simp only [hp₁]
  obtain ⟨s₂, hs₂, hinv₂⟩ := run_inv hinv₁ (hown.callStep hcond hs₁) hcond₁
  obtain ⟨hp₂, hobj₂⟩ := release_next hp₁ hobj₁ hs₂
  have hstep : ∀ {s s' : Host ι} {r : Run}, callStep hd s t r = some s' →
      hostStep hd behind s (.run t r) = some (s', ()) := by
    intro s s' r hs
    show (callStep hd s t r).map _ = _
    rw [hs]
    rfl
  refine ⟨s₂, [(), ()], runs_cons (hstep hs₁) (runs_cons (hstep hs₂) rfl), hp₂, ?_⟩
  · rw [hinv₂.law.released t hp₂, hobj₂]
    rfl

/-- In every run that meets the condition, the objects of the pool are conserved, and a call whose
response has been handled returns with the release of its object. -/
theorem pool_objects_conserved (hd : Handling) (behind : Nat → Nat) (is : List (Act ι))
    (hmeets : Meets (hostStep hd behind) (HostCond hd behind) hostInit is) :
    ∃ s os, runs (hostStep hd behind) hostInit is = some (s, os) ∧ ApiLaw s ∧
      ∀ t i r r', (s.calls t).phase = .respWait → (s.calls t).objIdx = some i →
        (s.calls t).signals = 1 → ((s.calls t).api.checksSd = true → r.sameSd = true) →
        ∃ s' os', runs (hostStep hd behind) s [.run t r, .run t r'] = some (s', os') ∧
          (s'.calls t).phase = .returned ∧ (s'.calls t).released = [i] := by
  have hstep : ∀ (s : Host ι) i, ApiInv s ∧ s.Own → HostCond hd behind s i →
      ∃ s' o, hostStep hd behind s i = some (s', o) ∧ ApiInv s' ∧ s'.Own := by
    rintro s i ⟨hinv, hown⟩ hC
    obtain ⟨s', o, hs, hinv'⟩ := hostStep_inv hinv hown hC
    exact ⟨s', o, hs, hinv', hown.hostStep hC hs⟩
  have hinit : (hostInit : Host ι).Own := by
    intro t i hstarts
    cases hstarts
  obtain ⟨s, os, hr, hinv, hown⟩ := runs_invariant hstep ⟨apiInv_init, hinit⟩ hmeets
  exact ⟨s, os, hr, hinv.law, fun t i r r' hp hobj hone hok =>
    hinv.returns hown r' hp hobj hone hok⟩

def go : Act Unit := .run () ⟨true, true, true⟩

/-- `sl_Start` without a callback, and then `sl_Connect` on socket 1. -/
def startConnect : List (Act Unit) :=
  [.call () (.start true false), go, go, .event 0x0008 8, .handle, go, go,
    .call () (.connect true 1), go, go, go, .event 0x1006 1, .handle, go, go]

theorem pool_objects_conserved_connect :
    ∃ s os, runs (hostStep .error fun _ => 0) hostInit startConnect = some (s, os) ∧ ApiLaw s ∧
      ∀ t i r r', (s.calls t).phase = .respWait → (s.calls t).objIdx = some i →
        (s.calls t).signals = 1 → ((s.calls t).api.checksSd = true → r.sameSd = true) →
        ∃ s' os', runs (hostStep .error fun _ => 0) s [.run t r, .run t r'] = some (s', os') ∧
          (s'.calls t).phase = .returned ∧ (s'.calls t).released = [i] := by
  refine pool_objects_conserved .error (fun _ => 0) startConnect ?_
  refine And.intro ⟨rfl, rfl, fun _ => rfl⟩ <| And.intro (fun _ => rfl) <| And.intro trivial <|
    And.intro (fun _ => ⟨(), .inl rfl, rfl⟩) <| And.intro ⟨(), rfl, rfl⟩ <|
    And.intro (fun _ => rfl) <| And.intro trivial <| And.intro ?_ <|
    And.intro (fun h => by cases h) <| And.intro trivial <| And.intro ⟨nofun, rfl, fun _ => rfl⟩ <|
    And.intro ⟨⟨(), rfl, rfl⟩, fun _ h => by cases h⟩ <| And.intro (fun o ho => ?_) <| And.intro (fun _ => rfl) <| And.intro trivial trivial
  · show 1 &&& 15 < 8
    decide
  · cases ho
    exact ⟨fun _ => by decide, fun h => by cases h⟩

/-- `sl_Start` on an interface that does not open. -/
def startFails : List (Act Unit) := [.call () (.start false false), go, go]

/-- `sl_NetAppDnsGetHostByService` for an IPv6 address, and its response. -/
def serviceIpv6 : List (Act Unit) :=
  [.call () (.getHostByService true), go, go, go, .event 0x1A35 8, .handle]

/-- `sl_Connect`, with a command that cannot be exchanged. -/
def connectFails : List (Act Unit) :=
  [.call () (.connect true 1), go, go, .run () ⟨false, true, true⟩]

/-- `sl_Start` returns with its object; the handler of an IPv6 service does not signal; a call whose
command fails returns with its object. -/
theorem pool_objects_not_conserved :
    (∃ s os, runs (hostStep .assert fun _ => 0) hostInit startFails = some (s, os) ∧
      (s.calls ()).phase = .returned ∧ s.sys.held = [0] ∧ ¬ApiLaw s) ∧
    (∃ s os, runs (hostStep .assert fun _ => 0) hostInit serviceIpv6 = some (s, os) ∧
      (s.calls ()).phase = .respWait ∧ s.event = none ∧ (s.calls ()).delivered = 1 ∧
      s.sys.signalled 0 = false ∧ ¬ApiLaw s) ∧
    ∃ s os, runs (hostStep .error fun _ => 0) hostInit connectFails = some (s, os) ∧
      (s.calls ()).phase = .returned ∧ s.sys.held = [0] ∧ ¬ApiLaw s := by
  refine ⟨⟨_, _, rfl, rfl, rfl, fun h => ?_⟩, ⟨_, _, rfl, rfl, rfl, rfl, rfl, fun h => ?_⟩,
    ⟨_, _, rfl, rfl, rfl, fun h => ?_⟩⟩
  · have hreleased := h.released () rfl
    cases hreleased
  · have hsignals := (h.signals ()).2.2 rfl
    cases hsignals
  · have hreleased := h.released () rfl
    cases hreleased

end SimpleLink.Driver.ApiCalls
