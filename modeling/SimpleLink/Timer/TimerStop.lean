import SimpleLink.Timer.CcTimer

/-!
# What a stop does (`cc_timer.c`)

`timer_stop` looks for the timer on the list of the running ones only. While the
interrupt works off the expired timers these are on no list of the module: a stop
of such a timer fails, and its callback is still to come, or the timer is put back
on the list after its callback.

`Placed` is what holds of the lists in every reachable state, whatever the hardware
timer answers.
-/

namespace SimpleLink.Timer.CcTimer

open Lib

/-! ## Callbacks -/

def callback (info : HwtInfo) (s : Sys) (a : Act) : Option Swt :=
  match sysStep info s a, a with
  | some (s', _), .isr _ => if s.expired = [] then s'.expired.head? else none
  | some (s', _), .ret _ => if s.expired = [] then none else s'.expired.head?
  | _, _ => none

/-- The step is a start of `t`. -/
def Act.Starts (t : Swt) : Act → Prop
  | .start hndl _ _ _ => hndl = some t
  | _ => False

/-- A stop of `t` succeeds, and no callback of `t` is called before `t` is started again. -/
def StopEffective (info : HwtInfo) (s : Sys) (t : Swt) (ops : Ops) : Prop :=
  ∃ s', sysStep info s (.stop (some t) ops) = some (s', .rv 0) ∧
    ∀ acts s'' os, (∀ a ∈ acts, ¬ a.Starts t) → runs (sysStep info) s' acts = some (s'', os) →
      ∀ a, ¬ a.Starts t → callback info s'' a ≠ some t

/-! ## What the operations leave -/

def SwTimer.place (x : SwTimer) : Bool × Bool × Bool :=
  (x.flags.allocate, x.flags.activate, x.hwtObj)

/-- The lists and the places of the timers stay the same. -/
structure Frame (s s' : Sys) : Prop where
  free : s'.freeList = s.freeList
  used : s'.usedList = s.usedList
  expired : s'.expired = s.expired
  place : ∀ u, (s'.timers u).place = (s.timers u).place

/-- `t` is added to the running timers. -/
structure Added (s : Sys) (t : Swt) (s' : Sys) : Prop where
  free : s'.freeList = s.freeList
  used : s'.usedList.Perm (t :: s.usedList)
  expired : s'.expired = s.expired
  place : ∀ u, (s'.timers u).place =
    if u = t then ((s.timers t).flags.allocate, true, (s.timers t).hwtObj) else (s.timers u).place

/-- What holds of the lists: a timer is on one of them at most; a free one is not allocated; one that
runs or has expired is active and has its hardware timer. -/
structure Placed (s : Sys) : Prop where
  once : ∀ t, s.freeList.count t + s.usedList.count t + s.expired.count t ≤ 1
  free : ∀ t ∈ s.freeList, (s.timers t).flags.allocate = false
  busy : ∀ t, t ∈ s.usedList ∨ t ∈ s.expired →
    (s.timers t).flags.activate = true ∧ (s.timers t).hwtObj = true

section

variable {info : HwtInfo} {ops : Ops} {s s' s'' : Sys} {t u : Swt}

theorem Frame.refl (s : Sys) : Frame s s := ⟨rfl, rfl, rfl, fun _ => rfl⟩

theorem Frame.trans (h : Frame s s') (h' : Frame s' s'') : Frame s s'' where
  free := h'.free.trans h.free
  used := h'.used.trans h.used
  expired := h'.expired.trans h.expired
  place u := (h'.place u).trans (h.place u)

theorem modify_frame {f : SwTimer → SwTimer} (hf : (f (s.timers t)).place = (s.timers t).place) :
    Frame s (s.modify t f) :=
  ⟨rfl, rfl, rfl, fun u => modify_field SwTimer.place hf u⟩

theorem schedTimerIfNew_frame (head : Swt) : Frame s (schedTimerIfNew info ops s head) := by
  unfold schedTimerIfNew
  split
  · exact .refl s
  · split
    · exact ⟨rfl, rfl, rfl, fun u => modify_field SwTimer.place rfl u⟩
    · exact .refl s

theorem schedHead_frame : Frame s (schedHead info ops s) := by
  unfold schedHead
  split
  · exact .refl s
  · exact schedTimerIfNew_frame _

theorem handleNext_frame : Frame s (handleNext s) := by
  unfold handleNext
  split
  · exact modify_frame rfl
  · split
    · exact ⟨rfl, rfl, rfl, fun _ => rfl⟩
    · exact .refl s

theorem insertOrderedExpiry_frame (s : Sys) (t : Swt) :
    Frame { s with usedList := s.usedList.orderedInsert s.Earlier t } (insertOrderedExpiry s t) := by
  unfold insertOrderedExpiry
  dsimp only
  split
  · exact ⟨rfl, rfl, rfl, fun _ => rfl⟩
  · split
    · exact ⟨rfl, rfl, rfl, fun u => modify_field SwTimer.place rfl u⟩
    · exact ⟨rfl, rfl, rfl, fun _ => rfl⟩

theorem arm_added (s : Sys) (t : Swt) : Added s t (arm info ops s t) := by
  have hsched : Frame (insertOrderedExpiry s t) (schedHead info ops (insertOrderedExpiry s t)) :=
    schedHead_frame
  have hframe := (insertOrderedExpiry_frame s t).trans hsched
  refine ⟨hframe.free, ?_, hframe.expired, fun u => ?_⟩
  · show ((schedHead info ops (insertOrderedExpiry s t)).usedList).Perm _
    rw [hframe.used]
    exact List.perm_orderedInsert ..
  · have hplace := hframe.place u
    unfold arm
    by_cases hu : u = t
    · subst hu
      rw [modify_self, if_pos rfl]
      simp only [SwTimer.place, Prod.mk.injEq] at hplace
      simp only [SwTimer.place, SwTimer.setActivate, hplace.1, hplace.2.2]
    · rw [modify_of_ne hu, if_neg hu]
      exact hplace

/-- What `Added` says of the lists, after a change of `t` that leaves its place. -/
theorem Added.of_frame (h : Frame s s') (h' : Added s' t s'') : Added s t s'' where
  free := h'.free.trans h.free
  used := by
    rw [← h.used]
    exact h'.used
  expired := h'.expired.trans h.expired
  place u := by
    have ht := h.place t
    simp only [SwTimer.place, Prod.mk.injEq] at ht
    rw [h'.place u, h.place u, ht.1, ht.2.2]

theorem Added.frame (h : Added s t s') (h' : Frame s' s'') : Added s t s'' where
  free := h'.free.trans h.free
  used := by
    rw [h'.used]
    exact h.used
  expired := h'.expired.trans h.expired
  place u := (h'.place u).trans (h.place u)

/-! ## Where the timers are -/

theorem Placed.frame (h : Placed s) (hf : Frame s s') : Placed s' where
  once t := by
    rw [hf.free, hf.used, hf.expired]
    exact h.once t
  free t ht := by
    rw [hf.free] at ht
    have hplace := hf.place t
    simp only [SwTimer.place, Prod.mk.injEq] at hplace
    rw [hplace.1]
    exact h.free t ht
  busy t ht := by
    rw [hf.used, hf.expired] at ht
    have hplace := hf.place t
    simp only [SwTimer.place, Prod.mk.injEq] at hplace
    rw [hplace.2.1, hplace.2.2]
    exact h.busy t ht

theorem Placed.off (h : Placed s) (ht : (s.timers t).isAllocOnly = true) : Off s t := by
  have hflags : (s.timers t).flags = { Flags.zero with allocate := true } := by
    simpa [SwTimer.isAllocOnly] using ht
  have hidle : ¬ (t ∈ s.usedList ∨ t ∈ s.expired) := by
    intro hmem
    have hactive := (h.busy t hmem).1
    rw [hflags] at hactive
    cases hactive
  refine ⟨fun hfree => ?_, fun hu => hidle (.inl hu), fun he => hidle (.inr he)⟩
  have halloc := h.free t hfree
  rw [hflags] at halloc
  cases halloc

theorem Placed.added (h : Placed s) (ht : Off s t) (hobj : (s.timers t).hwtObj = true)
    (ha : Added s t s') : Placed s' where
  once u := by
    rw [ha.free, ha.used.count_eq, ha.expired, List.count_cons]
    have honce := h.once u
    split
    · rename_i he
      obtain rfl : t = u := by simpa using he
      rw [List.count_eq_zero.2 ht.free, List.count_eq_zero.2 ht.used,
        List.count_eq_zero.2 ht.expired]
    · omega
  free u hu := by
    rw [ha.free] at hu
    have hne : u ≠ t := by
      rintro rfl
      exact ht.free hu
    have hplace := ha.place u
    rw [if_neg hne] at hplace
    simp only [SwTimer.place, Prod.mk.injEq] at hplace
    rw [hplace.1]
    exact h.free u hu
  busy u hu := by
    rw [ha.used.mem_iff, ha.expired, List.mem_cons] at hu
    have hplace := ha.place u
    by_cases hut : u = t
    · subst hut
      rw [if_pos rfl] at hplace
      simp only [SwTimer.place, Prod.mk.injEq] at hplace
      rw [hplace.2.1, hplace.2.2]
      exact ⟨rfl, hobj⟩
    · rw [if_neg hut] at hplace
      simp only [SwTimer.place, Prod.mk.injEq] at hplace
      rw [hplace.2.1, hplace.2.2]
      exact h.busy u (hu.imp_left fun hu => hu.resolve_left hut)

theorem Placed.modify_off (h : Placed s) (ht : Off s t) (f : SwTimer → SwTimer) :
    Placed (s.modify t f) where
  once := h.once
  free u hu := by
    rw [modify_of_ne (by rintro rfl; exact ht.free hu)]
    exact h.free u hu
  busy u hu := by
    rw [modify_of_ne]
    · exact h.busy u hu
    · rintro rfl
      exact hu.elim ht.used ht.expired

theorem placed_init : Placed sysInit where
  once := by decide
  free _ _ := rfl
  busy := nofun

/-! ## The steps -/

def Busy (s : Sys) (t : Swt) : Prop := t ∈ s.usedList ∨ t ∈ s.expired

/-- The lists stay apart, and no timer gets busy but `t`. -/
structure Moves (s : Sys) (t : Option Swt) (s' : Sys) : Prop where
  placed : Placed s'
  busy : ∀ u, Busy s' u → Busy s u ∨ t = some u

theorem Placed.moves_of_frame (h : Placed s) (hf : Frame s s') (t : Option Swt) : Moves s t s' := by
  refine ⟨h.frame hf, fun u hu => .inl ?_⟩
  unfold Busy at hu ⊢
  rwa [hf.used, hf.expired] at hu

theorem Placed.moves_of_added (h : Placed s) (ht : Off s t) (hobj : (s.timers t).hwtObj = true)
    (ha : Added s t s') : Moves s (some t) s' := by
  refine ⟨h.added ht hobj ha, fun u hu => ?_⟩
  unfold Busy at hu ⊢
  rw [ha.used.mem_iff, ha.expired, List.mem_cons] at hu
  rcases hu with (rfl | hu) | hu
  · exact .inr rfl
  · exact .inl (.inl hu)
  · exact .inl (.inr hu)

theorem setupTimerExec_moves (h : Placed s) (ht : Off s t) (hobj : (s.timers t).hwtObj = true)
    (hasExpval : Bool) : Moves s (some t) (setupTimerExec info ops s t hasExpval).1 := by
  have hstart : ∀ hwtCurrent : U64Val, Moves s (some t) (arm info ops (if hasExpval then s else
      s.modify t fun x => { x with
        hwtExpires := calcHwtExpiry info hwtCurrent x.swInterval }) t) := by
    intro hwtCurrent
    refine h.moves_of_added ht hobj (.of_frame ?_ (arm_added _ t))
    split
    · exact .refl s
    · exact modify_frame rfl
  unfold setupTimerExec
  dsimp only
  split
  · split
    · exact h.moves_of_frame (.refl s) _
    · exact hstart _
  · exact hstart _

theorem Moves.of_frame {o : Option Swt} (hf : Frame s s') (h : Moves s' o s'') : Moves s o s'' := by
  refine ⟨h.placed, fun u hu => ?_⟩
  have hbusy := h.busy u hu
  unfold Busy at hbusy ⊢
  rwa [hf.used, hf.expired] at hbusy

theorem timerStart_moves (h : Placed s) (hobj : (s.timers t).hwtObj = true) (time : U64Time)
    (options : UInt32) : Moves s (some t) (timerStart info ops s t time options).1 := by
  unfold timerStart
  dsimp only
  split
  · exact h.moves_of_frame (.refl s) _
  · rename_i halloc
    have ht := h.off (Bool.not_eq_false _ ▸ halloc)
    -- the changes before `setup_timer_exec` leave the timer where it is
    have hset : ∀ (f : SwTimer → SwTimer) (b : Bool),
        (f (s.timers t)).place = (s.timers t).place →
          Moves s (some t) (setupTimerExec info ops (s.modify t f) t b).1 := by
      intro f b hf
      refine .of_frame (modify_frame hf) (setupTimerExec_moves (h.modify_off ht f) ht.modify ?_ b)
      rw [modify_self]
      simp only [SwTimer.place, Prod.mk.injEq] at hf
      rw [hf.2.2, hobj]
    split
    · exact hset _ true rfl
    · split
      · dsimp only
        refine h.moves_of_frame (modify_frame ?_) _
        rfl
      · exact hset _ false rfl

/-- `remove_elem`, and the flags of a timer that does not run any more. -/
theorem Placed.erase (h : Placed s) (t : Swt) {f : SwTimer → SwTimer}
    (hf : (f (s.timers t)).flags.allocate = (s.timers t).flags.allocate)
    (ht : t ∈ s.usedList) : Moves s none ({ s with usedList := s.usedList.erase t }.modify t f) ∧
      ¬ Busy ({ s with usedList := s.usedList.erase t }.modify t f) t := by
  have hpos := List.count_pos_iff.2 ht
  have honce := h.once t
  have hused : t ∉ s.usedList.erase t := by
    refine List.count_eq_zero.1 ?_
    rw [List.count_erase_self]
    omega
  have hexpired : t ∉ s.expired := List.count_eq_zero.1 (by omega)
  have hoff : ¬ Busy ({ s with usedList := s.usedList.erase t }.modify t f) t := by
    rintro (hu | he)
    · exact hused hu
    · exact hexpired he
  have hbusy : ∀ u, Busy ({ s with usedList := s.usedList.erase t }.modify t f) u → Busy s u :=
    fun u hu => hu.imp_left List.mem_of_mem_erase
  refine ⟨⟨⟨fun u => ?_, fun u hu => ?_, fun u hu => ?_⟩, fun u hu => .inl (hbusy u hu)⟩, hoff⟩
  · have hsub : (s.usedList.erase t).Sublist s.usedList := List.erase_sublist
    have hle := hsub.count_le u
    have hu := h.once u
    show s.freeList.count u + (s.usedList.erase t).count u + s.expired.count u ≤ 1
    omega
  · rw [modify_field (s := { s with usedList := s.usedList.erase t })
      (fun x => x.flags.allocate) hf]
    exact h.free u hu
  · rw [modify_of_ne]
    · exact h.busy u (hbusy u hu)
    · rintro rfl
      exact hoff hu

theorem timerStop_of_mem (h : Placed s) (ht : t ∈ s.usedList) :
    ∃ s', timerStop info ops s t = (s', 0) ∧ Moves s none s' ∧ ¬ Busy s' t := by
  obtain ⟨hmoves, hoff⟩ := h.erase t
    (f := fun x => ((x.setScheduled false).setPeriodic false).setActivate false) rfl ht
  unfold timerStop
  rw [if_neg (by simpa using ht)]
  dsimp only
  split
  · exact ⟨_, rfl, ⟨hmoves.placed.frame ⟨rfl, rfl, rfl, fun _ => rfl⟩, hmoves.busy⟩, hoff⟩
  · rename_i head l hcons
    have hframe : Frame _ (schedTimerIfNew info ops ({ s with
        usedList := s.usedList.erase t }.modify t fun x =>
          ((x.setScheduled false).setPeriodic false).setActivate false) head) :=
      schedTimerIfNew_frame head
    refine ⟨_, rfl, ⟨hmoves.placed.frame hframe, fun u hu => ?_⟩, fun hu => ?_⟩
    · unfold Busy at hu
      rw [hframe.used, hframe.expired] at hu
      exact hmoves.busy u hu
    · unfold Busy at hu
      rw [hframe.used, hframe.expired] at hu
      exact hoff hu

theorem timerStop_moves (h : Placed s) (t : Swt) : Moves s none (timerStop info ops s t).1 := by
  by_cases ht : t ∈ s.usedList
  · obtain ⟨s', hs', hmoves, -⟩ : ∃ s', timerStop info ops s t = (s', 0) ∧ Moves s none s' ∧
        ¬ Busy s' t := timerStop_of_mem h ht
    rw [hs']
    exact hmoves
  · unfold timerStop
    rw [if_pos ht]
    exact h.moves_of_frame (.refl s) _

theorem ccTimerCreate_moves (h : Placed s) : Moves s none (ccTimerCreate s).1 := by
  unfold ccTimerCreate
  split
  · exact h.moves_of_frame (.refl s) _
  · rename_i swt freeList hfree
    obtain ⟨hoff, honce⟩ := off_taken hfree h.once
    have hplaced : Placed { s with freeList := freeList } := by
      refine ⟨honce, fun u hu => h.free u ?_, h.busy⟩
      rw [hfree]
      exact List.mem_cons_of_mem _ hu
    have hcreated := hplaced.modify_off hoff fun x => { x.setAllocStatus true with hwtObj := true }
    exact ⟨hcreated, fun u hu => .inl hu⟩

theorem ccTimerDelete_moves (h : Placed s) (hndl : Option Swt) :
    Moves s none (ccTimerDelete s hndl).1 := by
  unfold ccTimerDelete
  cases hndl with
  | none => exact h.moves_of_frame (.refl s) _
  | some swt =>
    dsimp only
    split
    · exact h.moves_of_frame (.refl s) _
    · rename_i halloc
      have hoff := h.off (Bool.not_eq_false _ ▸ halloc)
      have hplaced := h.modify_off hoff fun x => { x.setAllocStatus false with hwtObj := false }
      refine ⟨⟨hoff.returned h.once, List.forall_mem_cons.2 ⟨?_, hplaced.free⟩, hplaced.busy⟩,
        fun u hu => .inl hu⟩
      show (SwTimer.flags (Function.update s.timers swt _ swt)).allocate = false
      rw [Function.update_self]
      rfl

theorem timerIsr_moves (h : Placed s) (hidle : s.expired = []) :
    Moves s none (timerIsr info ops s) := by
  unfold timerIsr
  split
  · exact h.moves_of_frame handleNext_frame _
  · rename_i hwtCurrent _
    have happ := isolateExpiredSwtList_append (s := s) hwtCurrent s.usedList
    generalize isolateExpiredSwtList s hwtCurrent s.usedList = r at happ ⊢
    obtain ⟨expired, usedList⟩ := r
    dsimp only at happ ⊢
    have hbusy : ∀ u, u ∈ usedList ∨ u ∈ expired → Busy s u := by
      intro u hu
      refine .inl ?_
      rw [← happ]
      exact List.mem_append.2 hu.symm
    have hplaced : Placed { s with expired := expired, usedList := usedList } := by
      refine ⟨fun u => ?_, h.free, fun u hu => h.busy u (hbusy u hu)⟩
      have honce := h.once u
      rw [← happ, hidle, List.count_append, List.count_nil] at honce
      show s.freeList.count u + usedList.count u + expired.count u ≤ 1
      omega
    have hsched : Frame { s with expired := expired, usedList := usedList }
        (schedHead info ops { s with expired := expired, usedList := usedList }) := schedHead_frame
    have hframe := hsched.trans handleNext_frame
    refine ⟨hplaced.frame hframe, fun u hu => .inl (hbusy u ?_)⟩
    unfold Busy at hu
    rwa [hframe.used, hframe.expired] at hu

theorem callbackReturns_moves (h : Placed s) : Moves s none (callbackReturns info ops s) := by
  unfold callbackReturns
  split
  · exact h.moves_of_frame (.refl s) _
  · rename_i t expired hcons
    have hbusy : ∀ u, Busy { s with expired := expired } u → Busy s u := by
      intro u hu
      unfold Busy at hu ⊢
      rw [hcons]
      exact hu.imp_right (List.mem_cons_of_mem _)
    have ht : Busy s t := .inr (by rw [hcons]; exact List.mem_cons_self)
    have hplaced : Placed { s with expired := expired } := by
      refine ⟨fun u => ?_, h.free, fun u hu => h.busy u (hbusy u hu)⟩
      have honce := h.once u
      rw [hcons] at honce
      have hle := List.count_le_count_cons (a := u) (b := t) (l := expired)
      show s.freeList.count u + s.usedList.count u + expired.count u ≤ 1
      omega
    have hoff : Off { s with expired := expired } t := by
      have hcount := h.once t
      rw [hcons, List.count_cons_self] at hcount
      refine ⟨?_, ?_, ?_⟩ <;> exact List.count_eq_zero.1 (by dsimp only; omega)
    have hobj : (s.timers t).hwtObj = true := (h.busy t ht).2
    dsimp only
    split
    · have harm : Added _ t (arm info ops ({ s with expired := expired }.modify t fun x =>
          { x with hwtExpires := calcHwtExpiry info x.hwtExpires x.swInterval }) t) := arm_added _ t
      have hadded := (Added.of_frame (modify_frame rfl) harm).frame handleNext_frame
      have hmoves := hplaced.moves_of_added hoff hobj hadded
      refine ⟨hmoves.placed, fun u hu => .inl ?_⟩
      rcases hmoves.busy u hu with hu | hu
      · exact hbusy u hu
      · cases hu
        exact ht
    · have hmoves := (hplaced.modify_off hoff (·.setActivate false)).moves_of_frame handleNext_frame
        none
      exact ⟨hmoves.placed, fun u hu => .inl (hbusy u ((hmoves.busy u hu).resolve_right nofun))⟩

theorem ccTimerStart_moves (h : Placed s) {hndl : Option Swt} {time : U64Time} {options : UInt32}
    {r : Sys × Int} (hr : ccTimerStart info ops s hndl time options = some r) :
    Moves s hndl r.1 := by
  unfold ccTimerStart at hr
  cases hndl with
  | none =>
    cases hr
    exact h.moves_of_frame (.refl s) _
  | some swt =>
    dsimp only at hr
    split at hr
    · cases hr
    · cases hr
      exact h.moves_of_frame (.refl s) _
    · split at hr
      · rename_i hobj
        cases hr
        exact timerStart_moves h hobj _ _
      · cases hr

theorem ccTimerStop_moves (h : Placed s) {hndl : Option Swt} {r : Sys × Int}
    (hr : ccTimerStop info ops s hndl = some r) : Moves s none r.1 := by
  unfold ccTimerStop at hr
  cases hndl with
  | none =>
    cases hr
    exact h.moves_of_frame (.refl s) _
  | some swt =>
    dsimp only at hr
    split at hr
    · split at hr
      · cases hr
        exact timerStop_moves h swt
      · cases hr
    · cases hr
      exact h.moves_of_frame (.refl s) _

theorem sysStep_moves (h : Placed s) {a : Act} {o : Out} (hs : sysStep info s a = some (s', o)) :
    Placed s' ∧ ∀ t, ¬ a.Starts t → Busy s' t → Busy s t := by
  have hquiet : Moves s none s' → Placed s' ∧ ∀ t, ¬ a.Starts t → Busy s' t → Busy s t :=
    fun hm => ⟨hm.placed, fun t _ ht => (hm.busy t ht).resolve_right nofun⟩
  cases a with
  | create =>
    cases hs
    exact hquiet (ccTimerCreate_moves h)
  | start hndl time options ops =>
    obtain ⟨r, hr, heq⟩ := Option.map_eq_some_iff.1 hs
    obtain ⟨rfl, -⟩ := Prod.mk.inj heq
    obtain ⟨hplaced, hbusy⟩ := ccTimerStart_moves h hr
    exact ⟨hplaced, fun t ht hu => (hbusy t hu).resolve_right ht⟩
  | stop hndl ops =>
    obtain ⟨r, hr, heq⟩ := Option.map_eq_some_iff.1 hs
    obtain ⟨rfl, -⟩ := Prod.mk.inj heq
    exact hquiet (ccTimerStop_moves h hr)
  | delete hndl =>
    cases hs
    exact hquiet (ccTimerDelete_moves h hndl)
  | isr ops =>
    cases hs
    refine hquiet ?_
    split
    · rename_i hidle
      exact timerIsr_moves h hidle
    · exact h.moves_of_frame (.refl s) _
  | ret ops =>
    cases hs
    exact hquiet (callbackReturns_moves h)

theorem callback_busy {a : Act} (h : callback info s a = some t) :
    ∃ s' o, sysStep info s a = some (s', o) ∧ ¬ a.Starts t ∧ Busy s' t := by
  unfold callback at h
  cases hs : sysStep info s a with
  | none =>
    rw [hs] at h
    cases a <;> cases h
  | some r =>
    obtain ⟨s', o⟩ := r
    rw [hs] at h
    refine ⟨s', o, rfl, ?_⟩
    cases a with
    | isr ops =>
      dsimp only at h
      split at h
      · exact ⟨id, .inr (List.mem_of_mem_head? h)⟩
      · cases h
    | ret ops =>
      dsimp only at h
      split at h
      · cases h
      · exact ⟨id, .inr (List.mem_of_mem_head? h)⟩
    | create => cases h
    | start hndl time options ops => cases h
    | stop hndl ops => cases h
    | delete hndl => cases h

/-- A timer that is not busy stays so in a run that does not start it, and its callback is not
called. -/
theorem silent_run {acts : List Act} {os : List Out} (h : Placed s) (ht : ¬ Busy s t)
    (hacts : ∀ a ∈ acts, ¬ a.Starts t) (hrun : runs (sysStep info) s acts = some (s', os)) :
    ∀ a, callback info s' a ≠ some t := by
  have hmeets : Meets (sysStep info) (fun _ a => ¬ a.Starts t) s acts := Meets.of_forall hacts
  have hinv : Placed s' ∧ ¬ Busy s' t := by
    refine hmeets.preserves (I := fun s => Placed s ∧ ¬ Busy s t) ?_ ⟨h, ht⟩ hrun
    intro s i s' o hs hi hstep
    obtain ⟨hplaced, hbusy⟩ := sysStep_moves hs.1 hstep
    exact ⟨hplaced, fun hu => hs.2 (hbusy t hi hu)⟩
  intro a hcall
  obtain ⟨s'', o, hstep, hstarts, hbusy⟩ := callback_busy hcall
  exact hinv.2 ((sysStep_moves hinv.1 hstep).2 t hstarts hbusy)

theorem placed_run {acts : List Act} {os : List Out}
    (hrun : runs (sysStep info) sysInit acts = some (s, os)) : Placed s :=
  runs_preserves (fun hI hstep => (sysStep_moves hI hstep).1) placed_init hrun

end

/-- **When a stop is effective**: in every state that a run leads to, for a timer that is started, if
the timer is on the list of the running ones. -/
theorem stop_effective_iff (info : HwtInfo) (acts : List Act) (s : Sys) (os : List Out)
    (hrun : runs (sysStep info) sysInit acts = some (s, os)) (t : Swt)
    (hstarted : (s.timers t).flags.activate = true) (ops : Ops) :
    StopEffective info s t ops ↔ t ∈ s.usedList := by
  have hplaced := placed_run hrun
  have hhas : (s.timers t).hasStarted = true := by
    unfold SwTimer.hasStarted SwTimer.isAllocOnly
    by_contra hall
    simp only [Bool.not_eq_true', decide_eq_false_iff_not, not_not] at hall
    rw [hall] at hstarted
    cases hstarted
  constructor
  · rintro ⟨s', hstop, -⟩
    by_contra hused
    obtain ⟨r, hr, heq⟩ := Option.map_eq_some_iff.1 hstop
    unfold ccTimerStop at hr
    dsimp only at hr
    rw [if_pos hhas] at hr
    split at hr
    · rw [← Option.some.inj hr] at heq
      unfold timerStop at heq
      rw [if_pos hused] at heq
      exact absurd (Prod.mk.inj heq).2 (by simp)
    · cases hr
  · intro hused
    have hobj := (hplaced.busy t (.inl hused)).2
    obtain ⟨s', hstop, hmoves, hoff⟩ : ∃ s', timerStop info ops s t = (s', 0) ∧
        Moves s none s' ∧ ¬ Busy s' t := timerStop_of_mem hplaced hused
    refine ⟨s', ?_, fun acts s'' os hacts hrun a _ => silent_run hmoves.placed hoff hacts hrun a⟩
    show (ccTimerStop info ops s (some t)).map _ = _
    unfold ccTimerStop
    dsimp only
    rw [if_pos hhas, if_pos hobj, hstop]
    rfl

local instance neZero_twoTimers : NeZero maxSwTimer := ⟨by decide⟩

def twoTimers : List Act :=
  [.create, .create, .start (some 5) ⟨2, 0⟩ 1 ⟨none, true⟩,
    .start (some 4) ⟨2, 0⟩ 0 ⟨some ⟨0, 0⟩, true⟩]

/-- Both can be stopped. -/
theorem stop_effective_two :
    ∃ s os, runs (sysStep ⟨false, false, 1000⟩) sysInit twoTimers = some (s, os) ∧
      StopEffective ⟨false, false, 1000⟩ s 5 ⟨none, true⟩ ∧
      StopEffective ⟨false, false, 1000⟩ s 4 ⟨none, true⟩ :=
  ⟨_, _, rfl,
    (stop_effective_iff ⟨false, false, 1000⟩ twoTimers _ _ rfl 5 rfl ⟨none, true⟩).2 (by decide),
    (stop_effective_iff ⟨false, false, 1000⟩ twoTimers _ _ rfl 4 rfl ⟨none, true⟩).2 (by decide)⟩

/-- The interrupt finds both expired: the callback of the first one stops the second in vain, and
the callback of the second one is called next. -/
theorem stop_not_effective :
    ∃ s os, runs (sysStep ⟨false, false, 1000⟩) sysInit
        (twoTimers ++ [.isr ⟨some ⟨0, 3000⟩, true⟩]) = some (s, os) ∧
      (s.timers 4).flags.activate = true ∧ ¬ StopEffective ⟨false, false, 1000⟩ s 4 ⟨none, true⟩ ∧
      ∃ s', sysStep ⟨false, false, 1000⟩ s (.stop (some 4) ⟨none, true⟩) = some (s', .rv (-1)) ∧
        callback ⟨false, false, 1000⟩ s' (.ret ⟨none, true⟩) = some 4 := by
  refine ⟨_, _, rfl, rfl, ?_, _, rfl, rfl⟩
  rintro ⟨s', hstop, -⟩
  cases hstop

end SimpleLink.Timer.CcTimer
