import SimpleLink.Lib.PtrList

/-!
# Wait lists of packets (`mqtt_common.c`, `client_mgmt.c`)

A packet that waits for its acknowledgement is in a `mqtt_ack_wlist`, by a link of its own. There are as
many lists as there are clients, and the two of the server; what is in none of them may be used for
anything else. Over them: first in, first out, but for the packets that are taken out by their identifier.
-/

namespace SimpleLink.Mqtt.WaitList

open Lib

/-- `struct mqtt_ack_wlist`. -/
structure MqttAckWlist (C : Type) where
  head : Option C
  tail : Option C

/-- The packets `C`, and the lists `W`. -/
structure Packets (C W : Type) where
  next : C → Option C
  msgId : C → UInt16
  wl : W → MqttAckWlist C

variable {C W : Type} [DecidableEq C] [DecidableEq W]

/-! ## The functions -/

def Packets.setNext (s : Packets C W) (p : C) (next : Option C) : Packets C W :=
  { s with next := Function.update s.next p next }

def Packets.setHead (s : Packets C W) (w : W) (head : Option C) : Packets C W :=
  { s with wl := Function.update s.wl w { s.wl w with head := head } }

def Packets.setTail (s : Packets C W) (w : W) (tail : Option C) : Packets C W :=
  { s with wl := Function.update s.wl w { s.wl w with tail := tail } }

/-- `mqp_ack_wlist_append`. -/
def Packets.append (s : Packets C W) (w : W) (elem : C) : Packets C W :=
  let s := s.setNext elem none
  match (s.wl w).tail with
  | some tail => (s.setNext tail (some elem)).setTail w (some elem)
  | none => (s.setTail w (some elem)).setHead w (some elem)

/-- `wl_remove`. -/
def Packets.wlRemove (s : Packets C W) (w : W) (prev : Option C) (elem : C) : Packets C W :=
  let s := match prev with
    | some prev => s.setNext prev (s.next elem)
    | none => s.setHead w (s.next elem)
  let s := if (s.wl w).head = none then s.setTail w none else s
  if (s.wl w).tail = some elem then s.setTail w prev else s

/-- `mqp_ack_wlist_remove`; there is no outcome where the list has no end. -/
def Packets.remove [Fintype C] (s : Packets C W) (w : W) (msgId : UInt16) :
    Option (Option C × Packets C W) :=
  (seek s.next (fun elem => msgId == s.msgId elem) (Fintype.card C) none (s.wl w).head).map
    fun (prev, elem) =>
      match elem with
      | none => (none, s)
      | some elem =>
        let s := match prev with
          | some prev => s.setNext prev (s.next elem)
          | none => s.setHead w (s.next elem)
        let s := if (s.wl w).head = none then s.setTail w none else s
        (some elem, if (s.wl w).tail = some elem then s.setTail w prev else s)

/-- The loop of `mqp_ack_wlist_purge`: the packets in the order in which they are given to `free_mqp`. -/
def purgeLoop (next : C → Option C) : Nat → Option C → Option (List C)
  | _, none => some []
  | 0, some _ => none
  | n + 1, some elem => (purgeLoop next n (next elem)).map (elem :: ·)

/-- `mqp_ack_wlist_purge`. -/
def Packets.purge [Fintype C] (s : Packets C W) (w : W) : Option (List C × Packets C W) :=
  (purgeLoop s.next (Fintype.card C) (s.wl w).head).map fun freed =>
    (freed, (s.setHead w none).setTail w none)

/-! ## What is expected -/

/-- The lists as lists. -/
structure Fifos (C W : Type) where
  items : W → List C
  msgId : C → UInt16

/-- What can happen. `write` is the use of a packet that is in no list. -/
inductive Op (C W : Type) where
  | append (w : W) (elem : C)
  | remove (w : W) (msgId : UInt16)
  | purge (w : W)
  | wlRemove (w : W) (prev : Option C) (elem : C)
  | write (elem : C) (next : Option C) (msgId : UInt16)

/-- What is given back: the packet that was removed, or those that were freed. -/
inductive Out (C : Type) where
  | none
  | removed (elem : Option C)
  | freed (elems : List C)

def Packets.step [Fintype C] (s : Packets C W) : Op C W → Option (Out C × Packets C W)
  | .append w elem => some (.none, s.append w elem)
  | .remove w msgId => (s.remove w msgId).map fun (elem, s) => (.removed elem, s)
  | .purge w => (s.purge w).map fun (freed, s) => (.freed freed, s)
  | .wlRemove w prev elem => some (.none, s.wlRemove w prev elem)
  | .write elem next msgId =>
    some (.none, ⟨Function.update s.next elem next, Function.update s.msgId elem msgId, s.wl⟩)

def Fifos.set (q : Fifos C W) (w : W) (l : List C) : Fifos C W :=
  { q with items := Function.update q.items w l }

def Fifos.step (q : Fifos C W) : Op C W → Out C × Fifos C W
  | .append w elem => (.none, q.set w (q.items w ++ [elem]))
  | .remove w msgId =>
    let p := fun elem => msgId == q.msgId elem
    (.removed ((q.items w).find? p), q.set w ((q.items w).eraseP p))
  | .purge w => (.freed (q.items w), q.set w [])
  | .wlRemove w _ elem => (.none, q.set w ((q.items w).erase elem))
  | .write elem _ msgId => (.none, { q with msgId := Function.update q.msgId elem msgId })

/-- A packet is appended, or used for something else, only if it is in no list; `wl_remove` is given a
packet of the list and the one before it. -/
def Allowed (q : Fifos C W) : Op C W → Prop
  | .append _ elem => ∀ w, elem ∉ q.items w
  | .remove _ _ => True
  | .purge _ => True
  | .wlRemove w prev elem => ∃ a b, q.items w = a ++ elem :: b ∧ prev = a.getLast?
  | .write elem _ _ => ∀ w, elem ∉ q.items w

/-- The links are those of the lists: each ends in the null link, and its tail is its last packet. -/
structure Represents (s : Packets C W) (q : Fifos C W) : Prop where
  linked : ∀ w, Linked s.next (s.wl w).head (q.items w)
  tail : ∀ w, (s.wl w).tail = (q.items w).getLast?
  apart : ∀ w w', w ≠ w' → (q.items w).Disjoint (q.items w')
  msgId : s.msgId = q.msgId

/-! ## Steps -/

section Steps

variable {s s' : Packets C W} {q : Fifos C W} {w : W} {a b l : List C} {elem : C}

omit [DecidableEq C] in
theorem Represents.replace (h : Represents s q) (hnext : ∀ w', w' ≠ w → ∀ c ∈ q.items w', s'.next c = s.next c)
    (hwl : ∀ w', w' ≠ w → s'.wl w' = s.wl w') (hmsg : s'.msgId = s.msgId)
    (hlinked : Linked s'.next (s'.wl w).head l) (htail : (s'.wl w).tail = l.getLast?)
    (hapart : ∀ w', w' ≠ w → l.Disjoint (q.items w')) : Represents s' (q.set w l) := by
  have hself : (q.set w l).items w = l := Function.update_self ..
  have hother (w' : W) (hw : w' ≠ w) : (q.set w l).items w' = q.items w' := Function.update_of_ne hw ..
  refine ⟨fun w' => ?_, fun w' => ?_, fun w₁ w₂ hne => ?_, hmsg.trans h.msgId⟩
  · by_cases hw : w' = w
    · rw [hw, hself]
      exact hlinked
    · rw [hother w' hw, hwl w' hw]
      exact (h.linked w').congr (hnext w' hw)
  · by_cases hw : w' = w
    · rw [hw, hself]
      exact htail
    · rw [hother w' hw, hwl w' hw]
      exact h.tail w'
  · by_cases h₁ : w₁ = w
    · rw [h₁, hself, hother w₂ fun he => hne (h₁.trans he.symm)]
      exact hapart w₂ fun he => hne (h₁.trans he.symm)
    · by_cases h₂ : w₂ = w
      · rw [h₂, hself, hother w₁ h₁]
        exact (hapart w₁ h₁).symm
      · rw [hother w₁ h₁, hother w₂ h₂]
        exact h.apart w₁ w₂ hne

theorem append_represents (h : Represents s q) (hnew : ∀ w, elem ∉ q.items w) :
    Represents (s.append w elem) (q.set w (q.items w ++ [elem])) := by
  have hl : Linked (Function.update s.next elem none) (s.wl w).head (q.items w) :=
    (h.linked w).update (hnew w) none
  have hnull : Function.update s.next elem none elem = none := Function.update_self ..
  have hapart (w' : W) (hw : w' ≠ w) : (q.items w ++ [elem]).Disjoint (q.items w') := by
    rw [List.disjoint_append_left]
    exact ⟨h.apart w w' hw.symm, List.singleton_disjoint.2 (hnew w')⟩
  have hext := hl.extend (hnew w)
  rw [hnull] at hext
  have hother (c : C) (w' : W) (hc : c ∈ q.items w') : c ≠ elem := fun he => hnew w' (he ▸ hc)
  unfold Packets.append
  rcases hext with ⟨hnil, hone⟩ | ⟨l₀, p, hsplit, hpath⟩
  · have htail : (s.wl w).tail = none := by rw [h.tail w, hnil]; rfl
    dsimp only [Packets.setNext]
    rw [htail]
    refine h.replace (fun w' _ c hc => Function.update_of_ne (hother c w' hc) ..) (fun w' hw => ?_) rfl ?_ ?_
      hapart
    · simp only [Packets.setHead, Packets.setTail, Function.update_of_ne hw]
    · simp only [Packets.setHead, Packets.setTail, Function.update_self, hnil, List.nil_append]
      exact hone
    · simp only [Packets.setHead, Packets.setTail, Function.update_self, hnil]
      rfl
  · have htail : (s.wl w).tail = some p := by rw [h.tail w, hsplit, List.getLast?_concat]
    have hp : p ∈ q.items w := hsplit ▸ List.mem_append_right l₀ (List.mem_singleton_self p)
    dsimp only [Packets.setNext]
    rw [htail]
    refine h.replace (fun w' hw c hc => ?_) (fun w' hw => ?_) rfl ?_ ?_ hapart
    · have hcp : c ≠ p := fun he => h.apart w w' hw.symm hp (he ▸ hc)
      exact (Function.update_of_ne hcp ..).trans (Function.update_of_ne (hother c w' hc) ..)
    · exact Function.update_of_ne hw ..
    · simp only [Packets.setTail, Function.update_self]
      exact hpath
    · simp only [Packets.setTail, Function.update_self]
      rw [List.getLast?_concat]

/-- A packet is taken out from behind `prev`. -/
theorem wlRemove_represents (h : Represents s q) (hsplit : q.items w = a ++ elem :: b) :
    Represents (s.wlRemove w a.getLast? elem) (q.set w (a ++ b)) := by
  have hlinked := h.linked w
  have htail := h.tail w
  rw [hsplit] at hlinked htail
  have hnodup := hlinked.nodup
  have hapart (w' : W) (hw : w' ≠ w) : (a ++ b).Disjoint (q.items w') := fun c hc hc' => by
    refine h.apart w w' hw.symm ?_ hc'
    rw [hsplit]
    rw [List.mem_append] at hc ⊢
    exact hc.imp_right (List.mem_cons_of_mem elem)
  -- what the first step does to the links and the head
  obtain ⟨s₁, hs₁, hfirst, hnext, hwl, hmsg, htail₁⟩ : ∃ s₁ : Packets C W,
      (match a.getLast? with
        | some prev => s.setNext prev (s.next elem)
        | none => s.setHead w (s.next elem)) = s₁ ∧ Linked s₁.next (s₁.wl w).head (a ++ b) ∧
      (∀ w', w' ≠ w → ∀ c ∈ q.items w', s₁.next c = s.next c) ∧
      (∀ w', w' ≠ w → s₁.wl w' = s.wl w') ∧ s₁.msgId = s.msgId ∧ (s₁.wl w).tail = (s.wl w).tail := by
    rcases Linked.unlink hlinked with ⟨rfl, hl⟩ | ⟨l₀, p, rfl, hl⟩
    · refine ⟨_, rfl, ?_, fun w' _ c _ => rfl, fun w' hw => Function.update_of_ne hw .., rfl, ?_⟩
      · simp only [List.getLast?_nil, Packets.setHead, Function.update_self]
        exact hl
      · simp only [List.getLast?_nil, Packets.setHead, Function.update_self]
    · rw [List.getLast?_concat]
      refine ⟨_, rfl, hl, fun w' hw c hc => Function.update_of_ne ?_ .., fun w' hw => rfl, rfl, rfl⟩
      rintro rfl
      refine h.apart w w' hw.symm ?_ hc
      rw [hsplit]
      simp
  unfold Packets.wlRemove
  rw [hs₁]
  dsimp only
  by_cases hnil : (s₁.wl w).head = none
  · have hab : a ++ b = [] := hfirst.nil_iff.1 hnil
    rw [if_pos hnil]
    have hnone : ((s₁.setTail w none).wl w).tail ≠ some elem := by
      simp only [Packets.setTail, Function.update_self]
      exact nofun
    rw [if_neg hnone]
    refine h.replace hnext (fun w' hw => ?_) hmsg ?_ ?_ hapart
    · rw [← hwl w' hw]
      exact Function.update_of_ne hw ..
    · simp only [Packets.setTail, Function.update_self]
      exact hfirst
    · simp only [Packets.setTail, Function.update_self, hab]
      rfl
  · rw [if_neg hnil]
    have hab : a ++ b ≠ [] := fun he => hnil (hfirst.nil_iff.2 he)
    by_cases hb : b = []
    · -- the last packet of the list
      subst hb
      have hlast : (s₁.wl w).tail = some elem := by rw [htail₁, htail, List.getLast?_concat]
      rw [if_pos hlast]
      refine h.replace hnext (fun w' hw => ?_) hmsg ?_ ?_ hapart
      · rw [← hwl w' hw]
        exact Function.update_of_ne hw ..
      · simp only [Packets.setTail, Function.update_self]
        exact hfirst
      · simp only [Packets.setTail, Function.update_self, List.append_nil]
    · have hlast : (a ++ elem :: b).getLast? = (a ++ b).getLast? := by
        rw [List.getLast?_append_of_ne_nil _ (List.cons_ne_nil _ _), List.getLast?_append_of_ne_nil _ hb,
          List.getLast?_cons_of_ne_nil hb]
      have hkeep : (s₁.wl w).tail ≠ some elem := fun he => by
        rw [htail₁, htail, hlast] at he
        exact (List.nodup_middle.1 hnodup).notMem (List.mem_of_getLast? he)
      rw [if_neg hkeep]
      exact h.replace hnext hwl hmsg hfirst (by rw [htail₁, htail, hlast]) hapart

omit [DecidableEq C] in
theorem Fifos.set_self (q : Fifos C W) (w : W) : q.set w (q.items w) = q := by
  unfold Fifos.set
  rw [Function.update_eq_self]

variable [Fintype C]

theorem remove_represents (h : Represents s q) (msgId : UInt16) :
    ∃ s', s.remove w msgId = some ((q.items w).find? (fun elem => msgId == q.msgId elem), s') ∧
      Represents s' (q.set w ((q.items w).eraseP (fun elem => msgId == q.msgId elem))) := by
  have hlinked := h.linked w
  have hlen := Linked.length_le hlinked
  unfold Packets.remove
  rw [h.msgId]
  cases hf : (q.items w).find? (fun elem => msgId == q.msgId elem) with
  | none =>
    have hp : ∀ c ∈ q.items w, (msgId == q.msgId c) = false := fun c hc =>
      Bool.eq_false_iff.2 (List.find?_eq_none.1 hf c hc)
    have hstay : (q.items w).eraseP (fun elem => msgId == q.msgId elem) = q.items w :=
      List.eraseP_of_forall_not fun c hc => by rw [hp c hc]; exact Bool.false_ne_true
    rw [Linked.seek_end hlinked hlen hp, hstay, Fifos.set_self]
    exact ⟨s, rfl, h⟩
  | some elem =>
    obtain ⟨hc, a, b, hsplit, ha⟩ := List.find?_eq_some_iff_append.1 hf
    have hpass : ∀ c ∈ a, (msgId == q.msgId c) = false := fun c hc => by
      have hnot := ha c hc
      rwa [Bool.not_eq_true'] at hnot
    rw [hsplit] at hlinked hlen ⊢
    rw [Linked.seek_found hlinked hlen hpass hc]
    have herase : (a ++ elem :: b).eraseP (fun elem => msgId == q.msgId elem) = a ++ b := by
      rw [List.eraseP_append_right _ fun c hc => by rw [hpass c hc]; exact Bool.false_ne_true]
      exact congrArg (a ++ ·) (List.eraseP_cons_of_pos hc)
    rw [herase]
    exact ⟨_, rfl, wlRemove_represents h hsplit⟩

omit [DecidableEq C] [Fintype C] in
theorem purgeLoop_eq {next : C → Option C} {h : Option C} (hl : Linked next h l) {n : Nat} (hn : l.length ≤ n) :
    purgeLoop next n h = some l := by
  induction l generalizing h n with
  | nil =>
    obtain rfl : h = none := hl
    cases n <;> rfl
  | cons c l ih =>
    obtain ⟨rfl, hl⟩ := hl
    cases n with
    | zero => cases hn
    | succ n =>
      rw [purgeLoop, ih hl (Nat.le_of_succ_le_succ hn)]
      rfl

omit [DecidableEq C] in
theorem purge_represents (h : Represents s q) :
    ∃ s', s.purge w = some (q.items w, s') ∧ Represents s' (q.set w []) := by
  unfold Packets.purge
  rw [purgeLoop_eq (h.linked w) (Linked.length_le (h.linked w))]
  refine ⟨_, rfl, h.replace (fun _ _ _ _ => rfl) (fun w' hw => ?_) rfl ?_ ?_ fun _ _ => List.disjoint_nil_left _⟩
  · simp only [Packets.setHead, Packets.setTail, Function.update_of_ne hw]
  · simp only [Packets.setHead, Packets.setTail, Function.update_self]
    rfl
  · simp only [Packets.setHead, Packets.setTail, Function.update_self]
    rfl

omit [DecidableEq W] [Fintype C] in
theorem write_represents (h : Represents s q) (hout : ∀ w, elem ∉ q.items w) (next : Option C)
    (msgId : UInt16) :
    Represents ⟨Function.update s.next elem next, Function.update s.msgId elem msgId, s.wl⟩
      { q with msgId := Function.update q.msgId elem msgId } :=
  ⟨fun w => (h.linked w).update (hout w) next, h.tail, h.apart, by rw [h.msgId]⟩

theorem step_represents (h : Represents s q) {op : Op C W} (hop : Allowed q op) :
    ∃ s', s.step op = some ((q.step op).1, s') ∧ Represents s' (q.step op).2 := by
  cases op with
  | append w elem => exact ⟨_, rfl, append_represents h hop⟩
  | remove w msgId =>
    obtain ⟨s', hs', hr⟩ := @remove_represents _ _ _ _ s q w _ h msgId
    refine ⟨s', ?_, hr⟩
    rw [Packets.step, hs']
    rfl
  | purge w =>
    obtain ⟨s', hs', hr⟩ : ∃ s', s.purge w = some (q.items w, s') ∧ Represents s' (q.set w []) :=
      purge_represents h
    refine ⟨s', ?_, hr⟩
    rw [Packets.step, hs']
    rfl
  | wlRemove w prev elem =>
    obtain ⟨a, b, hsplit, rfl⟩ := hop
    have ha : elem ∉ a := fun hm => by
      have hnodup := (h.linked w).nodup
      rw [hsplit] at hnodup
      exact (List.nodup_append.1 hnodup).2.2 elem hm elem List.mem_cons_self rfl
    have herase : (q.items w).erase elem = a ++ b := by
      rw [hsplit, List.erase_append_right _ ha, List.erase_cons_head]
    refine ⟨_, rfl, ?_⟩
    rw [Fifos.step, herase]
    exact wlRemove_represents h hsplit
  | write elem next msgId => exact ⟨_, rfl, write_represents h hop next msgId⟩

end Steps

/-! ## Runs -/

section Runs

variable [Fintype C]

def Packets.run (s : Packets C W) : List (Op C W) → Option (List (Out C) × Packets C W)
  | [] => some ([], s)
  | op :: ops => do
    let (out, s) ← s.step op
    let (outs, s) ← s.run ops
    some (out :: outs, s)

omit [Fintype C] in
def Fifos.run (q : Fifos C W) : List (Op C W) → List (Out C) × Fifos C W
  | [] => ([], q)
  | op :: ops =>
    let (out, q) := q.step op
    let (outs, q) := q.run ops
    (out :: outs, q)

def AllowedRun (q : Fifos C W) : List (Op C W) → Prop
  | [] => True
  | op :: ops => Allowed q op ∧ AllowedRun (q.step op).2 ops

/-- Before the first step: all lists are empty. -/
def noLists (next : C → Option C) (msgId : C → UInt16) : Packets C W := ⟨next, msgId, fun _ => ⟨none, none⟩⟩

def noItems (msgId : C → UInt16) : Fifos C W := ⟨fun _ => [], msgId⟩

theorem run_represents {s : Packets C W} {q : Fifos C W} (h : Represents s q) (ops : List (Op C W))
    (hops : AllowedRun q ops) :
    ∃ s', s.run ops = some ((q.run ops).1, s') ∧ Represents s' (q.run ops).2 := by
  induction ops generalizing s q with
  | nil => exact ⟨s, rfl, h⟩
  | cons op ops ih =>
    obtain ⟨s₁, hs₁, h₁⟩ := step_represents h hops.1
    obtain ⟨s₂, hs₂, h₂⟩ := ih h₁ hops.2
    refine ⟨s₂, ?_, h₂⟩
    rw [Packets.run, hs₁]
    simp only [Option.bind_eq_bind, Option.bind_some]
    rw [hs₂]
    rfl

theorem freed_nodup {s : Packets C W} {q : Fifos C W} (h : Represents s q) (ops : List (Op C W))
    (hops : AllowedRun q ops) {elems : List C} (hout : .freed elems ∈ (q.run ops).1) : elems.Nodup := by
  induction ops generalizing s q with
  | nil => cases hout
  | cons op ops ih =>
    obtain ⟨s₁, hs₁, h₁⟩ := step_represents h hops.1
    rcases List.mem_cons.1 hout with he | hout
    · cases op with
      | purge w =>
        obtain rfl := Out.freed.inj he
        exact (h.linked w).nodup
      | append w elem => cases he
      | remove w msgId => cases he
      | wlRemove w prev elem => cases he
      | write elem next msgId => cases he
    · exact ih h₁ hops.2 hout

/-- In every run each list is a chain from its head to its tail, without a packet twice, and does what a
list does that is first in, first out; a purge frees each packet of the list once. -/
theorem wait_lists (next : C → Option C) (msgId : C → UInt16) (ops : List (Op C W))
    (hops : AllowedRun (noItems msgId) ops) :
    ∃ s, (noLists next msgId).run ops = some (((noItems msgId).run ops).1, s) ∧
      Represents s ((noItems msgId).run ops).2 ∧ (∀ w, (((noItems msgId).run ops).2.items w).Nodup) ∧
      ∀ elems, .freed elems ∈ ((noItems msgId : Fifos C W).run ops).1 → elems.Nodup := by
  have hstart : Represents (noLists next msgId : Packets C W) (noItems msgId) :=
    ⟨fun _ => rfl, fun _ => rfl, fun _ _ _ => List.disjoint_nil_left _, rfl⟩
  obtain ⟨s, hs, hr⟩ := run_represents hstart ops hops
  exact ⟨s, hs, hr, fun w => (hr.linked w).nodup, fun elems => freed_nodup hstart ops hops⟩

/-- The tail is right again after the last packet was removed: what is appended then is not lost. -/
theorem wait_lists_tail : ∃ s : Packets (Fin 2) Unit,
    (noLists (fun _ => none) fun p => if p = 0 then 7 else 9).run
        [.append () 0, .append () 1, .remove () 9, .append () 1, .remove () 5, .purge ()] =
      some ([.none, .none, .removed (some 1), .none, .removed none, .freed [0, 1]], s) := by
  have hops : AllowedRun (noItems fun p : Fin 2 => if p = 0 then 7 else 9)
      [.append () 0, .append () 1, .remove () 9, .append () 1, .remove () 5, .purge ()] := by
    refine ⟨fun _ => ?_, fun _ => ?_, trivial, fun _ => ?_, trivial, trivial, trivial⟩
    · exact List.not_mem_nil
    · exact (by decide : (1 : Fin 2) ∉ [0])
    · exact (by decide : (1 : Fin 2) ∉ [0])
  obtain ⟨s, hs, -⟩ := wait_lists (fun _ => none) (fun p : Fin 2 => if p = 0 then 7 else 9) _ hops
  exact ⟨s, hs⟩

end Runs

end SimpleLink.Mqtt.WaitList
