import SimpleLink.Driver.MsgRead

/-!
# The object that waits for a message (`_SlFindAndSetActiveObj`)

The walk along the active list compares the opcode of the message with what each object waits for: an
object of the family mark takes the IPv6 variant for the IPv4 one. The opcode without the IPv6 bit is
kept for the objects behind, and each object that is not a receiver of the socket is looked up in
`_SlActionLookupTable`, which has no entry for `RECV_ID`. `findActive_right_iff` says when this makes
no difference.
-/

namespace SimpleLink.Driver

open Lib

/-! ## The walk -/

/-- The loop of `_SlFindAndSetActiveObj` with the actions that it looks up in the table. -/
def slFindWalk (behind : Nat → Nat) (pool : ObjPool) (sd : Nat) :
    Nat → Nat → Nat → Option (Option Nat × List Nat)
  | 0, _, _ => none
  | fuel + 1, activeIndex, opcode =>
    if maxConcurrentActions > activeIndex then
      match pool.obj activeIndex with
      | none => none
      | some obj =>
        let opcode := if obj.additionalData &&& 0x80 ≠ 0 then opcode &&& (0xFFFF - slOpcodeIpv6)
          else opcode
        if obj.actionID = SlActionId.recv.id ∧ sd = obj.additionalData ∧ isRecvOpcode opcode then
          some (some activeIndex, [])
        else if actionAsyncOpcode behind obj.actionID = opcode ∧
            ((sd = obj.additionalData &&& bsdSocketIdMask ∧ slMaxSockets > sd) ∨
              slMaxSockets = obj.additionalData &&& bsdSocketIdMask) then
          some (some activeIndex, [obj.actionID])
        else
          (slFindWalk behind pool sd fuel obj.nextIndex opcode).map fun r =>
            (r.1, obj.actionID :: r.2)
    else some (none, [])

theorem slFindWalk_fst (behind : Nat → Nat) (pool : ObjPool) (sd fuel activeIndex opcode : Nat) :
    slFindAndSetActiveObjFrom behind pool sd fuel activeIndex opcode =
      (slFindWalk behind pool sd fuel activeIndex opcode).map Prod.fst := by
  induction fuel generalizing activeIndex opcode with
  | zero => rfl
  | succ fuel ih =>
    simp only [slFindAndSetActiveObjFrom, slFindWalk]
    by_cases hi : maxConcurrentActions > activeIndex
    · simp only [if_pos hi]
      cases pool.obj activeIndex with
      | none => rfl
      | some obj =>
        dsimp only
        generalize (if obj.additionalData &&& 0x80 ≠ 0 then _ else opcode) = op
        split
        · rfl
        · split
          · rfl
          · rw [ih, Option.map_map]
            rfl
    · simp only [if_neg hi]
      rfl

/-! ## The objects of the list -/

/-- `Opcode &= ~SL_OPCODE_IPV6`. -/
def v4Opcode (opcode : Nat) : Nat := opcode &&& (0xFFFF - slOpcodeIpv6)

theorem v4Opcode_v4Opcode (opcode : Nat) : v4Opcode (v4Opcode opcode) = v4Opcode opcode := by
  unfold v4Opcode
  rw [Nat.and_assoc, Nat.and_self]

/-- `AdditionalData & SL_NETAPP_FAMILY_MASK`. -/
abbrev SlPoolObj.marked (obj : SlPoolObj) : Prop := obj.additionalData &&& 0x80 ≠ 0

/-- The receive action of the socket, and a message with received data. -/
abbrev SlPoolObj.receives (obj : SlPoolObj) (opcode sd : Nat) : Prop :=
  obj.actionID = SlActionId.recv.id ∧ sd = obj.additionalData ∧ isRecvOpcode opcode

/-- The socket of the action, if it has one. -/
abbrev SlPoolObj.ofSocket (obj : SlPoolObj) (sd : Nat) : Prop :=
  (sd = obj.additionalData &&& bsdSocketIdMask ∧ slMaxSockets > sd) ∨
    slMaxSockets = obj.additionalData &&& bsdSocketIdMask

def ObjPool.objs (pool : ObjPool) (l : List Nat) : List (Nat × SlPoolObj) :=
  l.filterMap fun i => (pool.obj i).map fun obj => (i, obj)

def walkObjs (behind : Nat → Nat) (sd : Nat) : List (Nat × SlPoolObj) → Nat → Option Nat × List Nat
  | [], _ => (none, [])
  | (i, obj) :: os, opcode =>
    let opcode := if obj.marked then v4Opcode opcode else opcode
    if obj.receives opcode sd then (some i, [])
    else if actionAsyncOpcode behind obj.actionID = opcode ∧ obj.ofSocket sd then
      (some i, [obj.actionID])
    else ((walkObjs behind sd os opcode).1, obj.actionID :: (walkObjs behind sd os opcode).2)

theorem objs_cons {pool : ObjPool} {i : Nat} {obj : SlPoolObj} (h : pool.obj i = some obj)
    (l : List Nat) : pool.objs (i :: l) = (i, obj) :: pool.objs l := by
  unfold ObjPool.objs
  rw [List.filterMap_cons_some]
  rw [h, Option.map_some]

theorem mem_objs {pool : ObjPool} {l : List Nat} {i : Nat} {obj : SlPoolObj} :
    (i, obj) ∈ pool.objs l ↔ i ∈ l ∧ pool.obj i = some obj := by
  unfold ObjPool.objs
  simp only [List.mem_filterMap, Option.map_eq_some_iff, Prod.mk.injEq]
  constructor
  · rintro ⟨j, hj, o, ho, rfl, rfl⟩
    exact ⟨hj, ho⟩
  · rintro ⟨hi, ho⟩
    exact ⟨i, hi, obj, ho, rfl, rfl⟩

theorem slFindWalk_chain {pool : ObjPool} {i : Nat} {l : List Nat} (h : PoolChain pool i l)
    {fuel : Nat} (hf : l.length < fuel) (behind : Nat → Nat) (sd opcode : Nat) :
    slFindWalk behind pool sd fuel i opcode = some (walkObjs behind sd (pool.objs l) opcode) := by
  induction h generalizing fuel opcode with
  | nil =>
    obtain ⟨fuel, rfl⟩ := Nat.exists_eq_succ_of_ne_zero (by omega : fuel ≠ 0)
    rfl
  | @cons i x l hx hi _ ih =>
    obtain ⟨fuel, rfl⟩ := Nat.exists_eq_succ_of_ne_zero (by omega : fuel ≠ 0)
    rw [List.length_cons] at hf
    rw [objs_cons hx]
    simp only [slFindWalk, walkObjs, gt_iff_lt, hi, if_true, hx, v4Opcode, SlPoolObj.marked,
      SlPoolObj.receives, SlPoolObj.ofSocket]
    generalize (if x.additionalData &&& 0x80 ≠ 0 then _ else opcode) = op
    rw [ih (by omega : l.length < fuel) op, Option.map_some]
    split
    · rfl
    · split <;> rfl

/-! ## What a message is for -/

def Tabled (actionID : Nat) : Prop :=
  slMaxSockets ≤ actionID ∧ actionID < slMaxSockets + slActionLookupTable.length

instance (actionID : Nat) : Decidable (Tabled actionID) := inferInstanceAs (Decidable (_ ∧ _))

/-- The object answers to an opcode: it receives, or the opcode is the one of its action. -/
def SlPoolObj.answers (obj : SlPoolObj) (opcode sd : Nat) : Prop :=
  obj.receives opcode sd ∨ slMaxSockets ≤ obj.actionID ∧
    slActionLookupTable[obj.actionID - slMaxSockets]? = some opcode ∧ obj.ofSocket sd

/-- The object waits for the message. With the family mark it takes the IPv6 variant of its response;
so does an accept, whose response says which family it is of. -/
def SlPoolObj.awaits (obj : SlPoolObj) (opcode sd : Nat) : Prop :=
  obj.answers (if obj.marked ∨ obj.actionID = SlActionId.accept.id then v4Opcode opcode else opcode) sd

instance (obj : SlPoolObj) (opcode sd : Nat) : Decidable (obj.answers opcode sd) :=
  inferInstanceAs (Decidable (_ ∨ _))

instance (obj : SlPoolObj) (opcode sd : Nat) : Decidable (obj.awaits opcode sd) :=
  inferInstanceAs (Decidable (SlPoolObj.answers _ _ _))

/-- The opcode that an object is compared with, `pre` being the objects before it. -/
def heardOpcode (pre : List (Nat × SlPoolObj)) (obj : SlPoolObj) (opcode : Nat) : Nat :=
  if (∃ p ∈ pre, p.2.marked) ∨ obj.marked then v4Opcode opcode else opcode

def OneAwaits (os : List (Nat × SlPoolObj)) (opcode sd : Nat) : Prop :=
  ∀ p ∈ os, ∀ q ∈ os, p.2.awaits opcode sd → q.2.awaits opcode sd → p.1 = q.1

/-- Each object that the walk comes to, after those of `before`, answers to the opcode it is compared
with exactly if it waits for the message, and has an entry in the table if it does not wait. -/
def Told (before os : List (Nat × SlPoolObj)) (opcode sd : Nat) : Prop :=
  ∀ pre i obj post, os = pre ++ (i, obj) :: post → (∀ p ∈ pre, ¬ p.2.awaits opcode sd) →
    (obj.answers (heardOpcode (before ++ pre) obj opcode) sd ↔ obj.awaits opcode sd) ∧
      (Tabled obj.actionID ∨ obj.awaits opcode sd)

/-- The walk comes back with the object that waits, whatever else is in the list, and looks up actions
of the table only. -/
def WalkRight (r : Option Nat × List Nat) (os : List (Nat × SlPoolObj)) (opcode sd : Nat) : Prop :=
  (∀ i, r.1 = some i ↔ ∃ obj, (i, obj) ∈ os ∧ obj.awaits opcode sd) ∧ ∀ id ∈ r.2, Tabled id

/-! ## One object -/

theorem heardOpcode_step (before : List (Nat × SlPoolObj)) (obj : SlPoolObj) (opcode : Nat) :
    (if obj.marked then
        v4Opcode (if ∃ p ∈ before, p.2.marked then v4Opcode opcode else opcode)
      else if ∃ p ∈ before, p.2.marked then v4Opcode opcode else opcode) =
      heardOpcode before obj opcode := by
  unfold heardOpcode
  by_cases hbefore : ∃ p ∈ before, p.2.marked
  · simp only [if_pos hbefore, v4Opcode_v4Opcode, ite_self, if_pos (Or.inl hbefore)]
  · simp only [hbefore, false_or, if_false]

theorem marked_snoc (before : List (Nat × SlPoolObj)) (i : Nat) (obj : SlPoolObj) (opcode : Nat) :
    (if ∃ p ∈ before ++ [(i, obj)], p.2.marked then v4Opcode opcode else opcode) =
      heardOpcode before obj opcode := by
  unfold heardOpcode
  congr 1
  simp only [List.mem_append, List.mem_singleton, or_and_right, exists_or, exists_eq_left]

theorem actionAsyncOpcode_tabled {actionID : Nat} (h : Tabled actionID) (behind : Nat → Nat)
    (opcode : Nat) : actionAsyncOpcode behind actionID = opcode ↔
      slMaxSockets ≤ actionID ∧ slActionLookupTable[actionID - slMaxSockets]? = some opcode := by
  obtain ⟨hlo, hhi⟩ := h
  have hlt : actionID - slMaxSockets < slActionLookupTable.length := by omega
  unfold actionAsyncOpcode
  rw [if_pos hlo, List.getElem?_eq_getElem hlt, Option.getD_some, Option.some.injEq]
  exact ⟨fun h => ⟨hlo, h⟩, fun h => h.2⟩

theorem receives_of_answers {obj : SlPoolObj} (h : ¬ Tabled obj.actionID) {opcode sd : Nat}
    (ha : obj.answers opcode sd) : obj.receives opcode sd := by
  refine ha.resolve_right ?_
  rintro ⟨hlo, hentry, -⟩
  refine h ⟨hlo, ?_⟩
  have hlt := (List.getElem?_eq_some_iff.1 hentry).1
  omega

theorem walkObjs_mem {behind : Nat → Nat} {sd i : Nat} {os : List (Nat × SlPoolObj)} {opcode : Nat}
    (h : (walkObjs behind sd os opcode).1 = some i) : i ∈ os.map Prod.fst := by
  induction os generalizing opcode with
  | nil => cases h
  | cons p os ih =>
    obtain ⟨k, obj⟩ := p
    simp only [walkObjs] at h
    generalize (if obj.marked then _ else opcode) = op at h
    split at h
    · cases h
      exact List.mem_cons_self
    · split at h
      · cases h
        exact List.mem_cons_self
      · exact List.mem_cons_of_mem _ (ih h)

/-! ## The first object of a list -/

section

variable {i : Nat} {obj : SlPoolObj} {os before : List (Nat × SlPoolObj)} {opcode sd : Nat}

theorem told_cons_iff : Told before ((i, obj) :: os) opcode sd ↔
    ((obj.answers (heardOpcode before obj opcode) sd ↔ obj.awaits opcode sd) ∧
      (Tabled obj.actionID ∨ obj.awaits opcode sd)) ∧
    (¬ obj.awaits opcode sd → Told (before ++ [(i, obj)]) os opcode sd) := by
  constructor
  · intro h
    refine ⟨?_, fun hw pre k o post hos hpre => ?_⟩
    · simpa using h [] i obj os rfl (by simp)
    · have hcons := h ((i, obj) :: pre) k o post (by rw [hos]; rfl) (by
        intro p hp
        rcases List.mem_cons.1 hp with rfl | hp
        · exact hw
        · exact hpre p hp)
      rwa [List.append_cons] at hcons
  · rintro ⟨hhead, htail⟩ pre k o post hos hpre
    cases pre with
    | nil =>
      cases hos
      rw [List.append_nil]
      exact hhead
    | cons p pre =>
      cases hos
      have hw : ¬ obj.awaits opcode sd := hpre (i, obj) List.mem_cons_self
      have := htail hw pre k o post rfl fun q hq => hpre q (List.mem_cons_of_mem _ hq)
      rwa [← List.append_cons] at this

theorem found_iff (hn : (((i, obj) :: os).map Prod.fst).Nodup) :
    (∀ k, some i = some k ↔ ∃ o, (k, o) ∈ (i, obj) :: os ∧ o.awaits opcode sd) ↔
      obj.awaits opcode sd ∧ ∀ p ∈ os, ¬ p.2.awaits opcode sd := by
  rw [List.map_cons, List.nodup_cons] at hn
  constructor
  · intro h
    obtain ⟨o, hmem, hw⟩ := (h i).1 rfl
    have hlater : ∀ p ∈ os, ¬ p.2.awaits opcode sd := by
      intro p hp hwp
      have hi : some i = some p.1 := (h p.1).2 ⟨p.2, List.mem_cons_of_mem _ hp, hwp⟩
      exact hn.1 (List.mem_map.2 ⟨p, hp, (Option.some.inj hi).symm⟩)
    rcases List.mem_cons.1 hmem with heq | hmem
    · cases heq
      exact ⟨hw, hlater⟩
    · exact absurd hw (hlater (i, o) hmem)
  · rintro ⟨hw, hlater⟩ k
    constructor
    · rintro ⟨⟩
      exact ⟨obj, List.mem_cons_self, hw⟩
    · rintro ⟨o, hmem, hwo⟩
      rcases List.mem_cons.1 hmem with heq | hmem
      · cases heq
        rfl
      · exact absurd hwo (hlater (k, o) hmem)

theorem oneAwaits_told_iff (hn : (((i, obj) :: os).map Prod.fst).Nodup)
    (ha : obj.answers (heardOpcode before obj opcode) sd) :
    OneAwaits ((i, obj) :: os) opcode sd ∧ Told before ((i, obj) :: os) opcode sd ↔
      obj.awaits opcode sd ∧ ∀ p ∈ os, ¬ p.2.awaits opcode sd := by
  rw [List.map_cons, List.nodup_cons] at hn
  rw [told_cons_iff]
  constructor
  · rintro ⟨hone, ⟨hsame, -⟩, -⟩
    have hw := hsame.1 ha
    refine ⟨hw, fun p hp hwp => ?_⟩
    have hi := hone (i, obj) List.mem_cons_self p (List.mem_cons_of_mem _ hp) hw hwp
    exact hn.1 (List.mem_map.2 ⟨p, hp, hi.symm⟩)
  · rintro ⟨hw, hlater⟩
    refine ⟨?_, ⟨iff_of_true ha hw, .inr hw⟩, fun hnw => absurd hw hnw⟩
    intro p hp q hq hwp hwq
    rcases List.mem_cons.1 hp with rfl | hp
    · rcases List.mem_cons.1 hq with rfl | hq
      · rfl
      · exact absurd hwq (hlater q hq)
    · exact absurd hwp (hlater p hp)

theorem oneAwaits_skip (hw : ¬ obj.awaits opcode sd) :
    OneAwaits ((i, obj) :: os) opcode sd ↔ OneAwaits os opcode sd := by
  constructor
  · intro h p hp q hq
    exact h p (List.mem_cons_of_mem _ hp) q (List.mem_cons_of_mem _ hq)
  · intro h p hp q hq hwp hwq
    have hp' : p ∈ os := (List.mem_cons.1 hp).resolve_left (by rintro rfl; exact hw hwp)
    have hq' : q ∈ os := (List.mem_cons.1 hq).resolve_left (by rintro rfl; exact hw hwq)
    exact h p hp' q hq' hwp hwq

theorem walkRight_skip {r : Option Nat × List Nat} (hw : ¬ obj.awaits opcode sd)
    (htab : Tabled obj.actionID) :
    WalkRight (r.1, obj.actionID :: r.2) ((i, obj) :: os) opcode sd ↔ WalkRight r os opcode sd := by
  have hex (k : Nat) : (∃ o, (k, o) ∈ (i, obj) :: os ∧ o.awaits opcode sd) ↔
      ∃ o, (k, o) ∈ os ∧ o.awaits opcode sd := by
    constructor
    · rintro ⟨o, hmem, hwo⟩
      refine ⟨o, (List.mem_cons.1 hmem).resolve_left ?_, hwo⟩
      rintro ⟨⟩
      exact hw hwo
    · rintro ⟨o, hmem, hwo⟩
      exact ⟨o, List.mem_cons_of_mem _ hmem, hwo⟩
  unfold WalkRight
  simp only [hex, List.forall_mem_cons, htab, true_and]

end

/-! ## Main result -/

theorem walkObjs_right_iff (behind : Nat → Nat) (sd opcode : Nat) {os : List (Nat × SlPoolObj)}
    (hn : (os.map Prod.fst).Nodup) (before : List (Nat × SlPoolObj)) :
    WalkRight (walkObjs behind sd os
        (if ∃ p ∈ before, p.2.marked then v4Opcode opcode else opcode)) os opcode sd ↔
      OneAwaits os opcode sd ∧ Told before os opcode sd := by
  induction os generalizing before with
  | nil =>
    refine iff_of_true ⟨fun i => ?_, ?_⟩ ⟨?_, ?_⟩
    · simp [walkObjs]
    · simp [walkObjs]
    · simp [OneAwaits]
    · intro pre i obj post hos
      simp at hos
  | cons p os ih =>
    obtain ⟨i, obj⟩ := p
    have hn' : (os.map Prod.fst).Nodup ∧ i ∉ os.map Prod.fst := by
      rw [List.map_cons, List.nodup_cons] at hn
      exact ⟨hn.2, hn.1⟩
    simp only [walkObjs, heardOpcode_step]
    by_cases hrecv : obj.receives (heardOpcode before obj opcode) sd
    · -- a receiver of the socket, which is not looked up
      rw [if_pos hrecv, oneAwaits_told_iff hn (.inl hrecv), ← found_iff hn]
      unfold WalkRight
      simp only [List.not_mem_nil, false_imp_iff, implies_true, and_true]
    · rw [if_neg hrecv]
      by_cases htab : Tabled obj.actionID
      · by_cases hhit : actionAsyncOpcode behind obj.actionID = heardOpcode before obj opcode ∧
            obj.ofSocket sd
        · -- the entry of the action
          have hentry := (actionAsyncOpcode_tabled htab behind _).1 hhit.1
          rw [if_pos hhit, oneAwaits_told_iff hn (.inr ⟨hentry.1, hentry.2, hhit.2⟩), ← found_iff hn]
          unfold WalkRight
          simp only [List.mem_singleton, forall_eq, htab, and_true]
        · rw [if_neg hhit]
          have hna : ¬ obj.answers (heardOpcode before obj opcode) sd := by
            rintro (hr | ⟨hlo, hentry, hsock⟩)
            · exact hrecv hr
            · exact hhit ⟨(actionAsyncOpcode_tabled htab behind _).2 ⟨hlo, hentry⟩, hsock⟩
          by_cases hw : obj.awaits opcode sd
          · -- passed over although it waits
            refine iff_of_false ?_ ?_
            · rintro ⟨hfound, -⟩
              exact hn'.2 (walkObjs_mem ((hfound i).2 ⟨obj, List.mem_cons_self, hw⟩))
            · rintro ⟨-, htold⟩
              exact hna ((told_cons_iff.1 htold).1.1.2 hw)
          · have hrest := ih hn'.1 (before ++ [(i, obj)])
            rw [marked_snoc] at hrest
            rw [walkRight_skip hw htab, oneAwaits_skip hw, told_cons_iff, hrest]
            refine and_congr_right fun _ => ⟨fun h => ⟨⟨iff_of_false hna hw, .inl htab⟩, fun _ => h⟩,
              fun h => h.2 hw⟩
      · -- looked up behind the table
        refine iff_of_false ?_ ?_
        · rintro ⟨-, hids⟩
          refine htab (hids _ ?_)
          split
          · exact List.mem_singleton_self _
          · exact List.mem_cons_self
        · rintro ⟨-, htold⟩
          obtain ⟨hsame, hpart⟩ := (told_cons_iff.1 htold).1
          exact hrecv (receives_of_answers htab (hsame.2 (hpart.resolve_left htab)))

/-- The control block with the objects of its active list. -/
structure ActiveCb where
  cb : SlDriverCb
  active : List Nat
  chain : PoolChain cb.objPool cb.activePoolIdx active
  nodup : active.Nodup

def ActiveCb.objs (c : ActiveCb) : List (Nat × SlPoolObj) := c.cb.objPool.objs c.active

/-- The object that is selected is the one that waits for the message, and no action without an entry
in the table is looked up; `behind` is what stands behind the table. -/
def FindRight (behind : Nat → Nat) (c : ActiveCb) (opcode sd : Nat) : Prop :=
  ∃ found ids,
    slFindWalk behind c.cb.objPool sd (maxConcurrentActions + 1) c.cb.activePoolIdx opcode =
      some (found, ids) ∧
    slFindAndSetActiveObj behind c.cb opcode sd = some found ∧
    WalkRight (found, ids) c.objs opcode sd

theorem nodup_objs (pool : ObjPool) {l : List Nat} (h : l.Nodup) :
    ((pool.objs l).map Prod.fst).Nodup := by
  refine h.sublist ?_
  unfold ObjPool.objs
  rw [List.map_filterMap]
  induction l with
  | nil => exact .slnil
  | cons i l ih =>
    cases hobj : pool.obj i with
    | none =>
      rw [List.filterMap_cons_none (by rw [hobj]; rfl)]
      exact (ih (List.nodup_cons.1 h).2).cons i
    | some obj =>
      rw [List.filterMap_cons_some (b := i) (by rw [hobj]; rfl)]
      exact (ih (List.nodup_cons.1 h).2).cons_cons i

theorem findRight_iff_walk (behind : Nat → Nat) (c : ActiveCb) (opcode sd : Nat) :
    FindRight behind c opcode sd ↔ WalkRight (walkObjs behind sd c.objs opcode) c.objs opcode sd := by
  have hlen := length_le_of_nodup c.nodup c.chain.lt
  have hwalk := slFindWalk_chain c.chain (show c.active.length < maxConcurrentActions + 1 by omega)
    behind sd opcode
  unfold FindRight slFindAndSetActiveObj ActiveCb.objs
  rw [slFindWalk_fst, hwalk, Option.map_some]
  constructor
  · rintro ⟨found, ids, heq, -, hright⟩
    rw [Option.some.inj heq]
    exact hright
  · intro hright
    exact ⟨_, _, rfl, rfl, hright⟩

/-- The walk selects the object that waits exactly if only one waits and, of the objects that it comes
to, each answers to the opcode it is compared with if it waits, does not answer to it and has an entry
in the table if it does not. -/
theorem findActive_right_iff (behind : Nat → Nat) (c : ActiveCb) (opcode sd : Nat) :
    FindRight behind c opcode sd ↔
      OneAwaits c.objs opcode sd ∧ Told [] c.objs opcode sd := by
  have hwalk := walkObjs_right_iff behind sd opcode (nodup_objs c.cb.objPool c.nodup) []
  simp only [List.not_mem_nil, false_and, exists_false, if_false] at hwalk
  rw [findRight_iff_walk]
  exact hwalk

/-! ## What goes wrong -/

/-- Two active objects, the first two of the pool, with their actions and data. -/
def twoActive (a b : Nat × Nat) : ActiveCb where
  cb := { slDrvDriverCbInit with
    objPool := Vector.ofFn fun idx =>
      if idx = 0 then ⟨false, a.1, a.2, 1⟩
      else if idx = 1 then ⟨false, b.1, b.2, maxConcurrentActions⟩
      else ⟨false, 0, slMaxSockets, maxConcurrentActions⟩
    activePoolIdx := 0 }
  active := [0, 1]
  chain := .cons rfl (show 0 < maxConcurrentActions by decide)
    (.cons rfl (show 1 < maxConcurrentActions by decide) .nil)
  nodup := by decide

/-- With an IPv6 name query before it, an IPv4 service query is given the IPv6 response; before it, it
is not. A receiver in the list is looked up behind the table. An accept never sees its IPv6
response. -/
theorem findActive_not_right :
    slFindAndSetActiveObj (fun _ => 0) (twoActive (11, 0x88) (12, 8)).cb 0x1A35 8 = some (some 1) ∧
      slFindAndSetActiveObj (fun _ => 0) (twoActive (12, 8) (11, 0x88)).cb 0x1A35 8 = some none ∧
      ¬ FindRight (fun _ => 0) (twoActive (11, 0x88) (12, 8)) 0x1A35 8 ∧
      ¬ FindRight (fun _ => 0) (twoActive (15, 3) (14, 8)) 0x0073 8 ∧
      ¬ FindRight (fun _ => 0) (twoActive (8, 0) (14, 8)) 0x1203 0 := by
  refine ⟨by decide, by decide, ?_, ?_, ?_⟩
  · rw [findRight_iff_walk]
    rintro ⟨hfound, -⟩
    obtain ⟨obj, hmem, hw⟩ := (hfound 1).1 (by decide)
    obtain rfl := Option.some.inj (mem_objs.1 hmem).2
    revert hw
    decide
  · rw [findRight_iff_walk]
    rintro ⟨-, hids⟩
    have h := hids 15 (by decide)
    revert h
    decide
  · rw [findRight_iff_walk]
    rintro ⟨hfound, -⟩
    have h := (hfound 0).2 ⟨⟨false, 8, 0, 1⟩, by decide, by decide⟩
    revert h
    decide

end SimpleLink.Driver
