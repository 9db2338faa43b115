import SimpleLink.Lib.PtrList
import SimpleLink.Lib.Run

/-!
# The power-management framework

`cc_pm.c`: the list of the modules in use, threaded through the modules, with its length in a counter
beside it; and the attempts to enter S4 or S3, which ask the driver of every module in the list to go
to M4 and send them back to M0 when the system stays awake. Modules (`M`) and drivers (`D`) are static
objects, finitely many. Callbacks of drivers and of the platform are the input of an attempt.
-/

namespace SimpleLink.Pm

open Lib

/-- `pform_info`, and the fields of `struct soc_module` and `struct module_drv` that the framework
sets. -/
structure Pform (M D : Type) where
  usedListLen : Int
  usedModList : Option M
  next : M → Option M
  myDriver : M → Option D
  hwModule : D → Option M

/-- The callbacks that are not `NULL`: `goto2pm_mode` of a driver, `clk_enable` of a module. -/
structure Board (M D : Type) where
  goto2pmMode : D → Bool
  clkEnable : M → Bool

/-- The state an attempt is for. -/
inductive Sx where
  | s3
  | s4
  deriving DecidableEq

/-- What an attempt meets. `sleeps`: `enter_S3` or `enter_S4` does not return. -/
structure Attempt (D : Type) where
  /-- `enter_S3`, or `enter_S4`, is not `NULL`. -/
  enterFn : Bool
  canTryPmState : Bool
  /-- `goto2pm_mode(drv, e_pm_M4)`. -/
  goto2M4 : D → Int
  setUpWkupSrcs : Int
  areIrqsPending : Bool
  sleeps : Bool

/-- The calls of an attempt: a driver is asked to go to M4 and answers, the clock of a module is
switched on, a driver is sent to M0, the system sleeps. -/
inductive Ev (M : Type) where
  | toM4 (m : M) (ret : Int)
  | clkS0 (m : M)
  | toM0 (m : M)
  | slept
  deriving DecidableEq

variable {M D : Type}

def Pform.init : Pform M D where
  usedListLen := 0
  usedModList := none
  next := fun _ => none
  myDriver := fun _ => none
  hwModule := fun _ => none

/-! ## Attempts -/

/-- The driver of a module, if it has `goto2pm_mode`. -/
def Pform.callback (b : Board M D) (p : Pform M D) (m : M) : Option D :=
  (p.myDriver m).filter b.goto2pmMode

def Pform.refuses (b : Board M D) (p : Pform M D) (a : Attempt D) (m : M) : Bool :=
  match p.callback b m with
  | none => false
  | some d => a.goto2M4 d != 0

/-- The call of a turn of `push_modules_to_M4_no_irq`. -/
def Pform.asked (b : Board M D) (p : Pform M D) (a : Attempt D) (m : M) : List (Ev M) :=
  match p.callback b m with
  | none => []
  | some d => [.toM4 m (a.goto2M4 d)]

/-- The calls of a turn of `make_modules_to_M0_no_irq`. -/
def Pform.woken (b : Board M D) (p : Pform M D) (m : M) : List (Ev M) :=
  match p.myDriver m with
  | none => []
  | some d =>
    (if b.clkEnable m then [.clkS0 m] else []) ++ (if b.goto2pmMode d then [.toM0 m] else [])

/-- `push_modules_to_M4_no_irq`: `n_mod_in_M4`, and the calls. -/
def Pform.pushModulesToM4 (b : Board M D) (p : Pform M D) (a : Attempt D) :
    Nat → Option M → Option (Int × List (Ev M))
  | _, none => some (0, [])
  | 0, some _ => none
  | n + 1, some m =>
    if p.refuses b a m then some (0, p.asked b a m)
    else
      match p.pushModulesToM4 b a n (p.next m) with
      | none => none
      | some (k, t) => some (k + 1, p.asked b a m ++ t)

/-- `make_modules_to_M0_no_irq`. -/
def Pform.makeModulesToM0 (b : Board M D) (p : Pform M D) :
    Nat → Int → Option M → Option (List (Ev M))
  | _, _, none => some []
  | 0, _, some _ => none
  | n + 1, nMod, some m =>
    if 0 < nMod then (p.makeModulesToM0 b n (nMod - 1) (p.next m)).map (p.woken b m ++ ·)
    else some []

section Steps

variable [Fintype M] [DecidableEq M] [DecidableEq D]

/-- The calls of `make_modules_to_M0_no_irq(pform->used_list_len)`. -/
def Pform.wakeAll (b : Board M D) (p : Pform M D) : Option (List (Ev M)) :=
  p.makeModulesToM0 b (Fintype.card M) p.usedListLen p.usedModList

/-- `do_try_S4_no_irq` and `do_try_S3_no_irq`. After S4 the system starts from reset; from S3 it comes
back through `resume_from_S3`. -/
def Pform.doTry (b : Board M D) (p : Pform M D) (sx : Sx) (a : Attempt D) :
    Option (Pform M D × Int × List (Ev M)) :=
  match p.pushModulesToM4 b a (Fintype.card M) p.usedModList with
  | none => none
  | some (nM4Drv, t) =>
    if p.usedListLen ≠ nM4Drv then (p.wakeAll b).map fun w => (p, -1, t ++ w)
    else if a.setUpWkupSrcs < 0 then (p.wakeAll b).map fun w => (p, -1, t ++ w)
    else if a.areIrqsPending then (p.wakeAll b).map fun w => (p, 0, t ++ w)
    else if a.sleeps then
      match sx with
      | .s4 => some (.init, 0, t ++ [.slept])
      | .s3 => (p.wakeAll b).map fun w => (p, 0, t ++ .slept :: w)
    else some (p, 0, t)

/-- `try_S4_no_irq` and `try_S3_no_irq`. -/
def Pform.trySx (b : Board M D) (p : Pform M D) (sx : Sx) (a : Attempt D) :
    Option (Pform M D × Int × List (Ev M)) :=
  if a.enterFn ∧ a.canTryPmState then p.doTry b sx a else some (p, -1, [])

/-! ## Registration -/

/-- `add2tail_used_mod_list`. -/
def Pform.add2tail (p : Pform M D) (m : M) : Option (Pform M D) :=
  match seek p.next (fun c => (p.next c).isNone) (Fintype.card M) none p.usedModList with
  | none => none
  | some (_, none) =>
    some { p with usedModList := some m, usedListLen := p.usedListLen + 1 }
  | some (_, some socMod) =>
    some { p with
      next := Function.update p.next socMod (some m)
      usedListLen := p.usedListLen + 1 }

/-- `cc_module_drv_register`. -/
def Pform.register (p : Pform M D) (hwModule : Option M) (modDrv : Option D) :
    Option (Pform M D × Int) :=
  match hwModule, modDrv with
  | some m, some d =>
    if p.myDriver m = none ∧ p.hwModule d = none then
      ({ p with
        hwModule := Function.update p.hwModule d (some m)
        myDriver := Function.update p.myDriver m (some d)
        next := Function.update p.next m none } : Pform M D).add2tail m |>.map (·, 0)
    else some (p, -1)
  | _, _ => some (p, -1)

/-- `cc_module_drv_unregister`. It does not touch `used_list_len`. -/
def Pform.unregister (p : Pform M D) (modDrv : Option D) : Option (Pform M D) :=
  match seek p.next (fun c => p.myDriver c = modDrv) (Fintype.card M) none p.usedModList with
  | none => none
  | some (_, none) => some p
  | some (prev, some m) =>
    let p' : Pform M D := match prev with
      | some q => { p with next := Function.update p.next q (p.next m) }
      | none => { p with usedModList := p.next m }
    match modDrv with
    | none => none
    | some d => some { p' with
        myDriver := Function.update p.myDriver m none
        hwModule := Function.update p.hwModule d none }

/-- The calls of the framework. -/
inductive Op (M D : Type) where
  | register (hwModule : Option M) (modDrv : Option D)
  | unregister (modDrv : Option D)
  | trySx (sx : Sx) (a : Attempt D)

/-- One call: the new state, what is returned and what was called meanwhile. -/
def step (b : Board M D) (p : Pform M D) : Op M D → Option (Pform M D × Int × List (Ev M))
  | .register m d => (p.register m d).map fun r => (r.1, r.2, [])
  | .unregister d => (p.unregister d).map fun p' => (p', 0, [])
  | .trySx sx a => p.trySx b sx a

/-! ## The list and the bindings -/

/-- The modules in use are `l`, bound to their drivers; every other module and driver is free. -/
structure Pform.Ok (p : Pform M D) (l : List M) : Prop where
  linked : Linked p.next p.usedModList l
  used : ∀ {m}, m ∈ l ↔ p.myDriver m ≠ none
  bound : ∀ {m d}, p.myDriver m = some d ↔ p.hwModule d = some m

omit [Fintype M] [DecidableEq M] [DecidableEq D] in
theorem Pform.ok_init : (Pform.init : Pform M D).Ok [] where
  linked := rfl
  used := by simp [init]
  bound := by simp [init]

omit [DecidableEq D] in
theorem Pform.add2tail_linked {p : Pform M D} {l : List M} {m : M}
    (hl : Linked p.next p.usedModList l) (hm : m ∉ l) (hn : p.next m = none) :
    ∃ next h, p.add2tail m = some { p with
        next := next, usedModList := h, usedListLen := p.usedListLen + 1 } ∧
      Linked next h (l ++ [m]) := by
  rcases hl.extend hm with ⟨rfl, hext⟩ | ⟨l₀, q, rfl, hext⟩
  · refine ⟨p.next, some m, ?_, ?_⟩
    · rw [add2tail, hl.seek_end hl.length_le (by simp)]
    · rwa [hn] at hext
  · refine ⟨Function.update p.next q (some m), p.usedModList, ?_, ?_⟩
    · obtain ⟨hbefore, hend⟩ := hl.last
      rw [add2tail, hl.seek_found hl.length_le
        (by simpa [Option.isSome_iff_ne_none] using hbefore) (by simp [hend])]
    · rwa [hn] at hext

/-- A call of `cc_module_drv_register` binds a free module to a free driver and counts it, or does
nothing. -/
theorem Pform.register_cases {p : Pform M D} {l : List M} (h : p.Ok l) (m : Option M)
    (d : Option D) :
    p.register m d = some (p, -1) ∨
      ∃ m' p', p.register m d = some (p', 0) ∧ p'.Ok (l ++ [m']) ∧
        p'.usedListLen = p.usedListLen + 1 := by
  cases m with
  | none => exact .inl rfl
  | some m =>
    cases d with
    | none => exact .inl rfl
    | some d =>
      by_cases hfree : p.myDriver m = none ∧ p.hwModule d = none
      · have hm : m ∉ l := fun hm => h.used.1 hm hfree.1
        obtain ⟨next, head, hadd, hlinked⟩ := add2tail_linked (p := ({ p with
            hwModule := Function.update p.hwModule d (some m)
            myDriver := Function.update p.myDriver m (some d)
            next := Function.update p.next m none } : Pform M D))
          (h.linked.update hm none) hm (Function.update_self ..)
        refine .inr ⟨m, _, by rw [register, if_pos hfree, hadd]; rfl, ⟨hlinked, ?_, ?_⟩, rfl⟩
        · intro c
          by_cases hc : c = m
          · subst hc
            simp
          · simp [hc, h.used]
        · intro c e
          by_cases hc : c = m
          · subst hc
            by_cases he : e = d
            · simp [he]
            · have hne : p.hwModule e ≠ some c := fun hb => by simp [h.bound.2 hb] at hfree
              simp [he, Ne.symm he, hne]
          · by_cases he : e = d
            · subst he
              have hne : p.myDriver c ≠ some e := fun hb => by simp [h.bound.1 hb] at hfree
              simp [hc, Ne.symm hc, hne]
            · simp [hc, he, h.bound]
      · exact .inl (by rw [register, if_neg hfree])

theorem Pform.unregister_free {p : Pform M D} {l : List M} (h : p.Ok l) {d : Option D}
    (hd : ∀ e, d = some e → p.hwModule e = none) : p.unregister d = some p := by
  have hne : ∀ c ∈ l, p.myDriver c ≠ d := by
    rintro c hc rfl
    obtain ⟨e, he⟩ := Option.ne_none_iff_exists'.1 (h.used.1 hc)
    have hfree := hd e he
    rw [h.bound.1 he] at hfree
    cases hfree
  rw [unregister, h.linked.seek_end h.linked.length_le (by simpa using hne)]

theorem Pform.unregister_bound {p : Pform M D} {l : List M} (h : p.Ok l) {d : D} {m : M}
    (hd : p.hwModule d = some m) :
    ∃ next head l', p.unregister (some d) = some { p with
        next := next
        usedModList := head
        myDriver := Function.update p.myDriver m none
        hwModule := Function.update p.hwModule d none } ∧
      Linked next head l' ∧ l.length = l'.length + 1 := by
  have hm : p.myDriver m = some d := h.bound.2 hd
  have hml : m ∈ l := h.used.2 (by simp [hm])
  obtain ⟨l₁, l₂, rfl⟩ := List.append_of_mem hml
  have hnodup := h.linked.nodup
  have hmem : m ∉ l₁ ++ l₂ := by
    rw [List.nodup_middle] at hnodup
    exact (List.nodup_cons.1 hnodup).1
  have hpass : ∀ c ∈ l₁, decide (p.myDriver c = some d) = false := by
    intro c hc
    refine decide_eq_false fun hcd => hmem (List.mem_append_left _ ?_)
    rw [h.bound, hd] at hcd
    cases hcd
    exact hc
  have hseek := h.linked.seek_found h.linked.length_le hpass (decide_eq_true hm)
  -- The link of the module that goes is left as it is.
  have hkeep : ∀ {next head l'}, (∀ c ∈ l', c ≠ m) →
      Linked (Function.update next m none) head l' → Linked next head l' :=
    fun hl' hlink => hlink.congr fun c hc => (Function.update_of_ne (hl' c hc) ..).symm
  rcases h.linked.cut with ⟨rfl, hcut⟩ | ⟨l₀, q, rfl, hcut⟩
  · refine ⟨p.next, p.next m, l₂, by rw [unregister, hseek]; rfl, hkeep ?_ hcut, rfl⟩
    rintro c hc rfl
    exact hmem hc
  · refine ⟨Function.update p.next q (p.next m), p.usedModList, l₀ ++ [q] ++ l₂,
      by rw [unregister, hseek, List.getLast?_concat], hkeep ?_ hcut, ?_⟩
    · rintro c hc rfl
      exact hmem hc
    · simp
      omega

end Steps

/-! ## The two walks of an attempt -/

section Walks

variable (b : Board M D) {p : Pform M D} {a : Attempt D} {l : List M}

theorem Pform.push_cases {h : Option M} (hl : Linked p.next h l) {n : Nat} (hn : l.length ≤ n) :
    (∀ m ∈ l, p.refuses b a m = false) ∧
        p.pushModulesToM4 b a n h = some ((l.length : Int), l.flatMap (p.asked b a)) ∨
      ∃ l₁ m l₂, l = l₁ ++ m :: l₂ ∧ p.refuses b a m = true ∧
        p.pushModulesToM4 b a n h = some ((l₁.length : Int), (l₁ ++ [m]).flatMap (p.asked b a)) := by
  induction l generalizing h n with
  | nil =>
    obtain rfl : h = none := hl
    exact .inl ⟨by simp, by rw [pushModulesToM4]; rfl⟩
  | cons c l ih =>
    obtain ⟨rfl, hl⟩ := hl
    obtain ⟨n, rfl⟩ : ∃ k, n = k + 1 := ⟨n - 1, by simp at hn; omega⟩
    cases hc : p.refuses b a c with
    | true => exact .inr ⟨[], c, l, rfl, hc, by simp [pushModulesToM4, hc]⟩
    | false =>
      rcases ih hl (by simpa using hn) with ⟨hall, hpush⟩ | ⟨l₁, m, l₂, rfl, hm, hpush⟩
      · exact .inl ⟨by simpa [hc] using hall, by simp [pushModulesToM4, hc, hpush]⟩
      · exact .inr ⟨c :: l₁, m, l₂, rfl, hm, by simp [pushModulesToM4, hc, hpush]⟩

theorem Pform.make_linked {h : Option M} (hl : Linked p.next h l) {n : Nat} (hn : l.length ≤ n)
    {nMod : Int} (hMod : l.length ≤ nMod) :
    p.makeModulesToM0 b n nMod h = some (l.flatMap (p.woken b)) := by
  induction l generalizing h n nMod with
  | nil =>
    obtain rfl : h = none := hl
    rw [makeModulesToM0]
    rfl
  | cons c l ih =>
    obtain ⟨rfl, hl⟩ := hl
    obtain ⟨n, rfl⟩ : ∃ k, n = k + 1 := ⟨n - 1, by simp at hn; omega⟩
    simp only [List.length_cons, Int.natCast_add, Int.cast_ofNat_Int] at hMod
    rw [makeModulesToM0, if_pos (by omega), ih hl (by simpa using hn) (by omega)]
    rfl

theorem Pform.toM4_mem_asked {m : M} {r : Int} :
    Ev.toM4 m r ∈ l.flatMap (p.asked b a) ↔
      m ∈ l ∧ ∃ d, p.callback b m = some d ∧ a.goto2M4 d = r := by
  simp only [List.mem_flatMap, asked]
  constructor
  · rintro ⟨c, hc, hev⟩
    split at hev
    · cases hev
    · rename_i d hd
      obtain ⟨rfl, rfl⟩ := Ev.toM4.inj (List.mem_singleton.1 hev)
      exact ⟨hc, d, hd, rfl⟩
  · rintro ⟨hm, d, hd, rfl⟩
    exact ⟨m, hm, by simp [hd]⟩

theorem Pform.eq_toM4_of_asked {e : Ev M} (he : e ∈ l.flatMap (p.asked b a)) :
    ∃ m r, e = .toM4 m r := by
  obtain ⟨c, -, hev⟩ := List.mem_flatMap.1 he
  rw [asked] at hev
  split at hev
  · cases hev
  · exact ⟨_, _, List.mem_singleton.1 hev⟩

theorem Pform.toM0_not_asked (m : M) : Ev.toM0 m ∉ l.flatMap (p.asked b a) := by
  intro he
  obtain ⟨c, r, hcr⟩ := eq_toM4_of_asked b he
  cases hcr

theorem Pform.slept_not_asked : Ev.slept ∉ l.flatMap (p.asked b a) := by
  intro he
  obtain ⟨c, r, hcr⟩ := eq_toM4_of_asked b he
  cases hcr

theorem Pform.mem_woken {m : M} {e : Ev M} (he : e ∈ p.woken b m) : e = .clkS0 m ∨ e = .toM0 m := by
  rw [woken] at he
  split at he
  · cases he
  · rcases List.mem_append.1 he with he | he
    · split at he
      · exact .inl (List.mem_singleton.1 he)
      · cases he
    · split at he
      · exact .inr (List.mem_singleton.1 he)
      · cases he

theorem Pform.toM4_not_woken (m : M) (r : Int) : Ev.toM4 m r ∉ l.flatMap (p.woken b) := by
  intro he
  obtain ⟨c, -, he⟩ := List.mem_flatMap.1 he
  rcases mem_woken b he with he | he <;> cases he

theorem Pform.slept_not_woken : Ev.slept ∉ l.flatMap (p.woken b) := by
  intro he
  obtain ⟨c, -, he⟩ := List.mem_flatMap.1 he
  rcases mem_woken b he with he | he <;> cases he

theorem Pform.count_woken [DecidableEq M] (hl : l.Nodup) (m : M) :
    (l.flatMap (p.woken b)).count (.toM0 m) = if m ∈ l ∧ p.callback b m ≠ none then 1 else 0 := by
  have hone : ∀ c, (p.woken b c).count (.toM0 m) = if c = m ∧ p.callback b m ≠ none then 1 else 0 := by
    intro c
    by_cases hc : c = m
    · subst hc
      cases hd : p.myDriver c with
      | none => simp [woken, callback, hd]
      | some d =>
        cases hb : b.goto2pmMode d <;> cases hclk : b.clkEnable c <;>
          simp [woken, callback, hd, hb, hclk, Option.filter]
    · rw [if_neg fun h => hc h.1, List.count_eq_zero]
      intro hev
      rcases mem_woken b hev with he | he
      · cases he
      · exact hc (Ev.toM0.inj he).symm
  induction l with
  | nil => simp
  | cons c l ih =>
    obtain ⟨hc, hl⟩ := List.nodup_cons.1 hl
    rw [List.flatMap_cons, List.count_append, ih hl, hone]
    by_cases hcm : c = m
    · subst hcm
      simp [hc]
    · simp [hcm, Ne.symm hcm]

end Walks

/-! ## The counter and the way back -/

/-- `used_list_len` is the number of modules in the list. -/
def Pform.LengthOk (p : Pform M D) : Prop :=
  ∃ l, Linked p.next p.usedModList l ∧ p.usedListLen = l.length

/-- Unless the system slept, the drivers that went to M4 are sent to M0 once, and no others. -/
def RollsBack [DecidableEq M] (t : List (Ev M)) : Prop :=
  .slept ∉ t → ∀ m, t.count (.toM0 m) = if .toM4 m 0 ∈ t then 1 else 0

/-- No driver refuses; and where it comes to entering, the system sleeps or there is no driver to send
back. -/
def Pform.Smooth (b : Board M D) (p : Pform M D) (a : Attempt D) : Prop :=
  a.enterFn ∧ a.canTryPmState → (∀ m, p.refuses b a m = false) ∧
    (0 ≤ a.setUpWkupSrcs → a.areIrqsPending = false → a.sleeps = false →
      ∀ m, p.callback b m = none)

section Back

variable [DecidableEq M] (b : Board M D) {p : Pform M D} {a : Attempt D} {l : List M}

theorem Pform.rollsBack_woken (h : p.Ok l) (hall : ∀ m, p.refuses b a m = false) :
    RollsBack (l.flatMap (p.asked b a) ++ l.flatMap (p.woken b)) := by
  intro _ m
  rw [List.count_append, List.count_eq_zero.2 (toM0_not_asked b m), Nat.zero_add,
    count_woken b h.linked.nodup]
  refine if_congr ?_ rfl rfl
  rw [List.mem_append, or_iff_left (toM4_not_woken b m 0), toM4_mem_asked]
  refine and_congr_right fun _ => ?_
  have hr := hall m
  rw [refuses] at hr
  cases hd : p.callback b m with
  | none => simp
  | some d =>
    rw [hd] at hr
    simpa using hr

theorem Pform.not_rollsBack_refused {l₁ l₂ : List M} {m : M} (h : p.Ok (l₁ ++ m :: l₂))
    (hm : p.refuses b a m = true) :
    ¬ RollsBack ((l₁ ++ [m]).flatMap (p.asked b a) ++ (l₁ ++ m :: l₂).flatMap (p.woken b)) := by
  intro hback
  obtain ⟨d, hd, hne⟩ : ∃ d, p.callback b m = some d ∧ a.goto2M4 d ≠ 0 := by
    rw [refuses] at hm
    cases hd : p.callback b m with
    | none => simp [hd] at hm
    | some d => exact ⟨d, rfl, by simpa [hd] using hm⟩
  have hnot : Ev.toM4 m 0 ∉ (l₁ ++ [m]).flatMap (p.asked b a) := by
    rw [toM4_mem_asked]
    rintro ⟨-, e, he, hz⟩
    rw [hd] at he
    cases he
    exact hne hz
  have hcount := hback (by simp only [List.mem_append, slept_not_asked, slept_not_woken, or_self,
    not_false_eq_true]) m
  rw [List.count_append, List.count_eq_zero.2 (toM0_not_asked b m), count_woken b h.linked.nodup,
    if_pos ⟨by simp, by simp [hd]⟩,
    if_neg fun he => (List.mem_append.1 he).elim hnot (toM4_not_woken b m 0)] at hcount
  omega

theorem Pform.rollsBack_asked (h : p.Ok l) (hall : ∀ m, p.refuses b a m = false) :
    RollsBack (l.flatMap (p.asked b a)) ↔ ∀ m, p.callback b m = none := by
  constructor
  · intro hback m
    by_contra hd
    obtain ⟨d, hd⟩ := Option.ne_none_iff_exists'.1 hd
    have hm : m ∈ l := by
      refine h.used.2 fun hfree => ?_
      simp [callback, hfree] at hd
    have hz : a.goto2M4 d = 0 := by
      have hr := hall m
      rw [refuses, hd] at hr
      simpa using hr
    have hcount := hback (slept_not_asked b) m
    rw [if_pos ((toM4_mem_asked b).2 ⟨hm, d, hd, hz⟩),
      List.count_eq_zero.2 (toM0_not_asked b m)] at hcount
    omega
  · intro hfree _ m
    rw [List.count_eq_zero.2 (toM0_not_asked b m), if_neg]
    rw [toM4_mem_asked]
    rintro ⟨-, d, hd, -⟩
    rw [hfree m] at hd
    cases hd

end Back

section Results

variable [Fintype M] (b : Board M D) {p : Pform M D} {l : List M}

theorem Pform.wakeAll_eq (h : p.Ok l) (hlen : p.usedListLen = l.length) :
    p.wakeAll b = some (l.flatMap (p.woken b)) :=
  make_linked b h.linked h.linked.length_le hlen.ge

variable [DecidableEq M]

theorem Pform.trySx_spec (h : p.Ok l) (hlen : p.usedListLen = l.length) (sx : Sx) (a : Attempt D) :
    ∃ p' r t, p.trySx b sx a = some (p', r, t) ∧ (p' = p ∨ p' = .init) ∧
      (RollsBack t ↔ p.Smooth b a) := by
  rw [trySx]
  split
  · rename_i hmade
    rw [doTry]
    rcases push_cases b (a := a) h.linked h.linked.length_le with
      ⟨hall, hpush⟩ | ⟨l₁, m, l₂, rfl, hm, hpush⟩
    · have hagree : ∀ m, p.refuses b a m = false := by
        intro m
        by_cases hm : m ∈ l
        · exact hall m hm
        · have hfree : p.myDriver m = none := by simpa using mt h.used.2 hm
          simp [refuses, callback, hfree]
      have hback := rollsBack_woken b h hagree
      simp only [hpush, wakeAll_eq b h hlen, hlen, ne_eq, not_true_eq_false, if_false]
      split
      · rename_i hset
        exact ⟨_, _, _, rfl, .inl rfl, iff_of_true hback fun _ => ⟨hagree, fun hset' => by omega⟩⟩
      split
      · rename_i hirq
        exact ⟨_, _, _, rfl, .inl rfl, iff_of_true hback fun _ =>
          ⟨hagree, fun _ hirq' => by simp [hirq] at hirq'⟩⟩
      split
      · rename_i hsleeps
        have hsmooth : p.Smooth b a := fun _ =>
          ⟨hagree, fun _ _ hsleeps' => by simp [hsleeps] at hsleeps'⟩
        cases sx with
        | s3 =>
          exact ⟨_, _, _, rfl, .inl rfl, iff_of_true (fun hawake => absurd (by simp) hawake) hsmooth⟩
        | s4 =>
          exact ⟨_, _, _, rfl, .inr rfl, iff_of_true (fun hawake => absurd (by simp) hawake) hsmooth⟩
      · rename_i hset hirq hsleeps
        refine ⟨_, _, _, rfl, .inl rfl, (rollsBack_asked b h hagree).trans ⟨?_, ?_⟩⟩
        · exact fun hfree _ => ⟨hagree, fun _ _ _ => hfree⟩
        · exact fun hsmooth => (hsmooth hmade).2 (by omega) (by simpa using hirq) (by simpa using hsleeps)
    · have hne : (l₁ ++ m :: l₂).length ≠ l₁.length := by simp
      rw [hpush]
      simp only [wakeAll_eq b h hlen]
      rw [if_pos (by rw [hlen]; exact_mod_cast hne)]
      refine ⟨_, _, _, rfl, .inl rfl, iff_of_false (not_rollsBack_refused b h hm) fun hsmooth => ?_⟩
      have hagree := (hsmooth hmade).1 m
      rw [hm] at hagree
      cases hagree
  · rename_i hmade
    exact ⟨_, _, _, rfl, .inl rfl, iff_of_true (fun _ m => rfl) fun hmade' => absurd hmade' hmade⟩

variable [DecidableEq D]

/-- A call leaves the counter right, and an attempt sends back whom it moved. -/
def StepOk (p : Pform M D) (op : Op M D) : Prop :=
  ∃ p' r t, step b p op = some (p', r, t) ∧ p'.LengthOk ∧ RollsBack t

/-- Only drivers that are not bound are unregistered, and attempts are smooth. -/
def Spared (p : Pform M D) : Op M D → Prop
  | .register _ _ => True
  | .unregister d => ∀ e, d = some e → p.hwModule e = none
  | .trySx _ a => p.Smooth b a

/-- The modules in use are bound to their drivers, and the counter is their number. -/
def Pform.Counted (p : Pform M D) : Prop := ∃ l, p.Ok l ∧ p.usedListLen = l.length

omit [Fintype M] [DecidableEq M] [DecidableEq D] in
theorem Pform.counted_init : (Pform.init : Pform M D).Counted := ⟨[], ok_init, rfl⟩

omit [Fintype M] [DecidableEq M] [DecidableEq D] in
theorem Pform.Counted.lengthOk (h : p.Counted) : p.LengthOk := by
  obtain ⟨l, hok, hlen⟩ := h
  exact ⟨l, hok.linked, hlen⟩

theorem step_spec (h : p.Counted) (op : Op M D) :
    ∃ p' r t, step b p op = some (p', r, t) ∧ (Spared b p op → p'.Counted) ∧
      (p'.LengthOk ∧ RollsBack t ↔ Spared b p op) := by
  obtain ⟨l, hok, hlen⟩ := h
  have hnone : RollsBack ([] : List (Ev M)) := fun _ _ => rfl
  cases op with
  | register m d =>
    have hcounted : ∃ p' r, p.register m d = some (p', r) ∧ p'.Counted := by
      rcases Pform.register_cases hok m d with hreg | ⟨m', p', hreg, hok', hlen'⟩
      · exact ⟨p, -1, hreg, l, hok, hlen⟩
      · exact ⟨p', 0, hreg, l ++ [m'], hok', by simp [hlen', hlen]⟩
    obtain ⟨p', r, hreg, hp'⟩ := hcounted
    exact ⟨p', r, [], by rw [step, hreg]; rfl, fun _ => hp',
      iff_of_true ⟨hp'.lengthOk, hnone⟩ trivial⟩
  | unregister d =>
    by_cases hfree : ∀ e, d = some e → p.hwModule e = none
    · have hp : p.Counted := ⟨l, hok, hlen⟩
      exact ⟨p, 0, [], by rw [step, Pform.unregister_free hok hfree]; rfl, fun _ => hp,
        iff_of_true ⟨hp.lengthOk, hnone⟩ hfree⟩
    · push Not at hfree
      obtain ⟨e, rfl, he⟩ := hfree
      obtain ⟨m, hm⟩ := Option.ne_none_iff_exists'.1 he
      obtain ⟨next, head, l', hun, hl', hlen'⟩ := Pform.unregister_bound hok hm
      have hnot : ¬ Spared b p (.unregister (some e)) := fun hs => he (hs e rfl)
      refine ⟨_, 0, [], by rw [step, hun]; rfl, fun hs => absurd hs hnot, iff_of_false ?_ hnot⟩
      rintro ⟨⟨l'', hl'', hcount⟩, -⟩
      obtain rfl : l'' = l' := Linked.unique hl'' hl'
      have hcount : p.usedListLen = l''.length := hcount
      omega
  | trySx sx a =>
    obtain ⟨p', r, t, htry, hp', hback⟩ := Pform.trySx_spec b hok hlen sx a
    have hcounted : p'.Counted := by
      rcases hp' with rfl | rfl
      · exact ⟨l, hok, hlen⟩
      · exact Pform.counted_init
    exact ⟨p', r, t, htry, fun _ => hcounted, by rw [and_iff_right hcounted.lengthOk]; exact hback⟩

theorem stepOk_iff (h : p.Counted) (op : Op M D) : StepOk b p op ↔ Spared b p op := by
  obtain ⟨p', r, t, hstep, -, hiff⟩ := step_spec b h op
  rw [← hiff]
  constructor
  · rintro ⟨q, r', t', hstep', hq⟩
    rw [hstep] at hstep'
    obtain ⟨rfl, rfl, rfl⟩ : p' = q ∧ r = r' ∧ t = t' := by simpa using hstep'
    exact hq
  · exact fun hp' => ⟨p', r, t, hstep, hp'⟩

theorem Spared.counted {p' : Pform M D} {op : Op M D} {o : Int × List (Ev M)} (h : p.Counted)
    (hs : Spared b p op) (hstep : step b p op = some (p', o)) : p'.Counted := by
  obtain ⟨q, r, t, hq, hcounted, -⟩ := step_spec b h op
  rw [hstep] at hq
  obtain ⟨rfl, -⟩ : p' = q ∧ o = (r, t) := by simpa using hq
  exact hcounted hs

theorem meets_stepOk_iff (h : p.Counted) {ops : List (Op M D)} :
    Meets (step b) (StepOk b) p ops ↔ Meets (step b) (Spared b) p ops := by
  constructor
  · exact Meets.imp (fun hp hok => (stepOk_iff b hp _).1 hok)
      (fun hp hok => Spared.counted b hp ((stepOk_iff b hp _).1 hok)) h
  · exact Meets.imp (fun hp hs => (stepOk_iff b hp _).2 hs) (fun hp hs => Spared.counted b hp hs) h

/-- In a run from reset, every call leaves the counter right and every attempt sends back exactly whom
it moved, if and only if no bound driver is unregistered and every attempt is smooth. -/
theorem framework_accounts (ops : List (Op M D)) :
    Meets (step b) (StepOk b) Pform.init ops ↔ Meets (step b) (Spared b) Pform.init ops :=
  meets_stepOk_iff b Pform.counted_init

end Results

def fullBoard : Board (Fin 2) (Fin 2) where
  goto2pmMode := fun _ => true
  clkEnable := fun _ => true

def secondBusy : Attempt (Fin 2) where
  enterFn := true
  canTryPmState := true
  goto2M4 := fun d => if d = 1 then -1 else 0
  setUpWkupSrcs := 0
  areIrqsPending := false
  sleeps := true

/-- A module that is registered and unregistered stays in the count; and a module that refused is
sent to the mode it never left. -/
theorem unregistered_counted :
    ¬ Meets (step fullBoard) (StepOk fullBoard) Pform.init
        [.register (some 0) (some 0), .unregister (some 0)] ∧
      ¬ Meets (step fullBoard) (StepOk fullBoard) Pform.init
        [.register (some 0) (some 0), .register (some 1) (some 1), .trySx .s3 secondBusy] := by
  constructor <;> rw [meets_stepOk_iff fullBoard Pform.counted_init]
  · rintro ⟨-, hun, -⟩
    exact absurd (hun 0 rfl) (by decide)
  · rintro ⟨-, -, htry, -⟩
    exact absurd ((htry ⟨rfl, rfl⟩).1 1) (by decide)

end SimpleLink.Pm
