import Mathlib.Data.List.TakeWhile
import SimpleLink.Lib.PtrList
import SimpleLink.Lib.Run

/-!
# The list of the contexts in use (`mqtt_common.c`)

The records of contexts are of a type `C`; `Links` has their `next` and the head of the list that is
worked on. The list is in the order of `timeout`. `members` is what the operations were asked to put
in and not to take out: the program has no such thing.
-/

namespace SimpleLink.Mqtt.UsedCtxs

open Lib

/-! ## The functions -/

structure Links (C : Type) where
  next : C → Option C
  head : Option C

variable {C : Type} [Fintype C] [DecidableEq C]

/-- `cl_ctx_timeout_insert`. -/
def clCtxTimeoutInsert (timeout : C → UInt32) (s : Links C) (elem : C) : Option (Links C) :=
  match s.head with
  | none => some { s with head := some elem }
  | some _ =>
    match seek s.next (fun curr => timeout elem < timeout curr) (Fintype.card C) none s.head with
    | some (none, some _) => some ⟨Function.update s.next elem s.head, some elem⟩
    | some (some prev, some curr) =>
      let next := Function.update s.next prev (some elem)
      some { s with next := Function.update next elem (some curr) }
    | some (some prev, none) => some { s with next := Function.update s.next prev (some elem) }
    -- a list without an end
    | _ => none

/-- `cl_ctx_remove`. -/
def clCtxRemove (s : Links C) (elem : C) : Option (Links C) :=
  match seek s.next (· = elem) (Fintype.card C) none s.head with
  | some (_, none) => some s
  | some (none, some _) => some ⟨Function.update s.next elem none, s.next elem⟩
  | some (some prev, some _) =>
    let next := Function.update s.next prev (s.next elem)
    some { s with next := Function.update next elem none }
  | none => none

/-- `KA_TIMEOUT_NONE`. -/
def kaTimeoutNone : UInt32 := 0xFFFFFFFF

/-- `cl_ctx_timeout_update`: what `timeout` becomes. -/
def clCtxTimeoutUpdate (kaSecs : UInt16) (timeout now : UInt32) : UInt32 :=
  if kaSecs = 0 && timeout = kaTimeoutNone then timeout
  else if kaSecs ≠ 0 then now + kaSecs.toUInt32 else kaTimeoutNone

/-! ## What they do to a list -/

section Functions

variable (timeout : C → UInt32) {s : Links C} {l : List C} {c : C}

omit [DecidableEq C] in
/-- Where the loop of `cl_ctx_timeout_insert` stops. -/
theorem seek_timeout (hl : Linked s.next s.head l) (c : C) :
    ∃ l₁ l₂, l = l₁ ++ l₂ ∧ l.orderedInsert (timeout · < timeout ·) c = l₁ ++ c :: l₂ ∧
      seek s.next (fun curr => timeout c < timeout curr) (Fintype.card C) none s.head =
        some (l₁.getLast?, l₂.head?) ∧
      (∀ d ∈ l₁, ¬ timeout c < timeout d) ∧ ∀ d ∈ l₂.head?, timeout c < timeout d := by
  have hseek := Linked.seek (p := fun curr => timeout c < timeout curr) hl hl.length_le none
  have hsplit : l.takeWhile (fun curr => !decide (timeout c < timeout curr)) ++
      l.dropWhile (fun curr => !decide (timeout c < timeout curr)) = l :=
    List.takeWhile_append_dropWhile
  refine ⟨_, _, hsplit.symm, ?_, ?_, ?_, ?_⟩
  · rw [List.orderedInsert_eq_take_drop]
    simp only [decide_not]
  · rw [hseek, Option.or_none]
  · intro d hd
    simpa using List.mem_takeWhile_imp hd
  · intro d hd
    have hstop := List.head?_dropWhile_not (fun curr => !decide (timeout c < timeout curr)) l
    rw [Option.mem_def.1 hd] at hstop
    simpa using hstop

theorem timeoutInsert_linked (hl : Linked s.next s.head l) (hc : c ∉ l)
    (hnext : s.next c = none ∨ ∃ d ∈ l, timeout c < timeout d) :
    ∃ s', clCtxTimeoutInsert timeout s c = some s' ∧
      Linked s'.next s'.head (l.orderedInsert (timeout · < timeout ·) c) := by
  unfold clCtxTimeoutInsert
  cases l with
  | nil =>
    have hnone : s.next c = none := hnext.resolve_right (by simp)
    rw [Linked.head hl]
    exact ⟨_, rfl, rfl, hnone⟩
  | cons d l =>
    obtain ⟨l₁, l₂, hsplit, hord, hseek, hbefore, -⟩ := seek_timeout timeout hl c
    have hhead : s.head = some d := hl.1
    rw [hord, hhead]
    rw [hhead] at hseek
    simp only [hseek]
    rw [hsplit] at hl hc
    cases l₂ with
    | nil =>
      rw [List.append_nil] at hl hc hsplit
      -- nothing is due later, and nothing follows the context
      have hnone : s.next c = none := by
        refine hnext.resolve_right ?_
        rintro ⟨e, he, hlt⟩
        exact hbefore e (hsplit ▸ he) hlt
      rcases Linked.extend hl hc with ⟨rfl, -⟩ | ⟨l₀, p, rfl, hpath⟩
      · cases hsplit
      · rw [hnone, hhead] at hpath
        rw [List.getLast?_concat]
        exact ⟨_, rfl, hpath⟩
    | cons e l₂ =>
      rcases Linked.splice hl hc with ⟨rfl, hlinked⟩ | ⟨l₀, p, rfl, hlinked⟩
      · rw [hhead] at hlinked
        exact ⟨_, rfl, hlinked⟩
      · rw [hhead] at hlinked
        rw [List.getLast?_concat]
        exact ⟨_, rfl, hlinked⟩

theorem timeoutInsert_behind (hl : Linked s.next s.head l) (hc : c ∉ l)
    (hnext : s.next c ≠ none) (hlast : ∀ d ∈ l, ¬ timeout c < timeout d) :
    ∃ s', clCtxTimeoutInsert timeout s c = some s' ∧
      ∀ l', Linked s'.next s'.head l' → ¬ l'.Perm (c :: l) := by
  have hlonger : ∀ s' : Links C, Path s'.next s'.head (l ++ [c]) (s.next c) →
      ∀ l', Linked s'.next s'.head l' → ¬ l'.Perm (c :: l) := by
    intro s' hpath l' hl' hperm
    obtain ⟨l₂, rfl, h₂⟩ := Linked.of_path hl' hpath
    have hlen := hperm.length_eq
    simp only [List.length_append, List.length_cons, List.length_nil] at hlen
    exact hnext ((Linked.nil_iff h₂).2 (List.length_eq_zero_iff.1 (by omega)))
  unfold clCtxTimeoutInsert
  cases l with
  | nil =>
    rw [Linked.head hl]
    exact ⟨_, rfl, hlonger _ ⟨rfl, rfl⟩⟩
  | cons d l =>
    obtain ⟨l₁, l₂, hsplit, -, hseek, -, hafter⟩ := seek_timeout timeout hl c
    have hhead : s.head = some d := hl.1
    have hnil : l₂ = [] := by
      cases l₂ with
      | nil => rfl
      | cons e l₂ => exact absurd (hafter e rfl) (hlast e (by rw [hsplit]; simp))
    rw [hnil, List.append_nil] at hsplit
    rw [hhead, hnil, ← hsplit] at hseek
    rw [hhead]
    simp only [hseek]
    rcases Linked.extend hl hc with ⟨hempty, -⟩ | ⟨l₀, p, hend, hpath⟩
    · cases hempty
    · rw [hhead] at hpath
      have hgetLast : (d :: l).getLast? = some p := by rw [hend, List.getLast?_concat]
      rw [hgetLast]
      exact ⟨_, rfl, hlonger ⟨Function.update s.next p (some c), some d⟩ hpath⟩

theorem remove_linked (hl : Linked s.next s.head l) :
    ∃ s', clCtxRemove s c = some s' ∧ Linked s'.next s'.head (l.erase c) ∧
      (c ∈ l → s'.next c = none) ∧ (c ∉ l → s' = s) ∧ ∀ d, d ∉ l → s'.next d = s.next d := by
  unfold clCtxRemove
  have hseek := Linked.seek (p := fun curr => decide (curr = c)) hl hl.length_le none
  by_cases hc : c ∈ l
  · obtain ⟨l₁, l₂, rfl, hc₁⟩ := List.eq_append_cons_of_mem hc
    have hpos : ∀ d ∈ l₁, (!decide (d = c)) = true := by
      intro d hd
      have hne : d ≠ c := fun he => hc₁ (he ▸ hd)
      simpa using hne
    rw [List.takeWhile_append_of_pos hpos, List.dropWhile_append_of_pos hpos,
      List.takeWhile_cons_of_neg (by simp), List.dropWhile_cons_of_neg (by simp),
      List.append_nil, Option.or_none, List.head?_cons] at hseek
    rw [hseek, List.erase_append_right _ hc₁, List.erase_cons_head]
    rcases Linked.cut hl with ⟨rfl, hcut⟩ | ⟨l₀, p, rfl, hcut⟩
    · refine ⟨_, rfl, hcut, fun _ => Function.update_self .., fun h => absurd hc h, fun d hd => ?_⟩
      exact Function.update_of_ne (fun he => hd (by simp [he])) ..
    · rw [List.getLast?_concat]
      refine ⟨_, rfl, hcut, fun _ => Function.update_self .., fun h => absurd hc h, fun d hd => ?_⟩
      have hdc : d ≠ c := fun he => hd (by simp [he])
      have hdp : d ≠ p := fun he => hd (by simp [he])
      show Function.update (Function.update s.next p (s.next c)) c none d = s.next d
      rw [Function.update_of_ne hdc, Function.update_of_ne hdp]
  · have hpos : ∀ d ∈ l, (!decide (d = c)) = true := by
      intro d hd
      have hne : d ≠ c := fun he => hc (he ▸ hd)
      simpa using hne
    have hnil : l.dropWhile (fun d => !decide (d = c)) = [] := List.dropWhile_eq_nil_iff.2 hpos
    rw [hnil] at hseek
    rw [hseek, List.erase_of_not_mem hc]
    exact ⟨s, rfl, hl, fun h => absurd h hc, fun _ => rfl, fun _ _ => rfl⟩

end Functions

/-! ## Runs -/

structure CtxList (C : Type) where
  links : Links C
  timeout : C → UInt32
  kaSecs : C → UInt16
  members : List C

/-- What is done with the list. The caller of `insert` has set the deadline of the context, and its
link is what the caller left in it: `accept_ctx` clears it, `conn2used_ctxs` takes the context out of
another list. -/
inductive CtxOp (C : Type)
  | insert (c : C) (timeout : UInt32) (next : Option C)
  | remove (c : C)
  /-- `ka_secs` is set. -/
  | keepAlive (c : C) (kaSecs : UInt16)
  | update (c : C) (now : UInt32)
  /-- `rx_timeout_update` of the server, and the update that `used_ctxs_TO_sort` follows. -/
  | refresh (c : C) (now : UInt32)

def CtxList.due (s : CtxList C) (c : C) (now : UInt32) : UInt32 :=
  clCtxTimeoutUpdate (s.kaSecs c) (s.timeout c) now

def CtxList.insert (s : CtxList C) (c : C) : Option (CtxList C) :=
  (clCtxTimeoutInsert s.timeout s.links c).map fun links =>
    { s with links := links, members := c :: s.members }

def CtxList.remove (s : CtxList C) (c : C) : Option (CtxList C) :=
  (clCtxRemove s.links c).map fun links =>
    { s with links := links, members := s.members.erase c }

def CtxList.setTimeout (s : CtxList C) (c : C) (timeout : UInt32) : CtxList C :=
  { s with timeout := Function.update s.timeout c timeout }

def CtxList.setNext (s : CtxList C) (c : C) (next : Option C) : CtxList C :=
  { s with links := ⟨Function.update s.links.next c next, s.links.head⟩ }

def ctxStep (s : CtxList C) : CtxOp C → Option (CtxList C × Unit)
  | .insert c timeout next => (((s.setTimeout c timeout).setNext c next).insert c).map (·, ())
  | .remove c => (s.remove c).map (·, ())
  | .keepAlive c kaSecs => some ({ s with kaSecs := Function.update s.kaSecs c kaSecs }, ())
  | .update c now => some (s.setTimeout c (s.due c now), ())
  | .refresh c now =>
    (((s.setTimeout c (s.due c now)).remove c).bind (CtxList.insert · c)).map (·, ())

def noCtxs : CtxList C := ⟨⟨fun _ => none, none⟩, fun _ => 0, fun _ => 0, []⟩

def CtxList.Ok (s : CtxList C) : Prop :=
  ∃ l, Linked s.links.next s.links.head l ∧ l.Pairwise (s.timeout · ≤ s.timeout ·) ∧
    l.Perm s.members

def Keeps (s : CtxList C) (op : CtxOp C) : Prop := ∃ s', ctxStep s op = some (s', ()) ∧ s'.Ok

/-- A context of the list is due later than `t`. -/
def CtxList.Later (s : CtxList C) (t : UInt32) : Prop := ∃ d ∈ s.members, t < s.timeout d

/-- The deadline is not before that of the context that precedes `c`, nor after that of the next. -/
def CtxList.Between (s : CtxList C) (c : C) (t : UInt32) : Prop :=
  (∀ d ∈ s.members, d ≠ c → s.links.next d = some c → s.timeout d ≤ t) ∧
    ∀ d, d ≠ c → s.links.next c = some d → t ≤ s.timeout d

/-- A context is put in once, and before another if its link is set. A deadline that is changed with
the context in its place stays between those of its neighbours. -/
def Orderly (s : CtxList C) : CtxOp C → Prop
  | .insert c timeout next => c ∉ s.members ∧ (next = none ∨ s.Later timeout)
  | .remove _ => True
  | .keepAlive .. => True
  | .update c now => c ∈ s.members → s.Between c (s.due c now)
  | .refresh c now => c ∈ s.members ∨ s.links.next c = none ∨ s.Later (s.due c now)

section Steps

variable {s : CtxList C} {l : List C} {c : C}

omit [Fintype C] in
theorem pairwise_setTimeout (hsorted : l.Pairwise (s.timeout · ≤ s.timeout ·)) (hc : c ∉ l)
    (t : UInt32) :
    l.Pairwise ((s.setTimeout c t).timeout · ≤ (s.setTimeout c t).timeout ·) := by
  refine hsorted.imp_of_mem fun {a b} ha hb hab => ?_
  have hne : ∀ d ∈ l, d ≠ c := by
    rintro d hd rfl
    exact hc hd
  simp only [CtxList.setTimeout]
  rw [Function.update_of_ne (hne a ha), Function.update_of_ne (hne b hb)]
  exact hab

omit [Fintype C] in
theorem later_setTimeout (hc : c ∉ s.members) {t : UInt32} :
    (s.setTimeout c t).Later ((s.setTimeout c t).timeout c) ↔ s.Later t := by
  have hself : (s.setTimeout c t).timeout c = t := Function.update_self ..
  have hother : ∀ d ∈ s.members, (s.setTimeout c t).timeout d = s.timeout d := by
    intro d hd
    refine Function.update_of_ne ?_ ..
    rintro rfl
    exact hc hd
  unfold CtxList.Later
  rw [hself]
  constructor
  · rintro ⟨d, hd, hlt⟩
    exact ⟨d, hd, hother d hd ▸ hlt⟩
  · rintro ⟨d, hd, hlt⟩
    exact ⟨d, hd, (hother d hd).symm ▸ hlt⟩

theorem insert_ok (hok : s.Ok) :
    (∃ s', s.insert c = some s' ∧ s'.Ok) ↔
      c ∉ s.members ∧ (s.links.next c = none ∨ s.Later (s.timeout c)) := by
  obtain ⟨l, hl, hsorted, hperm⟩ := hok
  unfold CtxList.insert
  constructor
  · rintro ⟨s', hs', l', hl', -, hperm'⟩
    obtain ⟨links, hlinks, rfl⟩ := Option.map_eq_some_iff.1 hs'
    have hnodup := hperm'.nodup_iff.1 (Linked.nodup hl')
    have hc : c ∉ s.members := (List.nodup_cons.1 hnodup).1
    refine ⟨hc, Classical.or_iff_not_imp_left.2 fun hnext => ?_⟩
    by_contra hlater
    obtain ⟨links', hlinks', hlost⟩ := timeoutInsert_behind s.timeout hl
      (fun hm => hc (hperm.mem_iff.1 hm)) hnext
      fun d hd hlt => hlater ⟨d, hperm.mem_iff.1 hd, hlt⟩
    obtain rfl : links = links' := Option.some.inj (hlinks.symm.trans hlinks')
    exact hlost l' hl' (hperm'.trans (hperm.symm.cons c))
  · rintro ⟨hc, hnext⟩
    obtain ⟨links, hlinks, hlinked⟩ := timeoutInsert_linked s.timeout hl
      (fun hm => hc (hperm.mem_iff.1 hm))
      (hnext.imp_right fun ⟨d, hd, hlt⟩ => ⟨d, hperm.mem_iff.2 hd, hlt⟩)
    rw [hlinks]
    refine ⟨_, rfl, _, hlinked, pairwise_orderedInsert c hsorted, ?_⟩
    exact (List.perm_orderedInsert _ c l).trans (hperm.cons c)

theorem remove_setTimeout (hok : s.Ok) (c : C) (t : UInt32) :
    ∃ s', (s.setTimeout c t).remove c = some s' ∧ s'.Ok ∧ c ∉ s'.members ∧
      (c ∈ s.members → s'.links.next c = none) ∧ (c ∉ s.members → s' = s.setTimeout c t) := by
  obtain ⟨l, hl, hsorted, hperm⟩ := hok
  obtain ⟨links, hlinks, hlinked, hnone, hsame, -⟩ := remove_linked (c := c) hl
  have hout : c ∉ l.erase c := (Linked.nodup hl).not_mem_erase
  have hremove : (s.setTimeout c t).remove c =
      some { s.setTimeout c t with links := links, members := s.members.erase c } := by
    unfold CtxList.remove
    rw [show (s.setTimeout c t).links = s.links from rfl, hlinks]
    rfl
  refine ⟨_, hremove, ⟨_, hlinked, ?_, hperm.erase c⟩, ?_, ?_, ?_⟩
  · have hsub : (l.erase c).Pairwise (s.timeout · ≤ s.timeout ·) :=
      hsorted.sublist List.erase_sublist
    exact pairwise_setTimeout hsub hout t
  · exact fun hm => hout ((hperm.erase c).mem_iff.2 hm)
  · exact fun hm => hnone (hperm.mem_iff.2 hm)
  · intro hm
    have hlinks' : links = s.links := hsame fun h => hm (hperm.mem_iff.1 h)
    rw [hlinks', List.erase_of_not_mem hm]
    rfl

omit [Fintype C] in
theorem ok_setTimeout (hok : s.Ok) (hc : c ∉ s.members) (t : UInt32) : (s.setTimeout c t).Ok := by
  obtain ⟨l, hl, hsorted, hperm⟩ := hok
  exact ⟨l, hl, pairwise_setTimeout hsorted (fun hm => hc (hperm.mem_iff.1 hm)) t, hperm⟩

omit [Fintype C] in
theorem setTimeout_ok_iff (hok : s.Ok) (hc : c ∈ s.members) (t : UInt32) :
    (s.setTimeout c t).Ok ↔ s.Between c t := by
  obtain ⟨l, hl, hsorted, hperm⟩ := hok
  have hchain : ∀ timeout : C → UInt32, l.Pairwise (timeout · ≤ timeout ·) ↔
      ∀ a ∈ l, ∀ b, s.links.next a = some b → timeout a ≤ timeout b := by
    intro timeout
    have : Trans (fun a b => timeout a ≤ timeout b) (fun a b => timeout a ≤ timeout b)
      (fun a b => timeout a ≤ timeout b) := ⟨UInt32.le_trans⟩
    rw [← List.isChain_iff_pairwise]
    exact Linked.isChain_iff hl
  have hself : (s.setTimeout c t).timeout c = t := Function.update_self ..
  have hother : ∀ d, d ≠ c → (s.setTimeout c t).timeout d = s.timeout d :=
    fun d hd => Function.update_of_ne hd ..
  constructor
  · rintro ⟨l', hl', hsorted', -⟩
    obtain rfl : l = l' := Linked.unique hl hl'
    have hall := (hchain _).1 hsorted'
    refine ⟨fun d hd hne hnext => ?_, fun d hne hnext => ?_⟩
    · have hle := hall d (hperm.mem_iff.2 hd) c hnext
      rwa [hself, hother d hne] at hle
    · have hle := hall c (hperm.mem_iff.2 hc) d hnext
      rwa [hself, hother d hne] at hle
  · rintro ⟨hbefore, hafter⟩
    refine ⟨l, hl, (hchain _).2 fun a ha b hnext => ?_, hperm⟩
    by_cases hac : a = c
    · by_cases hbc : b = c
      · rw [hac, hbc]
        exact UInt32.le_refl _
      · subst hac
        rw [hself, hother b hbc]
        exact hafter b hbc hnext
    · by_cases hbc : b = c
      · subst hbc
        rw [hself, hother a hac]
        exact hbefore a (hperm.mem_iff.1 ha) hac hnext
      · rw [hother a hac, hother b hbc]
        exact (hchain _).1 hsorted a ha b hnext

theorem keeps_iff (hok : s.Ok) (op : CtxOp C) : Keeps s op ↔ Orderly s op := by
  have hmap : ∀ r : Option (CtxList C),
      (∃ s', r.map (·, ()) = some (s', ()) ∧ s'.Ok) ↔ ∃ s', r = some s' ∧ s'.Ok := by
    intro r
    cases r <;> simp
  cases op with
  | insert c t next =>
    refine (hmap _).trans ?_
    by_cases hc : c ∈ s.members
    · refine iff_of_false ?_ fun h => h.1 hc
      rintro ⟨s', hs', l', hl', -, hperm'⟩
      obtain ⟨links, -, rfl⟩ := Option.map_eq_some_iff.1 hs'
      exact (List.nodup_cons.1 (hperm'.nodup_iff.1 (Linked.nodup hl'))).1 hc
    · obtain ⟨l, hl, hsorted, hperm⟩ := ok_setTimeout hok hc t
      have hcl : c ∉ l := fun hm => hc (hperm.mem_iff.1 hm)
      have hok' : ((s.setTimeout c t).setNext c next).Ok :=
        ⟨l, Path.update hl hcl next, hsorted, hperm⟩
      refine (insert_ok hok').trans ?_
      have hlink : ((s.setTimeout c t).setNext c next).links.next c = next :=
        Function.update_self ..
      rw [hlink]
      exact and_congr_right fun _ => or_congr_right (later_setTimeout hc)
  | remove c =>
    refine (hmap _).trans (iff_of_true ?_ trivial)
    obtain ⟨s', hs', hok', -⟩ := remove_setTimeout hok c (s.timeout c)
    have hsame : s.setTimeout c (s.timeout c) = s := by
      unfold CtxList.setTimeout
      rw [Function.update_eq_self]
    rw [hsame] at hs'
    exact ⟨s', hs', hok'⟩
  | keepAlive c kaSecs => exact iff_of_true ⟨_, rfl, hok⟩ trivial
  | update c now =>
    by_cases hc : c ∈ s.members
    · have hstep : Keeps s (.update c now) ↔ (s.setTimeout c (s.due c now)).Ok := by
        refine ⟨?_, fun h => ⟨_, rfl, h⟩⟩
        rintro ⟨s', hs', hok'⟩
        cases hs'
        exact hok'
      rw [hstep, setTimeout_ok_iff hok hc]
      exact ⟨fun h _ => h, fun h => h hc⟩
    · exact iff_of_true ⟨_, rfl, ok_setTimeout hok hc _⟩ fun h => absurd h hc
  | refresh c now =>
    refine (hmap _).trans ?_
    obtain ⟨s', hs', hok', hout, hin, hsame⟩ := remove_setTimeout hok c (s.due c now)
    rw [hs', Option.bind_some, insert_ok hok', and_iff_right hout]
    by_cases hc : c ∈ s.members
    · exact iff_of_true (.inl (hin hc)) (.inl hc)
    · obtain rfl := hsame hc
      rw [later_setTimeout hc]
      exact (or_iff_right hc).symm

end Steps

omit [Fintype C] [DecidableEq C] in
theorem ok_noCtxs : (noCtxs : CtxList C).Ok := ⟨[], rfl, List.Pairwise.nil, .refl _⟩

theorem meets_keeps_iff (ops : List (CtxOp C)) :
    Meets ctxStep Keeps noCtxs ops ↔ Meets ctxStep Orderly noCtxs ops := by
  have hnext : ∀ {s s' : CtxList C} {op : CtxOp C} {o : Unit}, Keeps s op →
      ctxStep s op = some (s', o) → s'.Ok := by
    rintro s s' op o ⟨s₁, hs₁, hok⟩ hs
    obtain rfl : s₁ = s' := (Prod.mk.inj (Option.some.inj (hs₁.symm.trans hs))).1
    exact hok
  constructor
  · refine Meets.imp (I := CtxList.Ok) (fun hok h => (keeps_iff hok _).1 h) ?_ ok_noCtxs
    exact fun _ h hs => hnext h hs
  · refine Meets.imp (I := CtxList.Ok) (fun hok h => (keeps_iff hok _).2 h) ?_ ok_noCtxs
    exact fun hok h hs => hnext ((keeps_iff hok _).2 h) hs

/-! ## Where it goes wrong -/

/-- `conn2used_ctxs`: the calls for the contexts of a list, each of which still has its link. -/
def conn2usedOps (timeout : C → UInt32) : List C → List (CtxOp C)
  | [] => []
  | c :: l => .insert c (timeout c) l.head? :: conn2usedOps timeout l

theorem conn2used_not_orderly (timeout : C → UInt32) (c d : C) (l : List C) :
    ¬ Meets ctxStep Orderly noCtxs (conn2usedOps timeout (c :: d :: l)) := by
  rintro ⟨⟨-, hnone | ⟨e, he, -⟩⟩, -⟩
  · cases hnone
  · cases he

end SimpleLink.Mqtt.UsedCtxs
