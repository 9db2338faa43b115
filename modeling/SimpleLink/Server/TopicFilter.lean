import Mathlib.Data.List.Destutter
import SimpleLink.Lib.Overwrite
import SimpleLink.Server.CoreOps

/-!
# The filter of a subscription (`server_core.c`)

`proc_forward_slash` and `is_valid_SUB_top` as they index the packet in which the topic stands; `none` is
the use of a byte behind it. The first one compacts the topic in place, with `j` behind `i`, and ends it
with a NUL. What they are for is said with the levels of a topic.
-/

namespace SimpleLink.Server

open Lib

/-! ## The functions -/

/-- The loop of `proc_forward_slash`, with so many turns to go. -/
def slashLoop : (turns : Nat) → (buf : List UInt8) → (i j : Nat) → Option (List UInt8 × Nat)
  | 0, buf, _, j => some (buf, j)
  | turns + 1, buf, i, j => do
    let curr ← buf[i]?
    let prev ← buf[i - 1]?
    if slash = curr ∧ prev = curr then slashLoop turns buf (i + 1) j
    else if j < buf.length then slashLoop turns (buf.set j curr) (i + 1) (j + 1)
    else none

/-- `proc_forward_slash`: what the memory that begins with the topic holds then, and the length. -/
def procForwardSlashIn (buf : List UInt8) (len : Nat) : Option (List UInt8 × Nat) := do
  let (buf, j) ← slashLoop (len - 1) buf 1 1
  let j ← if 1 ≠ j then (buf[j - 1]?).map fun last => if slash = last then j - 1 else j else some j
  if j < buf.length then some (buf.set j 0, j) else none

/-- The loop of `is_valid_SUB_top`: the `i` at its end. -/
def validLoop : (turns : Nat) → (buf : List UInt8) → (i : Nat) → (curr : UInt8) → Option Nat
  | 0, _, i, _ => some i
  | turns + 1, buf, i, curr =>
    if curr = 0 then some i
    else do
      let prev := curr
      let curr ← buf[i]?
      if isValidCharOrder prev curr = false then some i else validLoop turns buf (i + 1) curr

/-- `is_valid_SUB_top` of the first `len` bytes of `buf`. -/
def isValidSubTopIn (buf : List UInt8) (len : Nat) : Option Bool :=
  if len = 0 then some false
  else do
    let first ← buf[0]?
    if first = 0 then some false
    else do
      let curr ← buf[0]?
      let i ← validLoop (len - 1) buf 1 curr
      some (decide (i = len))

/-! ## What is expected -/

def NotBothSlash (a b : UInt8) : Prop := ¬ (a = slash ∧ b = slash)

instance : DecidableRel NotBothSlash := fun a b => inferInstanceAs (Decidable (¬ (a = slash ∧ b = slash)))

/-- Each run of `/` is one, and none is at the end. -/
def canonical (topic : List UInt8) : List UInt8 :=
  let out := topic.destutter NotBothSlash
  if out ≠ [slash] ∧ out.getLast? = some slash then out.dropLast else out

/-- A wildcard is a level of its own, and `#` is the last one. -/
def LevelsOk : List (List UInt8) → Prop
  | [] => True
  | level :: rest =>
    (plus ∈ level → level = [plus]) ∧ (hash ∈ level → level = [hash] ∧ rest = []) ∧ LevelsOk rest

structure ValidFilter (topic : List UInt8) : Prop where
  nonempty : topic ≠ []
  noNul : 0 ∉ topic
  levels : LevelsOk (topic.splitOn slash)

/-! ## Compaction -/

theorem destutter'_eq (c : UInt8) (buf : List UInt8) :
    buf.destutter' NotBothSlash c = c :: dropSlashes c buf := by
  induction buf generalizing c with
  | nil => rfl
  | cons d buf ih =>
    rw [List.destutter'_cons, dropSlashes]
    by_cases h : d = slash ∧ c = slash
    · obtain ⟨rfl, rfl⟩ := h
      have hboth : ¬ NotBothSlash slash slash := not_not_intro ⟨rfl, rfl⟩
      rw [if_neg hboth, if_pos ⟨rfl, rfl⟩, ih]
    · have hnot : NotBothSlash c d := fun hboth => h hboth.symm
      rw [if_pos hnot, if_neg h, ih]

/-- What the loop leaves behind `j`. -/
theorem slashLoop_eq (buf : List UInt8) {mem tail : List UInt8} {i j : Nat} {prev : UInt8} (hj : j ≤ i)
    (hmem : mem.drop i = buf ++ tail) (hi : 0 < i) (hprev : mem[i - 1]? = some prev) :
    slashLoop buf.length mem i j =
      some (overwrite mem j (dropSlashes prev buf), j + (dropSlashes prev buf).length) := by
  induction buf generalizing mem i j prev with
  | nil =>
    rw [List.length_nil, slashLoop, dropSlashes, overwrite_nil]
    rfl
  | cons c buf ih =>
    have hc : mem[i]? = some c := by
      have hget := @List.getElem?_drop _ mem i 0
      rw [hmem] at hget
      exact hget.symm
    have hlt : i < mem.length := by
      rw [List.getElem?_eq_some_iff] at hc
      exact hc.1
    have hrest : mem.drop (i + 1) = buf ++ tail := by
      rw [← List.drop_drop, hmem]
      rfl
    rw [List.length_cons, slashLoop, hc, hprev, dropSlashes]
    simp only [Option.bind_eq_bind, Option.bind_some]
    by_cases h : c = slash ∧ prev = slash
    · obtain ⟨rfl, rfl⟩ := h
      rw [if_pos ⟨rfl, rfl⟩, if_pos ⟨rfl, rfl⟩]
      exact ih (by omega) hrest (by omega) hc
    · rw [if_neg (fun hs => h ⟨hs.1.symm, hs.2.trans hs.1.symm⟩), if_neg h, if_pos (by omega)]
      have hset : (mem.set j c).drop (i + 1) = buf ++ tail := by
        rw [List.drop_set, if_pos (by omega), hrest]
      have hlast : (mem.set j c)[i + 1 - 1]? = some c := by
        rw [Nat.add_sub_cancel, List.getElem?_set]
        split
        · rename_i he
          rw [if_pos (he ▸ hlt)]
        · exact hc
      rw [ih (by omega) hset (by omega) hlast, List.length_cons]
      have hlater : overwrite (mem.set j c) (j + 1) (dropSlashes c buf) =
          overwrite mem j (c :: dropSlashes c buf) := by
        rw [set_eq_overwrite (by omega)]
        exact @overwrite_overwrite _ mem [c] j (by omega) _
      rw [hlater]
      congr 2
      omega

theorem procForwardSlashIn_eq (c : UInt8) (buf : List UInt8) (x : UInt8) (rest : List UInt8) :
    procForwardSlashIn (c :: buf ++ x :: rest) (c :: buf).length =
      some (overwrite (c :: buf ++ x :: rest) 0 (canonical (c :: buf) ++ [0]),
        (canonical (c :: buf)).length) := by
  obtain ⟨out, hout⟩ : ∃ out, out = (c :: buf).destutter NotBothSlash := ⟨_, rfl⟩
  have hcons : out = c :: dropSlashes c buf := by
    rw [hout, List.destutter_cons', destutter'_eq]
  have hle : out.length ≤ (c :: buf).length := by
    rw [hout]
    exact (List.destutter_sublist _ _).length_le
  obtain ⟨mem, hmem⟩ : ∃ mem, mem = c :: buf ++ x :: rest := ⟨_, rfl⟩
  have hroom : out.length < mem.length := by
    rw [hmem, List.length_append]
    exact Nat.lt_of_le_of_lt hle (Nat.lt_add_of_pos_right (Nat.succ_pos _))
  -- the first byte stays where it is
  have hloop : slashLoop ((c :: buf).length - 1) mem 1 1 = some (overwrite mem 0 out, out.length) := by
    have hrest : mem.drop 1 = buf ++ x :: rest := by
      rw [hmem]
      rfl
    have hfirst : mem[1 - 1]? = some c := by
      rw [hmem]
      rfl
    have hrun := slashLoop_eq buf (Nat.le_refl 1) hrest Nat.one_pos hfirst
    rw [List.length_cons, Nat.add_sub_cancel, hrun, hcons, List.length_cons, Nat.add_comm 1]
    congr 2
    rw [hmem]
    exact overwrite_append_right [c] (buf ++ x :: rest) (dropSlashes c buf) 0
  unfold procForwardSlashIn canonical
  rw [← hmem, ← hout, hloop]
  simp only [Option.bind_eq_bind, Option.bind_some]
  obtain ⟨front, last, hsplit⟩ : ∃ front last, out = front ++ [last] := by
    have hne : out ≠ [] := hcons ▸ List.cons_ne_nil _ _
    exact ⟨out.dropLast, out.getLast hne, (List.dropLast_concat_getLast hne).symm⟩
  have hlen : out.length = front.length + 1 := by rw [hsplit, List.length_append, List.length_singleton]
  have hend : (overwrite mem 0 out).set out.length 0 = overwrite mem 0 (out ++ [0]) := by
    rw [set_eq_overwrite (by rw [length_overwrite (by omega)]; exact hroom), overwrite_zero_overwrite]
  have hmem1 : overwrite mem 0 out = front ++ last :: mem.drop out.length := by
    rw [overwrite_zero]
    conv_lhs => rw [hsplit, List.append_assoc, List.singleton_append, ← hsplit]
  have hstrip : (overwrite mem 0 out).set front.length 0 = overwrite mem 0 (front ++ [0]) := by
    rw [hmem1, List.set_append_right _ _ (Nat.le_refl _), Nat.sub_self, List.set_cons_zero, overwrite_zero,
      List.append_assoc, List.length_append, List.length_singleton, hlen]
    rfl
  have hlast : out.getLast? = some last := by rw [hsplit, List.getLast?_concat]
  have hat : (overwrite mem 0 out)[out.length - 1]? = some last := by
    rw [hlen, Nat.add_sub_cancel, hmem1, List.getElem?_append_right (Nat.le_refl _), Nat.sub_self]
    rfl
  have hroom' : out.length < (overwrite mem 0 out).length := by
    rw [length_overwrite (by omega)]
    exact hroom
  rw [hlast, hat, Option.map_some]
  by_cases hone : front = []
  · -- a single byte is kept, also a `/`
    have hout1 : out.length = 1 := by rw [hlen, hone, List.length_nil]
    have hkeep : ¬ (out ≠ [slash] ∧ some last = some slash) := by
      rintro ⟨hne, hsl⟩
      rw [hsplit, hone, Option.some.inj hsl] at hne
      exact hne rfl
    rw [if_neg (not_not_intro hout1.symm), if_neg hkeep, if_pos hroom', hend]
  · have hout1 : 1 ≠ out.length := by
      have hpos := List.length_pos_iff.2 hone
      omega
    have hne : out ≠ [slash] := fun he => hout1 (by rw [he]; rfl)
    rw [if_pos hout1]
    by_cases hs : slash = last
    · have hdrop : out ≠ [slash] ∧ some last = some slash := ⟨hne, congrArg some hs.symm⟩
      have hfront : out.dropLast = front := by rw [hsplit, List.dropLast_concat]
      rw [if_pos hs, if_pos hdrop, hfront, hlen, Nat.add_sub_cancel, Option.bind_some, if_pos (by omega), hstrip]
    · have hkeep : ¬ (out ≠ [slash] ∧ some last = some slash) := fun h => hs (Option.some.inj h.2).symm
      rw [if_neg hs, if_neg hkeep, Option.bind_some, if_pos hroom', hend]

/-! ## Acceptance -/

theorem validLoop_eq (buf : List UInt8) {mem : List UInt8} {i : Nat} {curr : UInt8}
    (hmem : mem.drop i = buf) :
    ∃ n, validLoop buf.length mem i curr = some n ∧ (n = i + buf.length ↔ validFrom curr buf = true) := by
  induction buf generalizing i curr with
  | nil => exact ⟨i, rfl, iff_of_true rfl rfl⟩
  | cons c buf ih =>
    have hc : mem[i]? = some c := by
      have hget := @List.getElem?_drop _ mem i 0
      rw [hmem] at hget
      exact hget.symm
    have hrest : mem.drop (i + 1) = buf := by
      rw [← List.drop_drop, hmem]
      rfl
    rw [List.length_cons, validLoop, validFrom, hc]
    simp only [Option.bind_eq_bind, Option.bind_some]
    by_cases h0 : curr = 0
    · rw [if_pos h0]
      exact ⟨i, rfl, iff_of_false (by omega) (by simp [h0])⟩
    · rw [if_neg h0]
      by_cases hord : isValidCharOrder curr c = false
      · rw [if_pos hord]
        exact ⟨i, rfl, iff_of_false (by omega) (by simp [hord])⟩
      · rw [if_neg hord]
        obtain ⟨n, hn, hiff⟩ := @ih (i + 1) c hrest
        refine ⟨n, hn, ?_⟩
        have hand : (curr != 0 && isValidCharOrder curr c) = true := by
          simp [h0, Bool.eq_true_of_not_eq_false hord]
        rw [hand, Bool.true_and, ← hiff]
        omega

/-- Nothing behind the topic is read, and it is accepted as `isValidSubTop` says. -/
theorem isValidSubTopIn_eq (topic : List UInt8) :
    isValidSubTopIn topic topic.length = some (isValidSubTop topic) := by
  cases topic with
  | nil => rfl
  | cons c buf =>
    unfold isValidSubTopIn isValidSubTop
    rw [if_neg (by simp)]
    simp only [List.getElem?_cons_zero, Option.bind_eq_bind, Option.bind_some]
    by_cases hc : c = 0
    · rw [if_pos hc]
      simp [hc]
    · rw [if_neg hc]
      obtain ⟨n, hn, hiff⟩ := @validLoop_eq buf (c :: buf) 1 c rfl
      rw [List.length_cons, Nat.add_sub_cancel, hn, Option.bind_some]
      have hne : (c != 0) = true := by simp [hc]
      rw [hne, Bool.true_and, Nat.add_comm buf.length, Option.some_inj, Bool.eq_iff_iff, decide_eq_true_iff]
      exact hiff

theorem validFrom_iff (c : UInt8) (buf : List UInt8) : validFrom c buf = true ↔
    0 ∉ (c :: buf).dropLast ∧ (c :: buf).IsChain (fun a b => isValidCharOrder a b = true) := by
  induction buf generalizing c with
  | nil => simp [validFrom]
  | cons d buf ih =>
    rw [validFrom, Bool.and_eq_true, Bool.and_eq_true, ih, List.dropLast_cons_cons, List.mem_cons,
      List.isChain_cons_cons]
    simp only [bne_iff_ne, ne_eq, not_or, eq_comm (a := (0 : UInt8))]
    tauto

theorem splitOn_cons {c : UInt8} (hc : c ≠ slash) (topic : List UInt8) :
    ∃ level rest, topic.splitOn slash = level :: rest ∧
      (c :: topic).splitOn slash = (c :: level) :: rest := by
  have hne : (c == slash) = false := by simp [hc]
  cases h : topic.splitOn slash with
  | nil => exact absurd h (List.splitOn_ne_nil _ _)
  | cons level rest =>
    refine ⟨level, rest, rfl, ?_⟩
    rw [List.splitOn_cons_eq_if_modifyHead, hne, h]
    rfl

theorem splitOn_slash (topic : List UInt8) :
    (slash :: topic).splitOn slash = [] :: topic.splitOn slash := by
  rw [List.splitOn_cons_eq_if_modifyHead]
  rfl

theorem levelsOk_nil_cons (rest : List (List UInt8)) : LevelsOk ([] :: rest) ↔ LevelsOk rest := by
  simp [LevelsOk]

theorem charOrder_slash_left (d : UInt8) : isValidCharOrder slash d = true := by
  have hplus : (slash == plus) = false := rfl
  have hhash : (slash == hash) = false := rfl
  simp only [isValidCharOrder, hplus, hhash, bne_self_eq_false, Bool.false_and, Bool.or_false, Bool.not_false]

theorem charOrder_slash_right (c : UInt8) : isValidCharOrder c slash = true ↔ c ≠ hash := by
  have hplus : (slash == plus) = false := rfl
  have hhash : (slash == hash) = false := rfl
  simp [isValidCharOrder, hplus, hhash]

theorem charOrder_iff {c d : UInt8} (hc : c ≠ slash) (hd : d ≠ slash) :
    isValidCharOrder c d = true ↔ (c ≠ plus ∧ c ≠ hash) ∧ d ≠ plus ∧ d ≠ hash := by
  have hc' : (c != slash) = true := bne_iff_ne.2 hc
  have hd' : (d != slash) = true := bne_iff_ne.2 hd
  simp only [isValidCharOrder, hc', hd', Bool.true_and, Bool.and_true, Bool.not_eq_true', Bool.or_eq_false_iff,
    beq_eq_false_iff_ne]
  tauto

/-- A level of one byte that is no `/`. -/
theorem levelsOk_singleton_cons (c : UInt8) (rest : List (List UInt8)) :
    LevelsOk ([c] :: rest) ↔ (c = hash → rest = []) ∧ LevelsOk rest := by
  rw [LevelsOk]
  constructor
  · rintro ⟨-, hh, hr⟩
    exact ⟨fun hc => (hh (hc ▸ List.mem_singleton_self _)).2, hr⟩
  · rintro ⟨hh, hr⟩
    refine ⟨fun hm => by rw [List.mem_singleton.1 hm], fun hm => ?_, hr⟩
    have hc := List.mem_singleton.1 hm
    exact ⟨by rw [hc], hh hc.symm⟩

theorem levelsOk_cons_cons (c d : UInt8) (level : List UInt8) (rest : List (List UInt8)) :
    LevelsOk ((c :: d :: level) :: rest) ↔
      (plus ∉ c :: d :: level ∧ hash ∉ c :: d :: level) ∧ LevelsOk rest := by
  have hne (x : UInt8) : c :: d :: level ≠ [x] := by simp
  rw [LevelsOk]
  constructor
  · rintro ⟨hp, hh, hr⟩
    exact ⟨⟨fun hm => hne _ (hp hm), fun hm => hne _ (hh hm).1⟩, hr⟩
  · rintro ⟨⟨hp, hh⟩, hr⟩
    exact ⟨fun hm => absurd hm hp, fun hm => absurd hm hh, hr⟩

theorem levelsOk_iff (topic : List UInt8) : LevelsOk (topic.splitOn slash) ↔
    topic.IsChain (fun a b => isValidCharOrder a b = true) := by
  induction topic with
  | nil => simp [LevelsOk]
  | cons c topic ih =>
    cases topic with
    | nil =>
      refine iff_of_true ?_ (List.isChain_singleton c)
      by_cases hc : c = slash
      · rw [hc, splitOn_slash]
        simp [LevelsOk]
      · have hsingle : slash ∉ [c] := fun hm => hc (List.mem_singleton.1 hm).symm
        rw [List.splitOn_eq_singleton hsingle, levelsOk_singleton_cons]
        exact ⟨fun _ => rfl, trivial⟩
    | cons d topic =>
      rw [List.isChain_cons_cons, ← ih]
      by_cases hc : c = slash
      · rw [hc, splitOn_slash, levelsOk_nil_cons, and_iff_right (charOrder_slash_left d)]
      · obtain ⟨level, rest, hl, hcl⟩ := splitOn_cons hc (d :: topic)
        rw [hl, hcl]
        by_cases hd : d = slash
        · -- `c` is a level of its own, and not the last
          rw [hd, splitOn_slash] at hl
          obtain ⟨rfl, rfl⟩ := List.cons.inj hl
          rw [hd, charOrder_slash_right c, levelsOk_singleton_cons, levelsOk_nil_cons]
          have hrest := List.splitOn_ne_nil slash topic
          exact and_congr_left' ⟨fun h he => hrest (h he), fun h he => absurd he h⟩
        · obtain ⟨level', rest', -, hdl⟩ := splitOn_cons hd topic
          rw [hl] at hdl
          obtain ⟨rfl, rfl⟩ := List.cons.inj hdl
          rw [charOrder_iff hc hd, levelsOk_cons_cons]
          cases level' with
          | nil =>
            rw [levelsOk_singleton_cons]
            simp only [List.mem_cons, List.not_mem_nil, or_false, not_or, @eq_comm _ plus, @eq_comm _ hash]
            tauto
          | cons e level' =>
            rw [levelsOk_cons_cons]
            simp only [List.mem_cons, not_or, @eq_comm _ plus, @eq_comm _ hash]
            tauto

theorem isValidSubTop_iff (topic : List UInt8) : isValidSubTop topic = true ↔
    topic.head? ≠ some 0 ∧ topic ≠ [] ∧ 0 ∉ topic.dropLast ∧ LevelsOk (topic.splitOn slash) := by
  cases topic with
  | nil => simp [isValidSubTop]
  | cons c buf =>
    rw [isValidSubTop, Bool.and_eq_true, validFrom_iff, levelsOk_iff]
    simp

theorem validFilter_iff (topic : List UInt8) : ValidFilter topic ↔
    topic ≠ [] ∧ 0 ∉ topic ∧ LevelsOk (topic.splitOn slash) :=
  ⟨fun h => ⟨h.nonempty, h.noNul, h.levels⟩, fun h => ⟨h.1, h.2.1, h.2.2⟩⟩

theorem levelsOk_nul (filter : List UInt8) : LevelsOk ((filter ++ [0]).splitOn slash) ↔
    LevelsOk (filter.splitOn slash) ∧ filter.getLast? ≠ some plus ∧ filter.getLast? ≠ some hash := by
  have hord (c : UInt8) : isValidCharOrder c 0 = true ↔ c ≠ plus ∧ c ≠ hash := by
    have hp : ((0 : UInt8) == plus) = false := rfl
    have hh : ((0 : UInt8) == hash) = false := rfl
    have hs : ((0 : UInt8) != slash) = true := rfl
    simp [isValidCharOrder, hp, hh, hs]
  rw [levelsOk_iff, levelsOk_iff, List.isChain_append, and_congr_right_iff]
  intro _
  rw [and_iff_right (List.isChain_singleton _)]
  constructor
  · intro h
    refine ⟨fun hl => ?_, fun hl => ?_⟩
    · exact ((hord _).1 (h plus hl 0 rfl)).1 rfl
    · exact ((hord _).1 (h hash hl 0 rfl)).2 rfl
  · rintro ⟨hp, hh⟩ c hc d hd
    cases hd
    exact (hord c).2 ⟨fun he => hp (he ▸ hc), fun he => hh (he ▸ hc)⟩

/-! ## Canonical topics -/

/-- The canonical topic is the one without consecutive `/`, or that one is it with a `/` behind. -/
theorem canonical_cases (topic : List UInt8) :
    (canonical topic = topic.destutter NotBothSlash ∧
      (canonical topic = [slash] ∨ (canonical topic).getLast? ≠ some slash)) ∨
    canonical topic ≠ [] ∧ topic.destutter NotBothSlash = canonical topic ++ [slash] := by
  unfold canonical
  dsimp only
  generalize topic.destutter NotBothSlash = out
  split
  · rename_i h
    obtain ⟨hne, hlast⟩ := h
    have hsplit : out = out.dropLast ++ [slash] := (List.dropLast_append_getLast? slash hlast).symm
    refine .inr ⟨fun hnil => hne ?_, hsplit⟩
    rw [hsplit, hnil, List.nil_append]
  · rename_i h
    exact .inl ⟨rfl, (Decidable.not_and_iff_or_not.1 h).imp_left Decidable.not_not.1⟩

theorem canonical_idem (topic : List UInt8) : canonical (canonical topic) = canonical topic := by
  have hchain := List.isChain_destutter NotBothSlash topic
  have hfix {out : List UInt8} (hc : out.IsChain NotBothSlash)
      (h : out = [slash] ∨ out.getLast? ≠ some slash) : canonical out = out := by
    unfold canonical
    rw [List.destutter_of_isChain _ _ hc]
    exact if_neg fun hboth => h.elim hboth.1 fun hl => hl hboth.2
  rcases canonical_cases topic with ⟨heq, hlast⟩ | ⟨hne, heq⟩
  · exact hfix (heq ▸ hchain) hlast
  · rw [heq, List.isChain_append] at hchain
    refine hfix hchain.1 (.inr fun hl => ?_)
    exact hchain.2.2 slash hl slash rfl ⟨rfl, rfl⟩

theorem canonical_sublist (topic : List UInt8) : (canonical topic).Sublist topic := by
  have hsub := List.destutter_sublist NotBothSlash topic
  rcases canonical_cases topic with ⟨heq, -⟩ | ⟨-, heq⟩
  · rw [heq]
    exact hsub
  · rw [heq] at hsub
    exact (List.sublist_append_left _ _).trans hsub

theorem canonical_ne_nil (c : UInt8) (buf : List UInt8) : canonical (c :: buf) ≠ [] := by
  rcases canonical_cases (c :: buf) with ⟨heq, -⟩ | ⟨hne, -⟩
  · rw [heq, List.destutter_cons']
    exact List.destutter'_ne_nil _ _
  · exact hne

/-! ## The two functions -/

/-- What `proc_forward_slash` writes is the canonical topic and a NUL, so that only the byte right behind
the topic can be touched, and only if the topic is canonical already; then nothing changes any more. -/
theorem forward_slash_canonical (c : UInt8) (buf : List UInt8) (x : UInt8) (rest : List UInt8) :
    let topic := c :: buf
    let out := canonical topic
    canonical out = out ∧
    ∃ mem, procForwardSlashIn (topic ++ x :: rest) topic.length = some (mem, out.length) ∧
      mem.length = (topic ++ x :: rest).length ∧ mem.take out.length = out ∧ mem[out.length]? = some 0 ∧
      mem.drop topic.length = (if out = topic then 0 else x) :: rest ∧
      procForwardSlashIn mem out.length = some (mem, out.length) := by
  intro topic out
  have hout : out = canonical topic := rfl
  have hsub : out.Sublist topic := canonical_sublist topic
  have hidem : canonical out = out := canonical_idem topic
  refine ⟨hidem, overwrite (topic ++ x :: rest) 0 (out ++ [0]), procForwardSlashIn_eq c buf x rest, ?_⟩
  have hle := hsub.length_le
  have hmem : overwrite (topic ++ x :: rest) 0 (out ++ [0]) =
      out ++ 0 :: (topic ++ x :: rest).drop (out.length + 1) := by
    rw [overwrite_zero, List.append_assoc, List.length_append, List.length_singleton]
    rfl
  rw [hmem]
  refine ⟨?_, List.take_left, ?_, ?_, ?_⟩
  · simp only [List.length_append, List.length_cons, List.length_drop]
    omega
  · rw [List.getElem?_append_right (Nat.le_refl _), Nat.sub_self]
    rfl
  · by_cases heq : out = topic
    · rw [if_pos heq, heq, List.drop_left, ← List.drop_drop, List.drop_left]
      rfl
    · have hlt : out.length < topic.length :=
        Nat.lt_of_le_of_ne hle fun hl => heq (hsub.eq_of_length hl)
      obtain ⟨k, hk⟩ := Nat.exists_eq_add_of_lt hlt
      rw [if_neg heq, hk, Nat.add_assoc, List.drop_length_add_append, List.drop_succ_cons, List.drop_drop,
        show out.length + 1 + k = topic.length by omega, List.drop_left]
  · -- the result is a topic with the NUL behind it
    obtain ⟨d, out', hcons⟩ := List.exists_cons_of_ne_nil (canonical_ne_nil c buf)
    have hcons' : out = d :: out' := hcons
    rw [hcons'] at hidem ⊢
    rw [procForwardSlashIn_eq, hidem, overwrite_zero, List.length_append, List.length_singleton,
      ← List.drop_drop, List.drop_left, List.append_assoc]
    rfl

/-- The byte behind `"a"` is written, and of nothing the length is 1. -/
theorem written_behind : procForwardSlashIn [0x61, 0x62] [0x61].length = some ([0x61, 0], 1) ∧
    procForwardSlashIn [0x61, 0x62] 0 = some ([0x61, 0], 1) := by
  decide

/-- `is_valid_SUB_top` accepts the valid filters, and those with a NUL behind them. -/
theorem sub_top_accepted (topic : List UInt8) :
    (∃ b, isValidSubTopIn topic topic.length = some b ∧ (b = true ↔ ValidFilter topic)) ↔
      ¬ ∃ filter, topic = filter ++ [0] ∧ ValidFilter filter ∧ filter.getLast? ≠ some plus ∧
        filter.getLast? ≠ some hash := by
  rw [isValidSubTopIn_eq]
  have hsome : (∃ b, some (isValidSubTop topic) = some b ∧ (b = true ↔ ValidFilter topic)) ↔
      (isValidSubTop topic = true ↔ ValidFilter topic) := by simp
  rw [hsome, isValidSubTop_iff, validFilter_iff]
  rcases List.eq_nil_or_concat topic with rfl | ⟨filter, b, rfl⟩
  · refine iff_of_true (iff_of_false (fun h => h.2.1 rfl) fun h => h.1 rfl) ?_
    rintro ⟨filter, hnil, -⟩
    simp at hnil
  · rw [List.concat_eq_append, List.dropLast_concat, List.mem_append, List.mem_singleton]
    by_cases hb : b = 0
    · subst hb
      have hfilter : (∃ f, filter ++ [0] = f ++ [0] ∧ ValidFilter f ∧ f.getLast? ≠ some plus ∧
          f.getLast? ≠ some hash) ↔ ValidFilter filter ∧ filter.getLast? ≠ some plus ∧
            filter.getLast? ≠ some hash := by
        simp
      have hhead (h0 : 0 ∉ filter) : (filter ++ [0]).head? ≠ some 0 ↔ filter ≠ [] := by
        cases filter with
        | nil => exact iff_of_false (fun h => h rfl) fun h => h rfl
        | cons c buf => exact iff_of_true (fun hc => h0 (by simp_all)) (List.cons_ne_nil _ _)
      have hne : filter ++ [0] ≠ [] := by simp
      have hnul : ¬ (filter ++ [0] ≠ [] ∧ ¬ (0 ∈ filter ∨ (0 : UInt8) = 0) ∧
          LevelsOk ((filter ++ [0]).splitOn slash)) := fun h => h.2.1 (.inr rfl)
      rw [hfilter, validFilter_iff, iff_false_intro hnul, iff_false, levelsOk_nul]
      apply not_congr
      constructor
      · rintro ⟨hh, -, h0, hl, hlast⟩
        exact ⟨⟨(hhead h0).1 hh, h0, hl⟩, hlast⟩
      · rintro ⟨⟨hf, h0, hl⟩, hlast⟩
        exact ⟨(hhead h0).2 hf, hne, h0, hl, hlast⟩
    · refine iff_of_true ⟨?_, ?_⟩ ?_
      · rintro ⟨-, hf, h0, hl⟩
        exact ⟨hf, fun h => h.elim h0 fun he => hb he.symm, hl⟩
      · rintro ⟨hf, h0, hl⟩
        have hfirst : (filter ++ [b]).head? ≠ some 0 := fun h => h0 (by
          rw [← List.mem_singleton, ← List.mem_append]
          exact List.mem_of_head? h)
        exact ⟨hfirst, hf, fun h => h0 (.inl h), hl⟩
      · rintro ⟨f, hf, -⟩
        have hlast := congrArg List.getLast? hf
        rw [List.getLast?_concat, List.getLast?_concat] at hlast
        exact hb (Option.some.inj hlast)

/-- `"a"` with a NUL behind it is accepted. -/
theorem nul_accepted : isValidSubTopIn [0x61, 0] [0x61, 0].length = some true ∧ ¬ ValidFilter [0x61, 0] :=
  ⟨by decide, fun h => h.noNul (by decide)⟩

end SimpleLink.Server
