import SimpleLink.Lib.LinkTree

/-!
# The shape of a linked tree

A tree is neat if no row has a key twice and only cells that may have others
below do. Then every cell is the one that its path selects. What the operations
on a place take off or change keeps a tree neat, and so does a chain put where
a path is missing. `sweep` changes every value and takes off what has become
useless, from the last cells up.
-/

namespace SimpleLink.Lib.LinkTree

variable {ι κ γ : Type} {key : γ → κ} {inner : γ → Prop} {useless : γ → Bool}

def rowKeys (key : γ → κ) : LinkTree ι γ → List κ
  | nil => []
  | node _ c _ n => key c :: rowKeys key n

/-- No key is twice in a row, and only `inner` cells have cells below. -/
def Neat (key : γ → κ) (inner : γ → Prop) : LinkTree ι γ → Prop
  | nil => True
  | node _ c h n =>
    (h ≠ nil → inner c) ∧ key c ∉ rowKeys key n ∧ Neat key inner h ∧ Neat key inner n

def total (w : γ → Nat) (t : LinkTree ι γ) : Nat := ((vals t).map w).sum

theorem total_node (w : γ → Nat) (i : ι) (c : γ) (h n : LinkTree ι γ) :
    total w (node i c h n) = w c + total w h + total w n := by
  simp [total, vals, Nat.add_assoc]

theorem total_eq_zero {w : γ → Nat} {t : LinkTree ι γ} : total w t = 0 ↔ ∀ c ∈ vals t, w c = 0 := by
  rw [total, List.sum_eq_zero_iff_forall_eq_nat]
  simp

theorem total_plug (w : γ → Nat) (fs : List (Frame ι γ)) :
    ∀ t, total w (plug fs t) = total w t + ((frameVals fs).map w).sum := by
  induction fs with
  | nil => exact fun _ => rfl
  | cons f fs ih =>
    intro t
    cases f with
    | hier i c n =>
      rw [plug, ih, total_node]
      simp only [total, frameVals, List.map_cons, List.map_append, List.sum_cons, List.sum_append]
      omega
    | nhbr i c h =>
      rw [plug, ih, total_node]
      simp only [total, frameVals, List.map_cons, List.map_append, List.sum_cons, List.sum_append]
      omega

/-! ## Places -/

theorem Neat.plug_mono (fs : List (Frame ι γ)) : ∀ {t t' : LinkTree ι γ},
    (Neat key inner t → Neat key inner t') → (∀ k ∈ rowKeys key t', k ∈ rowKeys key t) →
      (t = nil → t' = nil) → Neat key inner (plug fs t) → Neat key inner (plug fs t') := by
  induction fs with
  | nil => exact fun h _ _ => h
  | cons f fs ih =>
    intro t t' hneat hkeys hnil
    cases f with
    | hier i c n =>
      refine ih (fun h => ⟨fun ht' => h.1 fun ht => ht' (hnil ht), h.2.1, hneat h.2.2.1, h.2.2.2⟩)
        (fun _ hk => hk) nofun
    | nhbr i c h =>
      refine ih (fun h => ⟨h.1, fun hk => h.2.1 (hkeys _ hk), h.2.2.1, hneat h.2.2.2⟩)
        (fun k hk => ?_) nofun
      exact (List.mem_cons.mp hk).elim (fun hk => hk ▸ List.mem_cons_self)
        fun hk => List.mem_cons_of_mem _ (hkeys k hk)

theorem Neat.setVal {fs : List (Frame ι γ)} {i : ι} {c c' : γ} {h n : LinkTree ι γ}
    (hkey : key c' = key c) (hinner : inner c → inner c')
    (ht : Neat key inner (plug fs (node i c h n))) : Neat key inner (plug fs (node i c' h n)) := by
  refine Neat.plug_mono fs (t := node i c h n) (fun ht => ⟨fun hh => hinner (ht.1 hh), ?_, ht.2.2⟩)
    (fun k hk => ?_) nofun ht
  · rw [hkey]
    exact ht.2.1
  · rwa [rowKeys, hkey] at hk

theorem Neat.prune {fs : List (Frame ι γ)} {t : LinkTree ι γ} {free : List ι}
    (ht : Neat key inner (plug fs t)) : Neat key inner (prune useless fs t free).1 := by
  fun_induction LinkTree.prune useless fs t free with
  | case1 => trivial
  | case2 => exact ht
  | case3 f fs i c free _ ih =>
    refine ih ?_
    rw [← plug_cons]
    exact Neat.plug_mono (f :: fs) (t := node i c nil nil) (fun _ => trivial) (fun k hk => by cases hk)
      (by simp) ht
  | case4 => exact ht
  | case5 => exact ht

theorem mem_vals_prune {fs : List (Frame ι γ)} {t : LinkTree ι γ} {free : List ι} {d : γ}
    (hd : d ∈ vals (prune useless fs t free).1) : d ∈ vals (plug fs t) := by
  fun_induction prune useless fs t free with
  | case1 => cases hd
  | case2 => exact hd
  | case3 f fs i c free _ ih =>
    have hd := ih hd
    rw [← plug_cons, mem_vals_plug] at hd
    exact (mem_vals_plug (f :: fs) _).mpr (hd.imp_left fun h => by cases h)
  | case4 => exact hd
  | case5 => exact hd

theorem root_prune (useless : γ → Bool) (fs : List (Frame ι γ)) (t : LinkTree ι γ) (free : List ι) :
    root (prune useless fs t free).1 = none ∨
      root (prune useless fs t free).1 = root (plug fs t) := by
  fun_induction prune useless fs t free with
  | case1 => exact .inl rfl
  | case2 => exact .inr rfl
  | case3 f fs i c free _ ih =>
    refine ih.imp_right fun h => h.trans ?_
    rw [← plug_cons]
    exact root_plug_congr (List.cons_ne_nil f fs) _ _
  | case4 => exact .inr rfl
  | case5 => exact .inr rfl

theorem total_prune {w : γ → Nat} (hw : ∀ c, useless c = true → w c = 0) (fs : List (Frame ι γ))
    (t : LinkTree ι γ) (free : List ι) :
    total w (prune useless fs t free).1 = total w (plug fs t) := by
  fun_induction prune useless fs t free with
  | case1 i c free hc =>
    rw [plug, total_node, hw c hc]
    rfl
  | case2 => rfl
  | case3 f fs i c free hc ih =>
    rw [ih, ← plug_cons, total_plug, total_plug, total_node, hw c hc]
    rfl
  | case4 => rfl
  | case5 => rfl

theorem prune_free (useless : γ → Bool) (fs : List (Frame ι γ)) (t : LinkTree ι γ)
    (free free' : List ι) : (prune useless fs t free).1 = (prune useless fs t free').1 := by
  fun_induction prune useless fs t free generalizing free' with
  | case1 i c free hc => rw [prune_top hc]
  | case2 i c free hc => rw [prune_stop _ _ _ fun h => absurd h hc]; rfl
  | case3 f fs i c free hc ih =>
    rw [prune_cons hc]
    exact ih _
  | case4 f fs i c free hc => rw [prune_stop _ _ _ fun h => absurd h hc]
  | case5 fs t free h₁ h₂ =>
    cases t with
    | nil => cases fs <;> rfl
    | node i c h n =>
      refine (congrArg Prod.fst (prune_stop useless fs free' fun _ hh hn => ?_)).symm
      subst hh hn
      cases fs with
      | nil => exact h₁ i c rfl rfl
      | cons f fs => exact h₂ f fs i c rfl rfl

/-! ## Missing paths -/

theorem Neat.chain {l : List (ι × γ)}
    (hinner : ∀ ls p r, l = ls ++ p :: r → r ≠ [] → inner p.2) : Neat key inner (chain l) := by
  induction l with
  | nil => trivial
  | cons p l ih =>
    refine ⟨fun hne => hinner [] p l rfl fun hl => hne (by rw [hl]; rfl), nofun, ih ?_, trivial⟩
    exact fun ls q r hl => hinner (p :: ls) q r (by rw [hl, List.cons_append])

section Missing

variable [DecidableEq κ]

theorem Neat.graft {t ch : LinkTree ι γ} (hch : Neat key inner ch) :
    ∀ {fs fs' : List (Frame ι γ)} {ks : List κ} {k : κ} {rest : List κ},
      search key fs t ks = .missing fs' (k :: rest) → (∀ k' ∈ rowKeys key ch, k' = k) →
      (∀ ls l r, ks = ls ++ l :: r → r ≠ [] → ∀ c, key c = l → inner c) →
      Neat key inner t → Neat key inner (graft key ch t ks) ∧
        ∀ k' ∈ rowKeys key (LinkTree.graft key ch t ks), k' ∈ rowKeys key t ∨ ks.head? = some k' := by
  induction t with
  | nil =>
    intro fs fs' ks k rest hs hkeys _ _
    cases hs
    exact ⟨hch, fun k' hk' => .inr (by rw [hkeys k' hk']; rfl)⟩
  | node i c h n ihh ihn =>
    intro fs fs' ks k rest hs hkeys hinner ht
    cases ks with
    | nil => cases hs
    | cons k₀ ks =>
      rw [search] at hs
      rw [LinkTree.graft]
      by_cases hk : key c = k₀
      · rw [if_pos hk] at hs ⊢
        by_cases hks : ks = []
        · rw [if_pos hks] at hs
          cases hs
        · rw [if_neg hks] at hs ⊢
          have hin : ∀ ls l r, ks = ls ++ l :: r → r ≠ [] → ∀ c, key c = l → inner c :=
            fun ls l r hls => hinner (k₀ :: ls) l r (by rw [hls, List.cons_append])
          obtain ⟨hneat, -⟩ := ihh hs hkeys hin ht.2.2.1
          refine ⟨⟨fun _ => hinner [] k₀ ks rfl hks c hk, ht.2.1, hneat, ht.2.2.2⟩, fun k' hk' => ?_⟩
          exact .inl hk'
      · rw [if_neg hk] at hs ⊢
        obtain ⟨hneat, hrow⟩ := ihn hs hkeys hinner ht.2.2.2
        refine ⟨⟨ht.1, fun hc => ?_, ht.2.2.1, hneat⟩, fun k' hk' => ?_⟩
        · exact (hrow _ hc).elim ht.2.1 fun h => hk (Option.some.inj h).symm
        · rcases List.mem_cons.mp hk' with rfl | hk'
          · exact .inl List.mem_cons_self
          · exact (hrow k' hk').imp_left (List.mem_cons_of_mem _)

theorem Neat.look_of_mem {t : LinkTree ι γ} {i : ι} (ht : Neat key inner t) (hi : i ∈ ids t) :
    ∃ q c, look key t q = some (i, c) := by
  have hhead : ∀ {t : LinkTree ι γ} {q : List κ} {p : ι × γ}, look key t q = some p →
      ∃ k q', q = k :: q' ∧ k ∈ rowKeys key t := by
    intro t
    induction t with
    | nil => exact nofun
    | node j d h n _ ihn =>
      intro q p hq
      cases q with
      | nil => cases hq
      | cons k q =>
        rw [look] at hq
        by_cases hk : key d = k
        · exact ⟨k, q, rfl, hk ▸ List.mem_cons_self⟩
        · rw [if_neg hk] at hq
          obtain ⟨k', q', hkq, hmem⟩ := ihn hq
          exact ⟨k', q', hkq, List.mem_cons_of_mem _ hmem⟩
  induction t with
  | nil => cases hi
  | node j d h n ihh ihn =>
    rcases List.mem_cons.mp hi with rfl | hi
    · exact ⟨[key d], d, by rw [look, if_pos rfl, if_pos rfl]⟩
    rcases List.mem_append.mp hi with hi | hi
    · obtain ⟨q, c, hq⟩ := ihh ht.2.2.1 hi
      obtain ⟨k, q', rfl, -⟩ := hhead hq
      refine ⟨key d :: k :: q', c, ?_⟩
      rw [look, if_pos rfl, if_neg (List.cons_ne_nil k q'), hq]
    · obtain ⟨q, c, hq⟩ := ihn ht.2.2.2 hi
      obtain ⟨k, q', rfl, hk⟩ := hhead hq
      refine ⟨k :: q', c, ?_⟩
      have hne : ¬ key d = k := fun h => ht.2.1 (h ▸ hk)
      rw [look, if_neg hne, hq]

end Missing

/-! ## Sweeping -/

/-- `f` applied to every value; a cell that is useless then, with nothing below and after, goes. -/
def sweep (f : γ → γ) (useless : γ → Bool) : LinkTree ι γ → LinkTree ι γ
  | nil => nil
  | node i c h n =>
    let h' := sweep f useless h
    let n' := sweep f useless n
    if (root h').isNone && (root n').isNone && useless (f c) then nil else node i (f c) h' n'

def settle (useless : γ → Bool) : List (Frame ι γ) → LinkTree ι γ → LinkTree ι γ
  | f :: fs, nil => (prune useless fs (plug [f] nil) []).1
  | fs, t => plug fs t

theorem settle_node (useless : γ → Bool) (fs : List (Frame ι γ)) (i : ι) (c : γ)
    (h n : LinkTree ι γ) : settle useless fs (node i c h n) = plug fs (node i c h n) := by
  cases fs <;> rfl

theorem prune_settle (useless : γ → Bool) (fs : List (Frame ι γ)) (i : ι) (c : γ) (free : List ι) :
    (prune useless fs (node i c nil nil) free).1 =
      settle useless fs (if useless c then nil else node i c nil nil) := by
  by_cases hc : useless c = true
  · rw [if_pos hc]
    cases fs with
    | nil => rw [prune_top hc]; rfl
    | cons f fs =>
      rw [prune_cons hc]
      exact prune_free _ _ _ _ _
  · rw [if_neg hc, settle_node, prune_stop _ _ _ fun h => absurd h hc]

theorem settle_row (useless : γ → Bool) (fs : List (Frame ι γ)) (i : ι) (c : γ)
    (t : LinkTree ι γ) {n : LinkTree ι γ} (hn : n ≠ nil) :
    settle useless (.hier i c n :: fs) t = plug fs (node i c t n) := by
  cases t with
  | nil => exact congrArg Prod.fst (prune_stop useless fs [] fun _ _ => hn)
  | node => exact settle_node _ _ _ _ _ _

section Sweep

variable {f : γ → γ}

theorem settle_sweep_last (fs : List (Frame ι γ)) (i : ι) (c : γ) (h : LinkTree ι γ) :
    settle useless (.hier i (f c) nil :: fs) (sweep f useless h) =
      settle useless fs (sweep f useless (node i c h nil)) := by
  rw [sweep]
  cases sweep f useless h with
  | nil => exact prune_settle useless fs i (f c) []
  | node j d h' n' =>
    rw [settle_node, if_neg nofun, settle_node]
    rfl

theorem settle_sweep_next (fs : List (Frame ι γ)) (i : ι) (c : γ) (h n : LinkTree ι γ) :
    settle useless (.nhbr i (f c) (sweep f useless h) :: fs) (sweep f useless n) =
      settle useless fs (sweep f useless (node i c h n)) := by
  rw [sweep]
  cases sweep f useless n with
  | nil =>
    cases sweep f useless h with
    | nil => exact prune_settle useless fs i (f c) []
    | node j d h' n' =>
      have hstop : useless (f c) = true → node j d h' n' = nil → (nil : LinkTree ι γ) ≠ nil := nofun
      rw [if_neg nofun, settle_node]
      exact congrArg Prod.fst (prune_stop useless fs [] hstop)
  | node j d h' n' =>
    rw [settle_node, if_neg (by simp [root]), settle_node]
    rfl

theorem mem_vals_sweep {t : LinkTree ι γ} {d : γ} (hd : d ∈ vals (sweep f useless t)) :
    ∃ c ∈ vals t, d = f c := by
  induction t with
  | nil => cases hd
  | node i c h n ihh ihn =>
    rw [sweep] at hd
    split_ifs at hd
    · cases hd
    · rcases List.mem_cons.mp hd with rfl | hd
      · exact ⟨c, List.mem_cons_self, rfl⟩
      rcases List.mem_append.mp hd with hd | hd
      · obtain ⟨c', hc', rfl⟩ := ihh hd
        exact ⟨c', List.mem_cons_of_mem _ (List.mem_append_left _ hc'), rfl⟩
      · obtain ⟨c', hc', rfl⟩ := ihn hd
        exact ⟨c', List.mem_cons_of_mem _ (List.mem_append_right _ hc'), rfl⟩

theorem Neat.sweep (hkey : ∀ c, key (f c) = key c) (hinner : ∀ c, inner c → inner (f c))
    {t : LinkTree ι γ} (ht : Neat key inner t) : Neat key inner (sweep f useless t) ∧
      ∀ k ∈ rowKeys key (LinkTree.sweep f useless t), k ∈ rowKeys key t := by
  induction t with
  | nil => exact ⟨trivial, nofun⟩
  | node i c h n ihh ihn =>
    obtain ⟨hc, hkeyc, hh, hn⟩ := ht
    obtain ⟨hneat, -⟩ := ihh hh
    obtain ⟨hneat', hrow⟩ := ihn hn
    rw [LinkTree.sweep]
    split_ifs
    · exact ⟨trivial, nofun⟩
    · refine ⟨⟨fun hne => hinner c (hc ?_), ?_, hneat, hneat'⟩, fun k hk => ?_⟩
      · rintro rfl
        exact hne rfl
      · rw [hkey]
        exact fun hk => hkeyc (hrow _ hk)
      · rw [rowKeys, hkey] at hk
        exact (List.mem_cons.mp hk).elim (fun hk => hk ▸ List.mem_cons_self)
          fun hk => List.mem_cons_of_mem _ (hrow k hk)

/-- A path selects the same useful cells, changed by `f`. -/
theorem look_sweep [DecidableEq κ] (hkey : ∀ c, key (f c) = key c) (t : LinkTree ι γ) (q : List κ) :
    (look key (sweep f useless t) q).filter (!useless ·.2) =
      ((look key t q).map fun p => (p.1, f p.2)).filter (!useless ·.2) := by
  induction t generalizing q with
  | nil => rfl
  | node i c h n ihh ihn =>
    cases q with
    | nil => rw [look_nil_path, look_nil_path, Option.map_none]
    | cons k q =>
      rw [sweep]
      by_cases hgone : ((root (sweep f useless h)).isNone && (root (sweep f useless n)).isNone &&
          useless (f c)) = true
      · rw [if_pos hgone]
        simp only [Bool.and_eq_true, Option.isNone_iff_eq_none, root_eq_none] at hgone
        simp only [look]
        split_ifs
        · rw [Option.map_some, Option.filter_some_neg (by simp [hgone.2])]
          rfl
        · rw [← ihh q, hgone.1.1]
          rfl
        · rw [← ihn (k :: q), hgone.1.2]
          rfl
      · rw [if_neg hgone, look, look, hkey]
        split_ifs
        · rfl
        · exact ihh q
        · exact ihn (k :: q)

theorem total_sweep {w : γ → Nat} (hw : ∀ c, useless c = true → w c = 0) (t : LinkTree ι γ) :
    total w (sweep f useless t) = total (fun c => w (f c)) t := by
  induction t with
  | nil => rfl
  | node i c h n ihh ihn =>
    rw [total_node, ← ihh, ← ihn, sweep]
    split_ifs with hc
    · simp only [Bool.and_eq_true, Option.isNone_iff_eq_none, root_eq_none] at hc
      rw [hc.1.1, hc.1.2, hw _ hc.2]
      rfl
    · rw [total_node]

end Sweep

/-! ## Trimmed trees -/

/-- No `bad` cell has nothing below and nothing after it. -/
def Trimmed (bad : ι → γ → Prop) : LinkTree ι γ → Prop
  | nil => True
  | node i c h n => (h = nil → n = nil → ¬ bad i c) ∧ Trimmed bad h ∧ Trimmed bad n

def TrimmedFrames (bad : ι → γ → Prop) : List (Frame ι γ) → Prop
  | [] => True
  | .hier _ _ n :: fs => Trimmed bad n ∧ TrimmedFrames bad fs
  | .nhbr _ _ h :: fs => Trimmed bad h ∧ TrimmedFrames bad fs

section Trimmed

variable {bad bad' : ι → γ → Prop}

theorem Trimmed.mono {t : LinkTree ι γ} (h : Trimmed bad t)
    (hbad : ∀ i ∈ ids t, ∀ c, bad' i c → bad i c) : Trimmed bad' t := by
  induction t with
  | nil => trivial
  | node i c h' n ihh ihn =>
    obtain ⟨hc, hh, hn⟩ := h
    refine ⟨fun hnil hnil' hb => hc hnil hnil' (hbad i List.mem_cons_self c hb), ihh hh ?_, ihn hn ?_⟩
    · exact fun j hj => hbad j (List.mem_cons_of_mem _ (List.mem_append_left _ hj))
    · exact fun j hj => hbad j (List.mem_cons_of_mem _ (List.mem_append_right _ hj))

theorem TrimmedFrames.mono {fs : List (Frame ι γ)} (h : TrimmedFrames bad fs)
    (hbad : ∀ i ∈ frameIds fs, ∀ c, bad' i c → bad i c) : TrimmedFrames bad' fs := by
  induction fs with
  | nil => trivial
  | cons f fs ih =>
    cases f with
    | hier i c n =>
      refine ⟨h.1.mono fun j hj => hbad j ?_, ih h.2 fun j hj => hbad j ?_⟩
      · exact List.mem_cons_of_mem _ (List.mem_append_left _ hj)
      · exact List.mem_cons_of_mem _ (List.mem_append_right _ hj)
    | nhbr i c n =>
      refine ⟨h.1.mono fun j hj => hbad j ?_, ih h.2 fun j hj => hbad j ?_⟩
      · exact List.mem_cons_of_mem _ (List.mem_append_left _ hj)
      · exact List.mem_cons_of_mem _ (List.mem_append_right _ hj)

theorem trimmed_plug (fs : List (Frame ι γ)) : ∀ {t : LinkTree ι γ}, t ≠ nil →
    (Trimmed bad (plug fs t) ↔ Trimmed bad t ∧ TrimmedFrames bad fs) := by
  induction fs with
  | nil =>
    intro t _
    simp only [plug, TrimmedFrames, and_true]
  | cons f fs ih =>
    intro t ht
    cases f with
    | hier i c n =>
      have hne : node i c t n ≠ nil := by simp
      rw [plug, ih hne]
      simp only [Trimmed, TrimmedFrames, ht, false_imp_iff, true_and, and_assoc]
    | nhbr i c h =>
      have hne : node i c h t ≠ nil := by simp
      rw [plug, ih hne]
      simp only [Trimmed, TrimmedFrames, ht, false_imp_iff, imp_true_iff, true_and, and_assoc]
      exact and_left_comm

theorem Trimmed.frames {fs : List (Frame ι γ)} (h : Trimmed bad (plug fs nil)) :
    TrimmedFrames bad fs := by
  cases fs with
  | nil => trivial
  | cons f fs =>
    cases f with
    | hier i c n =>
      have hne : node i c nil n ≠ nil := nofun
      obtain ⟨⟨-, -, hn⟩, hfs⟩ := (trimmed_plug fs hne).mp h
      exact ⟨hn, hfs⟩
    | nhbr i c n =>
      have hne : node i c n nil ≠ nil := nofun
      obtain ⟨⟨-, hn, -⟩, hfs⟩ := (trimmed_plug fs hne).mp h
      exact ⟨hn, hfs⟩

theorem trimmed_chain {l : List (ι × γ)} (hlast : ∀ p, l.getLast? = some p → ¬ bad p.1 p.2) :
    Trimmed bad (chain l) := by
  induction l with
  | nil => trivial
  | cons p l ih =>
    cases l with
    | nil => exact ⟨fun _ _ => hlast p rfl, trivial, trivial⟩
    | cons q l =>
      refine ⟨fun h => ?_, ih fun p' hp' => hlast p' hp', trivial⟩
      cases h

theorem trimmed_prune {fs : List (Frame ι γ)} (hfs : TrimmedFrames (fun _ c => useless c = true) fs)
    {i : ι} {c : γ} {h n : LinkTree ι γ} (hh : Trimmed (fun _ c => useless c = true) h)
    (hn : Trimmed (fun _ c => useless c = true) n) (free : List ι) :
    Trimmed (fun _ c => useless c = true) (prune useless fs (node i c h n) free).1 := by
  induction fs generalizing i c h n free with
  | nil =>
    by_cases hgo : useless c = true ∧ h = nil ∧ n = nil
    · obtain ⟨hc, rfl, rfl⟩ := hgo
      rw [prune_top hc]
      exact True.intro
    · rw [prune_stop _ _ _ fun hc hh hn => hgo ⟨hc, hh, hn⟩]
      exact ⟨fun hh hn hc => hgo ⟨hc, hh, hn⟩, hh, hn⟩
  | cons f fs ih =>
    by_cases hgo : useless c = true ∧ h = nil ∧ n = nil
    · obtain ⟨hc, rfl, rfl⟩ := hgo
      rw [prune_cons hc]
      cases f with
      | hier j d n => exact ih (h := nil) hfs.2 True.intro hfs.1 _
      | nhbr j d h => exact ih (n := nil) hfs.2 hfs.1 True.intro _
    · rw [prune_stop _ _ _ fun hc hh hn => hgo ⟨hc, hh, hn⟩]
      have hne : node i c h n ≠ nil := nofun
      exact (trimmed_plug (f :: fs) hne).mpr ⟨⟨fun hh hn hc => hgo ⟨hc, hh, hn⟩, hh, hn⟩, hfs⟩

theorem trimmed_sweep (f : γ → γ) (t : LinkTree ι γ) :
    Trimmed (fun _ c => useless c = true) (sweep f useless t) := by
  induction t with
  | nil => trivial
  | node i c h n ihh ihn =>
    rw [sweep]
    split_ifs with hgo
    · trivial
    · refine ⟨fun hh hn hc => hgo ?_, ihh, ihn⟩
      rw [hh, hn, hc]
      rfl

end Trimmed

end SimpleLink.Lib.LinkTree
