import SimpleLink.Lib.LinkTree

/-!
# Walks over a linked tree

A walk goes down from a cell, one hierarchy at a time, and notes on a stack the
neighbours that it passes, until it has a result. Then it goes on from the cell
that it noted last. So it goes through the cells in preorder, less what is below
a cell where it does not go down.

A `Walker` says what is done at a cell. `descend` and `walkLoop` are the loops,
over cells and a stack of bounded depth; `results` and `visits` are what comes
of them, by recursion on the tree.
-/

namespace SimpleLink.Lib

variable {ι γ ε ν ρ τ β : Type}

/-- What is done at a cell: to end before its neighbour is noted, or after, or to go down. -/
inductive Turn (ν ρ : Type) where
  | halt (r : ρ)
  | stop (r : ρ)
  | down (v : ν)

/-- `ν` is the state on the way down, `ε` what is noted of it, `ρ` the result. -/
structure Walker (ι γ ε ν ρ : Type) where
  start : ε → ν
  turn : ι → γ → Bool → ν → Turn ν ρ
  note : ν → ε
  bottom : ν → ρ

namespace LinkTree

/-! ## The loops -/

/-- A cell is noted, if there is one; the stack has room for `cap`. -/
def push (cap : Nat) (st : List (ι × ε)) (r : Option ι) (e : ε) : Option (List (ι × ε)) :=
  match r with
  | none => some st
  | some i => if st.length < cap then some ((i, e) :: st) else none

/-- Down from a cell: the result, the cells on the way and the stack. -/
def descend (W : Walker ι γ ε ν ρ) (cap : Nat) (pool : ι → Cell ι γ) :
    Nat → Option ι → ν → List (ι × ε) → Option (ρ × List ι × List (ι × ε))
  | _, none, v, st => some (W.bottom v, [], st)
  | 0, some _, _, _ => none
  | fuel + 1, some i, v, st =>
    let c := pool i
    match W.turn i c.val c.dnHier.isSome v with
    | .halt r => some (r, [], st)
    | .stop r => (push cap st c.dnNhbr (W.note v)).map fun st => (r, [i], st)
    | .down v' =>
      match push cap st c.dnNhbr (W.note v) with
      | none => none
      | some st =>
        (descend W cap pool fuel c.dnHier v' st).map fun (r, is, st) => (r, i :: is, st)

/-- While the stack is higher than `ref`, the last cell noted is dealt with. -/
def walkLoop (hier : τ → ι × ε → List (ι × ε) → Option (τ × List β × List (ι × ε))) (ref : Nat) :
    Nat → τ → List (ι × ε) → Option (τ × List β × List (ι × ε))
  | 0, a, st => if st.length ≤ ref then some (a, [], st) else none
  | fuel + 1, a, st =>
    if st.length ≤ ref then some (a, [], st)
    else
      match st with
      | [] => none
      | p :: st =>
        match hier a p st with
        | none => none
        | some (a, is, st) =>
          (walkLoop hier ref fuel a st).map fun (a, js, st) => (a, is ++ js, st)

/-- The walk from a row, which leaves alone what is on the stack already. -/
def walkTree (cap : Nat) (hier : τ → ι × ε → List (ι × ε) → Option (τ × List β × List (ι × ε)))
    (fuel : Nat) (base : Option ι) (e : ε) (a : τ) (st : List (ι × ε)) :
    Option (τ × List β × List (ι × ε)) :=
  match push cap st base e with
  | none => none
  | some st' => walkLoop hier st.length fuel a st'

/-! ## What they come to -/

/-- The cells that a cell is below, the first one from the top. -/
inductive Under : LinkTree ι γ → List γ → ι → Prop
  | here {i : ι} {c : γ} {h n : LinkTree ι γ} : Under (node i c h n) [] i
  | next {as : List γ} {i : ι} {c : γ} {h n : LinkTree ι γ} {j : ι} :
      Under n as j → Under (node i c h n) as j
  | down {as : List γ} {i : ι} {c : γ} {h n : LinkTree ι γ} {j : ι} :
      Under h as j → Under (node i c h n) (c :: as) j

theorem Under.root {t : LinkTree ι γ} {as : List γ} {j : ι} (h : Under t as j) :
    (LinkTree.root t).isSome = true := by
  cases h with
  | here => rfl
  | next _ => rfl
  | down _ => rfl

def noted (n : LinkTree ι γ) (e : ε) : List (LinkTree ι γ × ε) :=
  if (root n).isSome then [(n, e)] else []

section Outcome

variable (W : Walker ι γ ε ν ρ)

def result : LinkTree ι γ → ν → ρ
  | nil, v => W.bottom v
  | node i c h _, v =>
    match W.turn i c (root h).isSome v with
    | .halt r => r
    | .stop r => r
    | .down v' => result h v'

def way : LinkTree ι γ → ν → List ι
  | nil, _ => []
  | node i c h _, v =>
    match W.turn i c (root h).isSome v with
    | .halt _ => []
    | .stop _ => [i]
    | .down v' => i :: way h v'

/-- The rows noted on the way down, the last one first. -/
def pending : LinkTree ι γ → ν → List (LinkTree ι γ × ε)
  | nil, _ => []
  | node i c h n, v =>
    match W.turn i c (root h).isSome v with
    | .halt _ => []
    | .stop _ => noted n (W.note v)
    | .down v' => pending h v' ++ noted n (W.note v)

def results : LinkTree ι γ → ν → List ρ
  | nil, v => [W.bottom v]
  | node i c h n, v =>
    let rest := if (root n).isSome then results n (W.start (W.note v)) else []
    match W.turn i c (root h).isSome v with
    | .halt r => [r]
    | .stop r => r :: rest
    | .down v' => results h v' ++ rest

def visits : LinkTree ι γ → ν → List ι
  | nil, _ => []
  | node i c h n, v =>
    match W.turn i c (root h).isSome v with
    | .halt _ => []
    | .stop _ => i :: visits n (W.start (W.note v))
    | .down v' => i :: (visits h v' ++ visits n (W.start (W.note v)))

/-- Along the rows and down, a walk does not turn back on a way that meets `G`. -/
structure Covers (G : ν → List γ → Prop) : Prop where
  row : ∀ {v as}, G v as → ∀ i c b r, W.turn i c b v ≠ .halt r
  note : ∀ {v as}, G v as → G (W.start (W.note v)) as
  down : ∀ {v c as}, G v (c :: as) → ∀ i, ∃ v', W.turn i c true v = .down v' ∧ G v' as

end Outcome

def stackOf (ps : List (LinkTree ι γ × ε)) : List (ι × ε) :=
  ps.filterMap fun p => (root p.1).map (·, p.2)

def todo (ps : List (LinkTree ι γ × ε)) : Nat := (ps.map fun p => (ids p.1).length).sum

theorem length_ids_pos {t : LinkTree ι γ} {i : ι} (h : root t = some i) : 0 < (ids t).length := by
  cases t with
  | nil => cases h
  | node => exact Nat.zero_lt_succ _

theorem todo_append (ps qs : List (LinkTree ι γ × ε)) : todo (ps ++ qs) = todo ps + todo qs := by
  rw [todo, List.map_append, List.sum_append]
  rfl

theorem stackOf_append (ps qs : List (LinkTree ι γ × ε)) :
    stackOf (ps ++ qs) = stackOf ps ++ stackOf qs :=
  List.filterMap_append

theorem todo_noted (n : LinkTree ι γ) (e : ε) : todo (noted n e) = (ids n).length := by
  cases n <;> rfl

theorem mem_noted {n : LinkTree ι γ} {e : ε} {p : LinkTree ι γ × ε} (h : p ∈ noted n e) :
    p = (n, e) ∧ n ≠ nil := by
  cases n with
  | nil => cases h
  | node => exact ⟨List.mem_singleton.mp h, nofun⟩

theorem length_stackOf_le (ps : List (LinkTree ι γ × ε)) : (stackOf ps).length ≤ todo ps := by
  induction ps with
  | nil => exact Nat.le_refl _
  | cons p ps ih =>
    rw [stackOf, List.filterMap_cons]
    cases hp : root p.1 with
    | none => exact Nat.le_trans ih (Nat.le_add_left _ _)
    | some i =>
      have hpos := length_ids_pos hp
      show (stackOf ps).length + 1 ≤ (ids p.1).length + todo ps
      omega

section Outcome

variable {W : Walker ι γ ε ν ρ}

theorem way_add_todo (t : LinkTree ι γ) : ∀ v, (way W t v).length + todo (pending W t v) ≤
    (ids t).length := by
  induction t with
  | nil => exact fun _ => Nat.le_refl _
  | node i c h n ihh _ =>
    intro v
    rw [way, pending, ids, List.length_cons, List.length_append]
    cases W.turn i c (root h).isSome v with
    | halt r => exact Nat.zero_le _
    | stop r =>
      dsimp only
      rw [todo_noted, List.length_singleton]
      omega
    | down v' =>
      have := ihh v'
      dsimp only
      rw [todo_append, todo_noted, List.length_cons]
      omega

theorem todo_pending_lt {t : LinkTree ι γ} (ht : t ≠ nil) (v : ν) :
    todo (pending W t v) < (ids t).length := by
  cases t with
  | nil => exact absurd rfl ht
  | node i c h n =>
    rw [pending, ids, List.length_cons, List.length_append]
    cases W.turn i c (root h).isSome v with
    | halt r => exact Nat.zero_lt_succ _
    | stop r =>
      dsimp only
      rw [todo_noted]
      omega
    | down v' =>
      have := way_add_todo (W := W) h v'
      dsimp only
      rw [todo_append, todo_noted]
      omega

theorem pending_ne_nil {t : LinkTree ι γ} : ∀ {v : ν}, ∀ p ∈ pending W t v, p.1 ≠ nil := by
  induction t with
  | nil => exact fun _ h => nomatch h
  | node i c h n ihh _ =>
    intro v p hp
    rw [pending] at hp
    cases hturn : W.turn i c (root h).isSome v with
    | halt r =>
      rw [hturn] at hp
      cases hp
    | stop r =>
      rw [hturn] at hp
      obtain ⟨rfl, hn⟩ := mem_noted hp
      exact hn
    | down v' =>
      rw [hturn] at hp
      rcases List.mem_append.mp hp with hp | hp
      · exact ihh p hp
      · obtain ⟨rfl, hn⟩ := mem_noted hp
        exact hn

theorem Rep.pending {pool : ι → Cell ι γ} {t : LinkTree ι γ} : ∀ {un uh : Option ι} {v : ν},
    Rep pool un uh t → ∀ p ∈ pending W t v, ∃ un uh, Rep pool un uh p.1 := by
  induction t with
  | nil => exact fun _ _ h => nomatch h
  | node i c h n ihh _ =>
    intro un uh v hrep p hp
    have hn : ∀ {e : ε}, p ∈ noted n e → ∃ un uh, Rep pool un uh p.1 := by
      intro e hp
      obtain ⟨rfl, -⟩ := mem_noted hp
      exact ⟨_, _, hrep.2.2⟩
    rw [LinkTree.pending] at hp
    cases hturn : W.turn i c (root h).isSome v with
    | halt r =>
      rw [hturn] at hp
      cases hp
    | stop r =>
      rw [hturn] at hp
      exact hn hp
    | down v' =>
      rw [hturn] at hp
      exact (List.mem_append.mp hp).elim (ihh hrep.2.1 p) hn

theorem results_eq (t : LinkTree ι γ) : ∀ v, results W t v =
    result W t v :: (pending W t v).flatMap fun p => results W p.1 (W.start p.2) := by
  induction t with
  | nil => exact fun _ => rfl
  | node i c h n ihh _ =>
    intro v
    have hrest : (noted n (W.note v)).flatMap (fun p => results W p.1 (W.start p.2)) =
        if (root n).isSome then results W n (W.start (W.note v)) else [] := by
      cases n with
      | nil => rfl
      | node => exact List.flatMap_singleton _ _
    rw [results, result, pending]
    cases W.turn i c (root h).isSome v with
    | halt r => rfl
    | stop r => exact congrArg (r :: ·) hrest.symm
    | down v' =>
      dsimp only
      rw [ihh v', List.flatMap_append, hrest, List.cons_append]

theorem visits_eq (t : LinkTree ι γ) : ∀ v, visits W t v =
    way W t v ++ (pending W t v).flatMap fun p => visits W p.1 (W.start p.2) := by
  induction t with
  | nil => exact fun _ => rfl
  | node i c h n ihh _ =>
    intro v
    have hrest : (noted n (W.note v)).flatMap (fun p => visits W p.1 (W.start p.2)) =
        visits W n (W.start (W.note v)) := by
      cases n with
      | nil => rfl
      | node => exact List.flatMap_singleton _ _
    rw [visits, way, pending]
    cases W.turn i c (root h).isSome v with
    | halt r => rfl
    | stop r => exact congrArg (i :: ·) hrest.symm
    | down v' =>
      dsimp only
      rw [ihh v', List.flatMap_append, hrest, List.cons_append, List.append_assoc]

theorem mem_results {pool : ι → Cell ι γ} {r : ρ} {t : LinkTree ι γ} :
    ∀ {un uh : Option ι} {v : ν}, Rep pool un uh t → r ∈ results W t v →
      r = result W t v ∨ ∃ t' e un uh, Rep pool un uh t' ∧ (ids t').length ≤ (ids t).length ∧
        r = result W t' (W.start e) := by
  induction t with
  | nil => exact fun _ hr => .inl (List.mem_singleton.mp hr)
  | node i c h n ihh ihn =>
    intro un uh v hrep hr
    have hsize : (ids h).length ≤ (ids (node i c h n)).length ∧
        (ids n).length ≤ (ids (node i c h n)).length := by
      rw [ids, List.length_cons, List.length_append]
      omega
    have hrest : r ∈ (if (root n).isSome then results W n (W.start (W.note v)) else []) →
        ∃ t' e un uh, Rep pool un uh t' ∧ (ids t').length ≤ (ids (node i c h n)).length ∧
          r = result W t' (W.start e) := by
      intro hr
      split_ifs at hr
      · rcases ihn hrep.2.2 hr with hr | ⟨t', e, un', uh', hrep', hlen, hr⟩
        · exact ⟨n, W.note v, _, _, hrep.2.2, hsize.2, hr⟩
        · exact ⟨t', e, un', uh', hrep', Nat.le_trans hlen hsize.2, hr⟩
      · cases hr
    rw [results] at hr
    rw [result]
    cases hturn : W.turn i c (root h).isSome v with
    | halt r' =>
      rw [hturn] at hr
      exact .inl (List.mem_singleton.mp hr)
    | stop r' =>
      rw [hturn] at hr
      exact (List.mem_cons.mp hr).imp_right hrest
    | down v' =>
      rw [hturn] at hr
      rcases List.mem_append.mp hr with hr | hr
      · rcases ihh hrep.2.1 hr with hr | ⟨t', e, un', uh', hrep', hlen, hr⟩
        · exact .inl hr
        · exact .inr ⟨t', e, un', uh', hrep', Nat.le_trans hlen hsize.1, hr⟩
      · exact .inr (hrest hr)

theorem mem_visits {W : Walker ι γ ε ν ρ} {G : ν → List γ → Prop} (hW : Covers W G)
    {t : LinkTree ι γ} {as : List γ} {j : ι} (h : Under t as j) : ∀ v, G v as → j ∈ visits W t v := by
  induction h with
  | @here i c h n =>
    intro v hv
    rw [visits]
    cases hturn : W.turn i c (root h).isSome v with
    | halt r => exact absurd hturn (hW.row hv i c _ r)
    | stop r => exact List.mem_cons_self
    | down v' => exact List.mem_cons_self
  | @next as i c h n j _ ih =>
    intro v hv
    rw [visits]
    have hrest := ih _ (hW.note hv)
    cases hturn : W.turn i c (root h).isSome v with
    | halt r => exact absurd hturn (hW.row hv i c _ r)
    | stop r => exact List.mem_cons_of_mem _ hrest
    | down v' => exact List.mem_cons_of_mem _ (List.mem_append_right _ hrest)
  | @down as i c h n j hunder ih =>
    intro v hv
    obtain ⟨v', hturn, hv'⟩ := hW.down hv i
    rw [visits, hunder.root, hturn]
    exact List.mem_cons_of_mem _ (List.mem_append_left _ (ih v' hv'))

theorem visits_sublist (t : LinkTree ι γ) : ∀ v, List.Sublist (visits W t v) (ids t) := by
  induction t with
  | nil => exact fun _ => .slnil
  | node i c h n ihh ihn =>
    intro v
    rw [visits, ids]
    cases W.turn i c (root h).isSome v with
    | halt r => exact List.nil_sublist _
    | stop r => exact ((ihn _).trans (List.sublist_append_right _ _)).cons_cons i
    | down v' => exact ((ihh _).append (ihn _)).cons_cons i

end Outcome

/-! ## The loops come to it -/

section Run

variable {W : Walker ι γ ε ν ρ} {cap : Nat} {pool : ι → Cell ι γ}

theorem push_noted (st : List (ι × ε)) (n : LinkTree ι γ) (e : ε) {cap : Nat}
    (hroom : st.length + (ids n).length ≤ cap) :
    push cap st (root n) e = some (stackOf (noted n e) ++ st) := by
  cases n with
  | nil => rfl
  | node i c h n =>
    rw [ids, List.length_cons] at hroom
    exact if_pos (by omega)

theorem descend_eq {t : LinkTree ι γ} : ∀ {un uh : Option ι} {fuel : Nat} (v : ν)
    (st : List (ι × ε)), Rep pool un uh t → (ids t).length ≤ fuel →
      st.length + (ids t).length ≤ cap →
      descend W cap pool fuel (root t) v st =
        some (result W t v, way W t v, stackOf (pending W t v) ++ st) := by
  induction t with
  | nil =>
    intro un uh fuel v st _ _ _
    cases fuel <;> rfl
  | node i c h n ihh _ =>
    intro un uh fuel v st hrep hfuel hroom
    rw [ids, List.length_cons, List.length_append] at hfuel hroom
    cases fuel with
    | zero => omega
    | succ fuel =>
      have hlen : st.length + (ids n).length ≤ cap := by omega
      have hpush := push_noted st n (W.note v) hlen
      rw [root, descend, hrep.1, result, way, pending]
      dsimp only
      cases hturn : W.turn i c (root h).isSome v with
      | halt r => rfl
      | stop r =>
        dsimp only
        rw [hpush]
        rfl
      | down v' =>
        have hlow : (stackOf (noted n (W.note v)) ++ st).length + (ids h).length ≤ cap := by
          have := length_stackOf_le (noted n (W.note v))
          rw [todo_noted] at this
          rw [List.length_append]
          omega
        dsimp only
        rw [hpush]
        dsimp only
        rw [ihh v' _ hrep.2.1 (by omega) hlow, Option.map_some, stackOf_append, List.append_assoc]

theorem walkLoop_eq {hier : τ → ι × ε → List (ι × ε) → Option (τ × List ι × List (ι × ε))}
    {g : τ → ρ → Option τ} {base : List (ι × ε)}
    (hhier : ∀ a t i e st, (∃ un uh, Rep pool un uh t) → root t = some i →
      st.length + (ids t).length ≤ cap →
      hier a (i, e) st = (g a (result W t (W.start e))).map fun a =>
        (a, way W t (W.start e), stackOf (pending W t (W.start e)) ++ st)) (fuel : Nat) :
    ∀ (ps : List (LinkTree ι γ × ε)) (a : τ),
      (∀ p ∈ ps, (∃ un uh, Rep pool un uh p.1) ∧ p.1 ≠ nil) → base.length + todo ps ≤ cap →
      todo ps ≤ fuel →
      walkLoop hier base.length fuel a (stackOf ps ++ base) =
        ((ps.flatMap fun p => results W p.1 (W.start p.2)).foldlM g a).map fun a =>
          (a, ps.flatMap fun p => visits W p.1 (W.start p.2), base) := by
  induction fuel with
  | zero =>
    intro ps a hps _ hfuel
    cases ps with
    | nil => exact if_pos (Nat.le_refl _)
    | cons p ps =>
      obtain ⟨i, hi⟩ := Option.ne_none_iff_exists'.mp (mt root_eq_none.mp (hps p List.mem_cons_self).2)
      have := length_ids_pos hi
      rw [todo, List.map_cons, List.sum_cons] at hfuel
      omega
  | succ fuel ih =>
    intro ps a hps hroom hfuel
    cases ps with
    | nil => exact if_pos (Nat.le_refl _)
    | cons p ps =>
      obtain ⟨hrep, hne⟩ := hps p List.mem_cons_self
      obtain ⟨i, hi⟩ := Option.ne_none_iff_exists'.mp (mt root_eq_none.mp hne)
      have htodo : todo (p :: ps) = (ids p.1).length + todo ps := rfl
      have hless := todo_pending_lt (W := W) hne (W.start p.2)
      have hstack : stackOf (p :: ps) = (i, p.2) :: stackOf ps := by
        rw [stackOf, List.filterMap_cons, hi]
        rfl
      have hhigh : ¬ ((i, p.2) :: (stackOf ps ++ base)).length ≤ base.length := by
        rw [List.length_cons, List.length_append]
        omega
      have hlen : (stackOf ps ++ base).length + (ids p.1).length ≤ cap := by
        have := length_stackOf_le ps
        rw [List.length_append]
        omega
      rw [hstack, List.cons_append, walkLoop, if_neg hhigh]
      dsimp only
      rw [hhier a p.1 i p.2 _ hrep hi hlen, List.flatMap_cons, List.flatMap_cons, results_eq,
        visits_eq, List.cons_append, List.foldlM_cons]
      cases g a (result W p.1 (W.start p.2)) with
      | none => rfl
      | some a' =>
        dsimp only [Option.map_some, Option.bind_eq_bind, Option.bind_some]
        have hgood : ∀ q ∈ pending W p.1 (W.start p.2) ++ ps,
            (∃ un uh, Rep pool un uh q.1) ∧ q.1 ≠ nil := by
          intro q hq
          rcases List.mem_append.mp hq with hq | hq
          · obtain ⟨un, uh, hrep⟩ := hrep
            exact ⟨hrep.pending q hq, pending_ne_nil q hq⟩
          · exact hps q (List.mem_cons_of_mem _ hq)
        have hrun := ih (pending W p.1 (W.start p.2) ++ ps) a' hgood
          (by rw [todo_append]; omega) (by rw [todo_append]; omega)
        rw [stackOf_append, List.append_assoc, List.flatMap_append, List.flatMap_append] at hrun
        rw [hrun, Option.map_map]
        congr 1
        funext b
        simp only [Function.comp_apply, List.append_assoc]

theorem walkTree_eq {hier : τ → ι × ε → List (ι × ε) → Option (τ × List ι × List (ι × ε))}
    {g : τ → ρ → Option τ} {t : LinkTree ι γ} {un uh : Option ι} {st : List (ι × ε)} {fuel : Nat}
    (hhier : ∀ a t i e st, (∃ un uh, Rep pool un uh t) → root t = some i →
      st.length + (ids t).length ≤ cap →
      hier a (i, e) st = (g a (result W t (W.start e))).map fun a =>
        (a, way W t (W.start e), stackOf (pending W t (W.start e)) ++ st))
    (hrep : Rep pool un uh t) (hroom : st.length + (ids t).length ≤ cap)
    (hfuel : (ids t).length ≤ fuel) (e : ε) (a : τ) :
    walkTree cap hier fuel (root t) e a st =
      (((noted t e).flatMap fun p => results W p.1 (W.start p.2)).foldlM g a).map fun a =>
        (a, visits W t (W.start e), st) := by
  have hgood : ∀ p ∈ noted t e, (∃ un uh, Rep pool un uh p.1) ∧ p.1 ≠ nil := by
    intro p hp
    obtain ⟨rfl, hne⟩ := mem_noted hp
    exact ⟨⟨un, uh, hrep⟩, hne⟩
  have hvisits : ((noted t e).flatMap fun p => visits W p.1 (W.start p.2)) = visits W t (W.start e) := by
    cases t with
    | nil => rfl
    | node => exact List.flatMap_singleton _ _
  rw [walkTree, push_noted st t e hroom]
  dsimp only
  rw [walkLoop_eq hhier fuel (noted t e) a hgood (by rwa [todo_noted]) (by rwa [todo_noted]), hvisits]

end Run

end LinkTree

end SimpleLink.Lib
