import SimpleLink.Server.Dispatch
import SimpleLink.Server.Traverse

/-!
# What the traversals come to (`server_core.c`)

A traversal of a tree that the pool holds, with room on the stack for the nodes
of the tree, adds up the results of its searches in the order of the nodes and
leaves the stack as it was. The traversal for a multi-level wildcard runs two
others at the row that its search finds; what is on the stack by then and the
nodes below that row are fewer than the nodes of the tree.
-/

namespace SimpleLink.Server

open Lib LinkTree

theorem foldlM_some {α β : Type} {g : α → β → Option α} {P : α → Prop} (l : List β)
    (hg : ∀ a, ∀ r ∈ l, P a → ∃ b, g a r = some b ∧ P b) :
    ∀ {a}, P a → ∃ b, l.foldlM g a = some b ∧ P b := by
  induction l with
  | nil => exact fun h => ⟨_, rfl, h⟩
  | cons r l ih =>
    intro a ha
    obtain ⟨b, hb, hpb⟩ := hg a r List.mem_cons_self ha
    obtain ⟨b', hb', hpb'⟩ := ih (fun a r hr => hg a r (List.mem_cons_of_mem _ hr)) hpb
    exact ⟨b', by rw [List.foldlM_cons, hb]; exact hb', hpb'⟩

section Search

variable {ρ : Type} {W : Walker NodeIdx NodeData NodeNote HierState ρ} {σ : TopicTree}

theorem searchFrom_eq {t : Tree} {un uh : Option NodeIdx} {i : NodeIdx} {st : NodeStack}
    (hrep : Rep σ.nodes un uh t) (hi : root t = some i) (e : NodeNote)
    (hroom : st.length + (ids t).length ≤ maxTopNodes) :
    searchFrom W σ (i, e) st = some (result W t (W.start e), way W t (W.start e),
      stackOf (pending W t (W.start e)) ++ st) := by
  have hfuel : (ids t).length ≤ loopBound :=
    Nat.le_succ_of_le (Nat.le_trans (Nat.le_add_left _ _) hroom)
  rw [searchFrom, ← hi]
  exact descend_eq _ _ hrep hfuel hroom

end Search

/-! ## Retained messages -/

section Retained

variable {σ : TopicTree} {qos : MqttQos} {usr : ClIdx}

def rowResults {ρ : Type} (W : Walker NodeIdx NodeData NodeNote HierState ρ) (t : Tree)
    (e : NodeNote) : List ρ :=
  (noted t e).flatMap fun p => results W p.1 (W.start p.2)

theorem pubHier_eq (W : Walker NodeIdx NodeData NodeNote HierState (Option NodeIdx × List UInt8))
    (a : Grant) (t : Tree) (i : NodeIdx) (e : NodeNote) (st : NodeStack)
    (hrep : ∃ un uh, Rep σ.nodes un uh t) (hi : root t = some i)
    (hroom : st.length + (ids t).length ≤ maxTopNodes) :
    pubHier W σ qos usr a (i, e) st =
      (ackLeaf σ qos usr a (result W t (W.start e))).map fun a =>
        (a, way W t (W.start e), stackOf (pending W t (W.start e)) ++ st) := by
  obtain ⟨un, uh, hrep⟩ := hrep
  rw [pubHier, searchFrom_eq hrep hi e hroom]

theorem pubTree_eq (W : Walker NodeIdx NodeData NodeNote HierState (Option NodeIdx × List UInt8))
    {t : Tree} {un uh : Option NodeIdx} {st : NodeStack} (hrep : Rep σ.nodes un uh t)
    (hroom : st.length + (ids t).length ≤ maxTopNodes) (e : NodeNote) (a : Grant) :
    walkTree maxTopNodes (pubHier W σ qos usr) loopBound (root t) e a st =
      ((rowResults W t e).foldlM (ackLeaf σ qos usr) a).map fun a =>
        (a, visits W t (W.start e), st) := by
  have hfuel : (ids t).length ≤ loopBound :=
    Nat.le_succ_of_le (Nat.le_trans (Nat.le_add_left _ _) hroom)
  exact walkTree_eq (fun a t i e st h hi hroom => pubHier_eq W a t i e st h hi hroom) hrep hroom
    hfuel e a

theorem ackLeaf_total {m : ClMgmt} (hm : HasCtx m) (a : Grant)
    (found : Option NodeIdx × List UInt8) (ha : Appends m a.cl) :
    ∃ b, ackLeaf σ qos usr a found = some b ∧ Appends m b.cl := by
  obtain ⟨leaf, topic⟩ := found
  cases leaf with
  | none => exact ⟨_, rfl, ha⟩
  | some leaf =>
    rw [ackLeaf, procPubLeaf]
    by_cases hr : (σ.nodes leaf).val.retain = true
    · rw [if_pos hr]
      have hctx : HasCtx a.cl := hm.of_users ha.users
      obtain ⟨m', hm', happ⟩ := pubMsgSend_appends hctx topic
        ((σ.nodes leaf).val.myData.getD []) (minQid (σ.nodes leaf).val.qid qos) true
        (clBmapGet a.cl usr)
      dsimp only
      rw [hm']
      exact ⟨_, rfl, ha.trans happ⟩
    · rw [if_neg hr]
      exact ⟨_, rfl, ha⟩

theorem pubTree_total (W : Walker NodeIdx NodeData NodeNote HierState (Option NodeIdx × List UInt8))
    {t : Tree} {un uh : Option NodeIdx} {st : NodeStack} (hrep : Rep σ.nodes un uh t)
    (hroom : st.length + (ids t).length ≤ maxTopNodes) (e : NodeNote) {m : ClMgmt} (hm : HasCtx m)
    {a : Grant} (ha : Appends m a.cl) :
    ∃ b, walkTree maxTopNodes (pubHier W σ qos usr) loopBound (root t) e a st =
        some (b, visits W t (W.start e), st) ∧ Appends m b.cl := by
  obtain ⟨b, hb, happ⟩ := foldlM_some (rowResults W t e) (fun a r _ => ackLeaf_total hm a r) ha
  exact ⟨b, by rw [pubTree_eq W hrep hroom, hb]; rfl, happ⟩

theorem procPubTreeSubTop_total (topSUB : List UInt8) {t : Tree} {free : List NodeIdx}
    (hσ : Holds σ t free) {st : NodeStack} (hroom : st.length + (ids t).length ≤ maxTopNodes)
    (buf : List UInt8) (qos : MqttQos) (usr : ClIdx) {m : ClMgmt} (hm : HasCtx m) :
    ∃ a, procPubTreeSubTop topSUB σ σ.rootNode buf qos usr m st =
      some (a, visits pubHierWalker t (pubHierWalker.start ⟨topSUB, buf⟩), st) ∧
        Appends m a.cl := by
  have hinit : Appends m (⟨qos, m⟩ : Grant).cl := Appends.refl m
  rw [procPubTreeSubTop, hσ.root]
  exact pubTree_total pubHierWalker hσ.rep hroom ⟨topSUB, buf⟩ hm hinit

end Retained

/-! ## Delivery -/

section Deliver

variable {inUse : PluginIdx → Bool} {σ : TopicTree} {msg : PubMsg}

theorem procSubTreeTopPUB_eq (topPUB : List UInt8) {t : Tree} {free : List NodeIdx}
    (hσ : Holds σ t free) {st : NodeStack} (hroom : st.length + (ids t).length ≤ maxTopNodes)
    (m : ClMgmt) :
    procSubTreeTopPUB inUse topPUB msg σ m st =
      ((rowResults subLeafWalker t ⟨topPUB, []⟩).foldlM (sendLeaf inUse σ msg) ⟨m, []⟩).map fun a =>
        (a, visits subLeafWalker t (subLeafWalker.start ⟨topPUB, []⟩), st) := by
  have hfuel : (ids t).length ≤ loopBound :=
    Nat.le_succ_of_le (Nat.le_trans (Nat.le_add_left _ _) hroom)
  rw [procSubTreeTopPUB, hσ.root]
  refine walkTree_eq (fun a t i e st h hi hroom => ?_) hσ.rep hroom hfuel _ _
  obtain ⟨un, uh, hrep⟩ := h
  rw [subTreeTurn, subLeafSearch, searchFrom_eq hrep hi e hroom]

theorem leafMsgSend_total {m : ClMgmt} (hm : HasCtx m) (c : NodeData) (topic data : List UInt8)
    (dup : Bool) (qos : MqttQos) (retain : Bool) (a : Delivery) (ha : Appends m a.cl) :
    ∃ b, leafMsgSend inUse c topic data dup qos retain a = some b ∧ Appends m b.cl ∧
      b.plugins = if c.pgMap ≠ pgMapAllDflts then
        a.plugins ++ pluginPublish inUse c.pgMap topic data dup qos retain else a.plugins := by
  have hsend : ∀ (m' : ClMgmt) (qid : MqttQos), Appends m m' → ∃ m'',
      (if ((c.clMap qid).setWidth 8).setWidth 32 ≠ 0 then
        pubMsgSend m' topic data (qid.min qos) retain (((c.clMap qid).setWidth 8).setWidth 32)
      else some m') = some m'' ∧ Appends m m'' := by
    intro m' qid hm'
    have hctx : HasCtx m' := hm.of_users hm'.users
    split_ifs
    · obtain ⟨m'', hrun, happ⟩ := pubMsgSend_appends hctx topic data (qid.min qos) retain
        (((c.clMap qid).setWidth 8).setWidth 32)
      exact ⟨m'', hrun, hm'.trans happ⟩
    · exact ⟨m', rfl, hm'⟩
  obtain ⟨m', hm', happ⟩ := foldlM_some [MqttQos.qos0, .qos1, .qos2] (fun m qid _ => hsend m qid) ha
  exact ⟨_, by rw [leafMsgSend, hm']; rfl, happ, rfl⟩

theorem sendLeaf_total {m : ClMgmt} (hm : HasCtx m) (a : Delivery) (leaf : Option NodeIdx)
    (ha : Appends m a.cl) : ∃ b, sendLeaf inUse σ msg a leaf = some b ∧ Appends m b.cl := by
  cases leaf with
  | none => exact ⟨a, rfl, ha⟩
  | some leaf =>
    obtain ⟨b, hb, happ, -⟩ := @leafMsgSend_total inUse m hm (σ.nodes leaf).val msg.topic msg.data
      false msg.qos msg.retain a ha
    exact ⟨b, hb, happ⟩

theorem procSubTreeTopPUB_total (topPUB : List UInt8) {t : Tree} {free : List NodeIdx}
    (hσ : Holds σ t free) {st : NodeStack} (hroom : st.length + (ids t).length ≤ maxTopNodes)
    {m : ClMgmt} (hm : HasCtx m) :
    ∃ a, procSubTreeTopPUB inUse topPUB msg σ m st =
      some (a, visits subLeafWalker t (subLeafWalker.start ⟨topPUB, []⟩), st) ∧ Appends m a.cl := by
  have hinit : Appends m (⟨m, []⟩ : Delivery).cl := Appends.refl m
  obtain ⟨a, ha, happ⟩ := foldlM_some (rowResults subLeafWalker t ⟨topPUB, []⟩)
    (fun a r _ => @sendLeaf_total inUse σ msg m hm a r) hinit
  exact ⟨a, by rw [procSubTreeTopPUB_eq topPUB hσ hroom, ha]; rfl, happ⟩

end Deliver

/-! ## Multi-level wildcards -/

/-- Where the search for the level above the parent ends: at the row itself, or below a node. -/
inductive MlBase where
  | row (i : NodeIdx)
  | under (i : NodeIdx)

def MlBase.node (σ : TopicTree) : MlBase → Option NodeIdx
  | .row i => some i
  | .under i => (σ.nodes i).dnHier

/-- A turn of the search of `proc_sub_ml_wc_hier`. -/
def grandpaTurn (i : NodeIdx) (c : NodeData) (dnHier : Bool) (v : HierState) :
    Turn HierState (Option MlBase × List UInt8) :=
  if v.rest = some [] then .halt (some (.row i), v.buf)
  else
    match pubHierTurn i c dnHier v with
    | .halt r => .halt (r.1.map .under, r.2)
    | .stop r => .stop (r.1.map .under, r.2)
    | .down v => .down v

def grandpaWalker : Walker NodeIdx NodeData NodeNote HierState (Option MlBase × List UInt8) where
  start := pubHierWalker.start
  turn := grandpaTurn
  note := pubHierWalker.note
  bottom v := ((pubHierWalker.bottom v).1.map .under, (pubHierWalker.bottom v).2)

theorem subtopRead_next {s s' : List UInt8} (hs : s ≠ [])
    (h : (subtopRead s maxSubtopLen).2 = some s') : s' ≠ [] := by
  by_cases hfits : FitsIn (maxSubtopLen - 1) (firstLevel s).1
  · rw [subtopRead_fits hfits] at h
    exact firstLevel_next_ne_nil h
  · rw [subtopRead_long hfits] at h
    exact Option.some.inj h ▸ hs

theorem pubHierTurn_rest {i : NodeIdx} {c : NodeData} {b : Bool} {v v' : HierState}
    (hv : v.rest ≠ some []) (h : pubHierTurn i c b v = .down v') :
    v'.rest ≠ some [] ∧ v'.prev = some i := by
  rw [pubHierTurn] at h
  cases hrest : v.rest with
  | none =>
    rw [hrest] at h
    cases h
  | some s =>
    rw [hrest] at h
    have hs : s ≠ [] := fun hs => hv (by rw [hrest, hs])
    dsimp only at h
    split_ifs at h
    cases hbuf : topbufAdd v.buf c.subtop with
    | none =>
      rw [hbuf] at h
      cases h
    | some buf =>
      rw [hbuf] at h
      cases h
      exact ⟨fun hnil => subtopRead_next hs hnil rfl, rfl⟩

section Ml

variable {σ : TopicTree}

theorem descend_grandpa (fuel : Nat) : ∀ {r : Option NodeIdx} {v : HierState} {st : NodeStack},
    v.rest ≠ some [] → descend grandpaWalker maxTopNodes σ.nodes fuel r v st =
      (descend pubHierWalker maxTopNodes σ.nodes fuel r v st).map
        fun (r, is, st) => ((r.1.map .under, r.2), is, st) := by
  induction fuel with
  | zero =>
    intro r v st _
    cases r <;> rfl
  | succ fuel ih =>
    intro r v st hv
    cases r with
    | none => rfl
    | some i =>
      rw [descend, descend]
      have hturn : grandpaWalker.turn i (σ.nodes i).val (σ.nodes i).dnHier.isSome v =
          match pubHierTurn i (σ.nodes i).val (σ.nodes i).dnHier.isSome v with
          | .halt r => .halt (r.1.map .under, r.2)
          | .stop r => .stop (r.1.map .under, r.2)
          | .down v => .down v := if_neg hv
      have hturn' : pubHierWalker.turn i (σ.nodes i).val (σ.nodes i).dnHier.isSome v =
          pubHierTurn i (σ.nodes i).val (σ.nodes i).dnHier.isSome v := rfl
      dsimp only
      rw [hturn, hturn']
      cases ht : pubHierTurn i (σ.nodes i).val (σ.nodes i).dnHier.isSome v with
      | halt r => rfl
      | stop r =>
        dsimp only
        rw [Option.map_map]
        rfl
      | down v' =>
        have hnote : grandpaWalker.note v = pubHierWalker.note v := rfl
        dsimp only
        rw [hnote]
        cases push maxTopNodes st (σ.nodes i).dnNhbr (pubHierWalker.note v) with
        | none => rfl
        | some st' =>
          dsimp only
          rw [ih (pubHierTurn_rest hv ht).1, Option.map_map, Option.map_map]
          rfl

/-- Step 1 of `proc_sub_ml_wc_hier` is a search. -/
theorem mlGrandpa_eq (p : NodeIdx × NodeNote) (st : NodeStack) :
    mlGrandpa σ p st = (searchFrom grandpaWalker σ p st).map
      fun (r, is, st) => ((r.1.map (MlBase.node σ), r.2), is, st) := by
  obtain ⟨i, e⟩ := p
  rw [mlGrandpa]
  by_cases htop : e.topic = []
  · have hturn : grandpaWalker.turn i (σ.nodes i).val (σ.nodes i).dnHier.isSome
        (grandpaWalker.start e) = .halt (some (.row i), e.buf) := if_pos (congrArg some htop)
    rw [if_pos htop, searchFrom, descend]
    dsimp only
    rw [hturn]
    rfl
  · have hv : (grandpaWalker.start e).rest ≠ some [] := fun h => htop (Option.some.inj h)
    rw [if_neg htop, pubHierSearch, searchFrom, searchFrom, descend_grandpa loopBound hv,
      Option.map_map]
    have hstart : grandpaWalker.start e = pubHierWalker.start e := rfl
    rw [hstart]
    congr 1
    funext x
    simp only [Function.comp_apply, Option.map_map]
    rfl

/-- The row that the search finds; it and what is noted on the way fit in the tree. -/
theorem grandpa_row {t : Tree} : ∀ {un uh : Option NodeIdx} {v : HierState},
    Rep σ.nodes un uh t → (∀ p, v.prev = some p → (σ.nodes p).dnHier = root t) →
      ∀ b, (result grandpaWalker t v).1 = some b →
        ∃ row un uh, b.node σ = root row ∧ Rep σ.nodes un uh row ∧
          ((stackOf (pending grandpaWalker t v)).length + (ids row).length ≤ (ids t).length ∨
            v.prev ≠ none ∧ (ids row).length ≤ (ids t).length ∧
              (stackOf (pending grandpaWalker t v)).length ≤ 1) := by
  have hprev : ∀ {t : Tree} {un uh : Option NodeIdx} {v : HierState} {next : Option (List UInt8)},
      Rep σ.nodes un uh t → (∀ p, v.prev = some p → (σ.nodes p).dnHier = root t) →
      ∀ b, (leafAt next v.prev).map MlBase.under = some b →
        b.node σ = root t ∧ v.prev ≠ none := by
    intro t un uh v next _ hdn b hb
    rw [leafAt] at hb
    split_ifs at hb
    · obtain ⟨p, hp, rfl⟩ := Option.map_eq_some_iff.mp hb
      exact ⟨hdn p hp, by rw [hp]; nofun⟩
    · cases hb
  induction t with
  | nil =>
    intro un uh v hrep hdn b hb
    obtain ⟨hb, -⟩ := hprev hrep hdn b hb
    exact ⟨.nil, un, uh, hb, hrep, .inl (Nat.le_refl _)⟩
  | node i c h n ihh _ =>
    intro un uh v hrep hdn b hb
    rw [result] at hb
    rw [pending]
    have hnoted : (stackOf (noted n (grandpaWalker.note v))).length ≤ min 1 (ids n).length := by
      cases n with
      | nil => exact Nat.zero_le _
      | node => exact Nat.le_min.mpr ⟨Nat.le_refl 1, Nat.succ_le_succ (Nat.zero_le _)⟩
    have hsize : (ids (.node i c h n)).length = (ids h).length + (ids n).length + 1 := by
      rw [ids, List.length_cons, List.length_append]
    by_cases hrest : v.rest = some []
    · have hturn : grandpaWalker.turn i c (root h).isSome v = .halt (some (.row i), v.buf) :=
        if_pos hrest
      rw [hturn] at hb ⊢
      cases hb
      refine ⟨_, un, uh, rfl, hrep, .inl ?_⟩
      exact Nat.le_of_eq (Nat.zero_add _)
    · have hturn : grandpaWalker.turn i c (root h).isSome v =
          match pubHierTurn i c (root h).isSome v with
          | .halt r => .halt (r.1.map .under, r.2)
          | .stop r => .stop (r.1.map .under, r.2)
          | .down v => .down v := if_neg hrest
      rw [hturn] at hb ⊢
      cases ht : pubHierTurn i c (root h).isSome v with
      | halt r =>
        rw [ht] at hb
        have hr : ∃ next, r.1 = leafAt next v.prev := by
          rw [pubHierTurn] at ht
          cases hrest' : v.rest with
          | none =>
            rw [hrest'] at ht
            cases ht
            exact ⟨none, rfl⟩
          | some s =>
            rw [hrest'] at ht
            dsimp only at ht
            split_ifs at ht
            · cases ht
              exact ⟨_, rfl⟩
            · cases hbuf : topbufAdd v.buf c.subtop with
              | none =>
                rw [hbuf] at ht
                cases ht
              | some buf =>
                rw [hbuf] at ht
                cases ht
        obtain ⟨next, hr⟩ := hr
        dsimp only at hb
        rw [hr] at hb
        obtain ⟨hb, -⟩ := hprev hrep hdn b hb
        exact ⟨_, un, uh, hb, hrep, .inl (Nat.le_of_eq (Nat.zero_add _))⟩
      | stop r =>
        rw [ht] at hb
        have hr : ∃ next, r.1 = leafAt next v.prev := by
          rw [pubHierTurn] at ht
          cases hrest' : v.rest with
          | none =>
            rw [hrest'] at ht
            cases ht
          | some s =>
            rw [hrest'] at ht
            dsimp only at ht
            split_ifs at ht
            · cases hbuf : topbufAdd v.buf c.subtop with
              | none =>
                rw [hbuf] at ht
                cases ht
                exact ⟨_, rfl⟩
              | some buf =>
                rw [hbuf] at ht
                cases ht
            · cases ht
              exact ⟨_, rfl⟩
        obtain ⟨next, hr⟩ := hr
        dsimp only at hb
        rw [hr] at hb
        obtain ⟨hb, hsome⟩ := hprev hrep hdn b hb
        exact ⟨_, un, uh, hb, hrep, .inr ⟨hsome, Nat.le_refl _, hnoted.trans (Nat.min_le_left _ _)⟩⟩
      | down v' =>
        rw [ht] at hb
        obtain ⟨-, hv'⟩ := pubHierTurn_rest hrest ht
        have hdn' : ∀ p, v'.prev = some p → (σ.nodes p).dnHier = root h := by
          intro p hp
          obtain rfl := Option.some.inj (hv'.symm.trans hp)
          rw [hrep.1]
        obtain ⟨row, un', uh', hrow, hrep', hlen⟩ := ihh hrep.2.1 hdn' b hb
        refine ⟨row, un', uh', hrow, hrep', .inl ?_⟩
        dsimp only
        rw [stackOf_append, List.length_append]
        rcases hlen with hlen | ⟨-, hlen, hone⟩ <;> omega

theorem nhbrNodeFind_row {subtop : List UInt8} {row : Tree} : ∀ {un uh : Option NodeIdx} {fuel : Nat},
    Rep σ.nodes un uh row → (ids row).length ≤ fuel →
      ∃ found, subtopNhbrNodeFind σ.nodes subtop fuel (root row) = some found ∧
        ∀ i next, found = some (i, next) → ∃ below un uh, (σ.nodes i).dnHier = root below ∧
          Rep σ.nodes un uh below ∧ (ids below).length ≤ (ids row).length := by
  induction row with
  | nil =>
    intro un uh fuel _ _
    cases fuel <;> exact ⟨none, rfl, nofun⟩
  | node i c h n _ ihn =>
    intro un uh fuel hrep hfuel
    have hsize : (ids h).length ≤ (ids (.node i c h n)).length ∧
        (ids n).length < (ids (.node i c h n)).length := by
      rw [ids, List.length_cons, List.length_append]
      omega
    cases fuel with
    | zero => omega
    | succ fuel =>
      rw [root, subtopNhbrNodeFind]
      cases isFirstSubtop (σ.nodes i).val.subtop subtop with
      | some next =>
        refine ⟨some (i, next), rfl, fun j next' hj => ?_⟩
        cases hj
        exact ⟨h, none, some i, by rw [hrep.1], hrep.2.1, hsize.1⟩
      | none =>
        have hnhbr : (σ.nodes i).dnNhbr = root n := by rw [hrep.1]
        obtain ⟨found, hfound, hbelow⟩ := @ihn _ _ fuel hrep.2.2 (by omega)
        refine ⟨found, by rw [← hfound, ← hnhbr], fun j next hj => ?_⟩
        obtain ⟨below, un', uh', hdn, hrep', hlen⟩ := hbelow j next hj
        exact ⟨below, un', uh', hdn, hrep', hlen.trans (Nat.le_of_lt hsize.2)⟩

variable {qos : MqttQos} {usr : ClIdx} {parentSubtop : List UInt8}

/-- The rest of `proc_sub_ml_wc_hier`, from the row at the level of the parent. -/
def mlRest (parentSubtop : List UInt8) (σ : TopicTree) (qos : MqttQos) (usr : ClIdx) (a : Grant)
    (found : Option (Option NodeIdx) × List UInt8) (st : NodeStack) : Option (Grant × NodeStack) :=
  match found with
  | (none, _) => some ({ a with min := qos.min a.min }, st)
  | (some base, buf) =>
    match mlParent parentSubtop σ base buf qos usr a.cl st with
    | none => none
    | some (b, base, buf, st) =>
      match procPubTreeNoTop σ base buf qos usr b.cl st with
      | none => none
      | some (b', _, st) => some (⟨(b'.min.min b.min).min a.min, b'.cl⟩, st)

theorem procSubMlWcHier_eq (a : Grant) (p : NodeIdx × NodeNote) (st : NodeStack) :
    procSubMlWcHier parentSubtop σ qos usr a p st =
      match mlGrandpa σ p st with
      | none => none
      | some (found, is, st) =>
        (mlRest parentSubtop σ qos usr a found st).map fun (a, st) => (a, is, st) := by
  rw [procSubMlWcHier]
  cases mlGrandpa σ p st with
  | none => rfl
  | some x =>
    obtain ⟨⟨base, buf⟩, is, st⟩ := x
    cases base with
    | none => rfl
    | some base =>
      dsimp only [mlRest]
      cases mlParent parentSubtop σ base buf qos usr a.cl st with
      | none => rfl
      | some y =>
        obtain ⟨b, base, buf, st⟩ := y
        dsimp only
        cases procPubTreeNoTop σ base buf qos usr b.cl st <;> rfl

theorem mlParent_row {row : Tree} {un uh : Option NodeIdx} (hrep : Rep σ.nodes un uh row)
    (buf : List UInt8) (m : ClMgmt) {st : NodeStack}
    (hroom : st.length + (ids row).length ≤ maxTopNodes) :
    mlParent parentSubtop σ (root row) buf qos usr m st =
        (mlParent parentSubtop σ (root row) buf qos usr m []).map
          (fun x => (x.1, x.2.1, x.2.2.1, st)) ∧
      (∀ x, mlParent parentSubtop σ (root row) buf qos usr m [] = some x →
        x.2.2.2 = [] ∧ ∃ below un uh, x.2.1 = root below ∧ Rep σ.nodes un uh below ∧
          (ids below).length ≤ (ids row).length) ∧
      (HasCtx m → ∃ x, mlParent parentSubtop σ (root row) buf qos usr m [] = some x ∧
        Appends m x.1.cl) := by
  have hroom₀ : ([] : NodeStack).length + (ids row).length ≤ maxTopNodes := by
    rw [List.length_nil]
    omega
  cases parentSubtop with
  | nil =>
    refine ⟨rfl, fun x hx => ?_, fun _ => ⟨_, rfl, Appends.refl m⟩⟩
    cases hx
    exact ⟨rfl, row, un, uh, rfl, hrep, Nat.le_refl _⟩
  | cons c sub =>
    rw [mlParent, mlParent]
    by_cases hc : c = plus ∨ c = slash
    · rw [if_pos hc, if_pos hc]
      refine ⟨rfl, fun x hx => ?_, fun _ => ⟨_, rfl, Appends.refl m⟩⟩
      cases hx
      exact ⟨rfl, row, un, uh, rfl, hrep, Nat.le_refl _⟩
    · rw [if_neg hc, if_neg hc]
      have hfuel : (ids row).length ≤ loopBound := Nat.le_succ_of_le (by omega)
      obtain ⟨found, hfound, hbelow⟩ := @nhbrNodeFind_row σ (c :: sub ++ [slash]) row _ _ _ hrep hfuel
      have htree : ∀ {st : NodeStack}, st.length + (ids row).length ≤ maxTopNodes →
          procPubTreeSubTop (c :: sub) σ (root row) buf qos usr m st =
            ((rowResults pubHierWalker row ⟨c :: sub, buf⟩).foldlM (ackLeaf σ qos usr)
              ⟨qos, m⟩).map fun a =>
                (a, visits pubHierWalker row (pubHierWalker.start ⟨c :: sub, buf⟩), st) :=
        fun hroom => pubTree_eq pubHierWalker hrep hroom _ _
      have htotal : HasCtx m → ∃ b, (rowResults pubHierWalker row ⟨c :: sub, buf⟩).foldlM
          (ackLeaf σ qos usr) ⟨qos, m⟩ = some b ∧ Appends m b.cl := by
        intro hm
        have hinit : Appends m (⟨qos, m⟩ : Grant).cl := Appends.refl m
        exact foldlM_some _ (fun a r _ => ackLeaf_total hm a r) hinit
      have hnhbr : nhbrNodeFind σ (root row) (c :: sub ++ [slash]) =
          some (found.map Prod.fst) := by
        unfold nhbrNodeFind
        rw [hfound]
        rfl
      rw [htree hroom, htree hroom₀]
      dsimp only
      rw [hnhbr]
      cases hfold : (rowResults pubHierWalker row ⟨c :: sub, buf⟩).foldlM (ackLeaf σ qos usr)
        ⟨qos, m⟩ with
      | none =>
        refine ⟨rfl, nofun, fun hm => ?_⟩
        obtain ⟨b, hb, -⟩ := htotal hm
        cases hfold.symm.trans hb
      | some b =>
        have happ : HasCtx m → Appends m b.cl := by
          intro hm
          obtain ⟨b', hb', happ⟩ := htotal hm
          cases hfold.symm.trans hb'
          exact happ
        cases found with
        | none =>
          refine ⟨rfl, fun x hx => ?_, fun hm => ⟨_, rfl, happ hm⟩⟩
          cases hx
          exact ⟨rfl, .nil, none, none, rfl, trivial, Nat.zero_le _⟩
        | some p =>
          obtain ⟨below, un', uh', hdn, hrep', hlen⟩ := hbelow p.1 p.2 rfl
          dsimp only [Option.map_some]
          cases topbufCpy buf (c :: sub ++ [slash]) with
          | none =>
            refine ⟨rfl, fun x hx => ?_, fun hm => ⟨_, rfl, happ hm⟩⟩
            cases hx
            exact ⟨rfl, .nil, none, none, rfl, trivial, Nat.zero_le _⟩
          | some buf' =>
            refine ⟨rfl, fun x hx => ?_, fun hm => ⟨_, rfl, happ hm⟩⟩
            cases hx
            exact ⟨rfl, below, un', uh', hdn, hrep', hlen⟩

/-- The traversals at a row do not depend on the stack, and leave it as it was. -/
theorem mlRest_row {row : Tree} {un uh : Option NodeIdx} (hrep : Rep σ.nodes un uh row)
    (buf : List UInt8) (a : Grant) {st : NodeStack}
    (hroom : st.length + (ids row).length ≤ maxTopNodes) :
    mlRest parentSubtop σ qos usr a (some (root row), buf) st =
        (mlRest parentSubtop σ qos usr a (some (root row), buf) []).map (fun x => (x.1, st)) ∧
      (HasCtx a.cl → ∃ x, mlRest parentSubtop σ qos usr a (some (root row), buf) [] = some x ∧
        Appends a.cl x.1.cl) := by
  obtain ⟨hstack, hrow, htotal⟩ :=
    @mlParent_row σ qos usr parentSubtop row un uh hrep buf a.cl st hroom
  dsimp only [mlRest]
  rw [hstack]
  cases hpar : mlParent parentSubtop σ (root row) buf qos usr a.cl [] with
  | none =>
    refine ⟨rfl, fun hm => ?_⟩
    obtain ⟨x, hx, -⟩ := htotal hm
    cases hpar.symm.trans hx
  | some x =>
    obtain ⟨b, base, buf', st'⟩ := x
    obtain ⟨hst', below, un', uh', hbase, hrep', hlen⟩ := hrow _ hpar
    dsimp only at hst' hbase
    subst hst' hbase
    have hroom' : st.length + (ids below).length ≤ maxTopNodes := by omega
    have hroom₀ : ([] : NodeStack).length + (ids below).length ≤ maxTopNodes := by
      rw [List.length_nil]
      omega
    have htree : ∀ {st : NodeStack}, st.length + (ids below).length ≤ maxTopNodes →
        procPubTreeNoTop σ (root below) buf' qos usr b.cl st =
          ((rowResults noTopWalker below ⟨[], buf'⟩).foldlM (ackLeaf σ qos usr) ⟨qos, b.cl⟩).map
            fun a => (a, visits noTopWalker below (noTopWalker.start ⟨[], buf'⟩), st) :=
      fun hroom => pubTree_eq noTopWalker hrep' hroom _ _
    dsimp only [Option.map_some]
    rw [htree hroom', htree hroom₀]
    refine ⟨?_, fun hm => ?_⟩
    · cases (rowResults noTopWalker below ⟨[], buf'⟩).foldlM (ackLeaf σ qos usr) ⟨qos, b.cl⟩ <;> rfl
    · obtain ⟨x, hx, happ⟩ := htotal hm
      cases hpar.symm.trans hx
      have hinit : Appends a.cl (⟨qos, b.cl⟩ : Grant).cl := happ
      obtain ⟨b', hb', happ'⟩ := foldlM_some (rowResults noTopWalker below ⟨[], buf'⟩)
        (fun d r _ => @ackLeaf_total σ qos usr a.cl hm d r) hinit
      rw [hb']
      exact ⟨_, rfl, happ'⟩

theorem grandpa_start (e : NodeNote) {p : NodeIdx} (h : (grandpaWalker.start e).prev = some p)
    (t : Tree) : (σ.nodes p).dnHier = root t := by
  cases h

def mlAck (parentSubtop : List UInt8) (σ : TopicTree) (qos : MqttQos) (usr : ClIdx) (a : Grant)
    (r : Option MlBase × List UInt8) : Option Grant :=
  (mlRest parentSubtop σ qos usr a (r.1.map (MlBase.node σ), r.2) []).map Prod.fst

theorem procSubMlWcTree_eq (grandpaTopSUB : List UInt8) {t : Tree} {free : List NodeIdx}
    (hσ : Holds σ t free) {st : NodeStack} (hroom : st.length + (ids t).length ≤ maxTopNodes)
    (m : ClMgmt) :
    procSubMlWcTree grandpaTopSUB parentSubtop σ qos usr m st =
      ((rowResults grandpaWalker t ⟨grandpaTopSUB, []⟩).foldlM (mlAck parentSubtop σ qos usr)
        ⟨qos, m⟩).map fun a =>
          (a, visits grandpaWalker t (grandpaWalker.start ⟨grandpaTopSUB, []⟩), st) := by
  have hfuel : (ids t).length ≤ loopBound :=
    Nat.le_succ_of_le (Nat.le_trans (Nat.le_add_left _ _) hroom)
  rw [procSubMlWcTree, hσ.root]
  refine walkTree_eq (fun a t i e st h hi hroom => ?_) hσ.rep hroom hfuel _ _
  obtain ⟨un, uh, hrep⟩ := h
  rw [procSubMlWcHier_eq, mlGrandpa_eq, searchFrom_eq hrep hi e hroom]
  dsimp only [Option.map_some, mlAck]
  cases hr : (result grandpaWalker t (grandpaWalker.start e)).1 with
  | none => rfl
  | some b =>
    obtain ⟨row, un', uh', hrow, hrep', hlen⟩ := grandpa_row hrep (fun _ h => grandpa_start _ h _) b hr
    have hroom' : (stackOf (pending grandpaWalker t (grandpaWalker.start e)) ++ st).length +
        (ids row).length ≤ maxTopNodes := by
      rw [List.length_append]
      rcases hlen with hlen | ⟨hprev, -⟩
      · omega
      · exact absurd rfl hprev
    dsimp only [Option.map_some]
    rw [hrow, (mlRest_row hrep' _ a hroom').1, Option.map_map, Option.map_map]
    rfl

theorem procSubMlWcTree_total (grandpaTopSUB : List UInt8) {t : Tree} {free : List NodeIdx}
    (hσ : Holds σ t free) {st : NodeStack} (hroom : st.length + (ids t).length ≤ maxTopNodes)
    {m : ClMgmt} (hm : HasCtx m) :
    ∃ a, procSubMlWcTree grandpaTopSUB parentSubtop σ qos usr m st =
      some (a, visits grandpaWalker t (grandpaWalker.start ⟨grandpaTopSUB, []⟩), st) ∧
        Appends m a.cl := by
  have hack : ∀ a, ∀ r ∈ rowResults grandpaWalker t ⟨grandpaTopSUB, []⟩, Appends m a.cl →
      ∃ b, mlAck parentSubtop σ qos usr a r = some b ∧ Appends m b.cl := by
    intro a r hr ha
    obtain ⟨p, hp, hr⟩ := List.mem_flatMap.mp hr
    obtain ⟨rfl, -⟩ := mem_noted hp
    obtain ⟨base, buf⟩ := r
    have hrow : ∀ b, base = some b → ∃ row un uh, b.node σ = root row ∧ Rep σ.nodes un uh row ∧
        (ids row).length ≤ (ids t).length := by
      rintro b rfl
      rcases mem_results hσ.rep hr with hr | ⟨t', e, un, uh, hrep, hlen, hr⟩
      · obtain ⟨row, un, uh, hrow, hrep, hlen⟩ :=
          grandpa_row hσ.rep (fun _ h => grandpa_start _ h _) b (congrArg Prod.fst hr).symm
        exact ⟨row, un, uh, hrow, hrep, hlen.elim (fun h => by omega) fun h => h.2.1⟩
      · obtain ⟨row, un, uh, hrow, hrep, hlen'⟩ :=
          grandpa_row hrep (fun _ h => grandpa_start _ h _) b (congrArg Prod.fst hr).symm
        exact ⟨row, un, uh, hrow, hrep, hlen'.elim (fun h => by omega) fun h => h.2.1.trans hlen⟩
    cases base with
    | none => exact ⟨_, rfl, ha⟩
    | some b =>
      obtain ⟨row, un, uh, hrow, hrep, hlen⟩ := hrow b rfl
      have hroom₀ : ([] : NodeStack).length + (ids row).length ≤ maxTopNodes := by
        rw [List.length_nil]
        omega
      obtain ⟨x, hx, happ⟩ := (@mlRest_row σ qos usr parentSubtop row un uh hrep buf a [] hroom₀).2
        (hm.of_users ha.users)
      refine ⟨x.1, ?_, ha.trans happ⟩
      rw [mlAck]
      dsimp only [Option.map_some]
      rw [hrow, hx]
      rfl
  have hinit : Appends m (⟨qos, m⟩ : Grant).cl := Appends.refl m
  obtain ⟨a, ha, happ⟩ := foldlM_some _ hack hinit
  exact ⟨a, by rw [procSubMlWcTree_eq grandpaTopSUB hσ hroom, ha]; rfl, happ⟩

end Ml

end SimpleLink.Server
