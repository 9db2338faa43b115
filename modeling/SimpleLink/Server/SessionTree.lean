import SimpleLink.Server.TreeEdits
import SimpleLink.Server.Traverse

/-!
# Deletion of a session (`server_core.c`)

`session_tree_delete` goes through the whole tree. At each node it takes the
client off the first map that has it; at the end of each way down it deletes
what has become useless, while the neighbours that it noted wait on the stack.
A node that waits has a neighbour or a node above that is not deleted before it,
so that what is popped is in the tree. The tree that is left is `sweep`.
-/

namespace SimpleLink.Server

open Lib LinkTree

def qosOf (c : NodeData) (map : BitVec 32) : Option MqttQos :=
  [MqttQos.qos0, .qos1, .qos2].find? fun q => c.clMap q &&& map != 0

def unmapFirst (map : BitVec 32) (c : NodeData) : NodeData :=
  match qosOf c map with
  | none => c
  | some q => { c with clMap := Function.update c.clMap q (c.clMap q &&& ~~~map) }

def clearFirst (usr : ClIdx) (map : BitVec 32) (a : TopicTree × ClMgmt) (i : NodeIdx) :
    TopicTree × ClMgmt :=
  let c := (a.1.nodes i).val
  match qosOf c map with
  | none => a
  | some _ => (a.1.setVal i (unmapFirst map c), clSubCountDel a.2 usr)

/-- The loop of `session_hier_delete`; each node comes with the tree that it is visited in. -/
def sessionHierLoop (usr : ClIdx) (map : BitVec 32) :
    Nat → TopicTree × ClMgmt → Option NodeIdx → Option NodeIdx → NodeStack →
      Option ((TopicTree × ClMgmt) × Option NodeIdx × List (NodeIdx × TopicTree) × NodeStack)
  | _, a, none, prev, st => some (a, prev, [], st)
  | 0, _, some _, _, _ => none
  | fuel + 1, a, some i, _, st =>
    let b := clearFirst usr map a i
    let c := b.1.nodes i
    match push maxTopNodes st c.dnNhbr ⟨[], []⟩ with
    | none => none
    | some st =>
      (sessionHierLoop usr map fuel b c.dnHier (some i) st).map fun (b, prev, is, st) =>
        (b, prev, (i, a.1) :: is, st)

/-- `session_hier_delete`. -/
def sessionHierDelete (usr : ClIdx) (a : TopicTree × ClMgmt) (p : NodeIdx × NodeNote)
    (st : NodeStack) : Option ((TopicTree × ClMgmt) × List (NodeIdx × TopicTree) × NodeStack) :=
  match sessionHierLoop usr (clBmapGet a.2 usr) loopBound a (some p.1) none st with
  | none => none
  | some (a, none, is, st) => some (a, is, st)
  | some ((σ, m), some prev, is, st) => (tryNodeDelete σ prev).map fun σ => ((σ, m), is, st)

/-- `session_tree_delete`. -/
def sessionTreeDelete (usr : ClIdx) (a : TopicTree × ClMgmt) (st : NodeStack) :
    Option ((TopicTree × ClMgmt) × List (NodeIdx × TopicTree) × NodeStack) :=
  walkTree maxTopNodes (sessionHierDelete usr) loopBound a.1.rootNode ⟨[], []⟩ a st

/-! ## What it comes to -/

/-- Subscriptions are counted no longer, `k` times. -/
def uncount (usr : ClIdx) : Nat → ClMgmt → ClMgmt
  | 0, m => m
  | k + 1, m => uncount usr k (clSubCountDel m usr)

def subbed (map : BitVec 32) (c : NodeData) : Nat := if qosOf c map = none then 0 else 1

def InTree (x : NodeIdx × TopicTree) : Prop := ∃ t free, Holds x.2 t free ∧ x.1 ∈ ids t

def swept (map : BitVec 32) (t : Tree) : Tree := sweep (unmapFirst map) NodeData.useless t

theorem uncount_add (usr : ClIdx) (j k : Nat) (m : ClMgmt) :
    uncount usr k (uncount usr j m) = uncount usr (j + k) m := by
  induction j generalizing m with
  | zero => rw [Nat.zero_add, uncount]
  | succ j ih => rw [uncount, ih, Nat.add_right_comm, uncount]

theorem clBmapGet_nSub (m : ClMgmt) (usr : ClIdx) (n : Nat) :
    clBmapGet (m.setUser usr { m.users usr with nSub := n }) usr = clBmapGet m usr := by
  have hfree : ((m.setUser usr { m.users usr with nSub := n }).users usr).isFree =
      (m.users usr).isFree := by
    rw [show (m.setUser usr { m.users usr with nSub := n }).users usr =
      { m.users usr with nSub := n } from Function.update_self ..]
    rfl
  rw [clBmapGet, hfree, clBmapGet]

theorem clBmapGet_uncount (usr : ClIdx) (k : Nat) (m : ClMgmt) :
    clBmapGet (uncount usr k m) usr = clBmapGet m usr := by
  induction k generalizing m with
  | zero => rfl
  | succ k ih =>
    rw [uncount, ih, clSubCountDel]
    split_ifs
    · exact clBmapGet_nSub m usr _
    · rfl

theorem unmapFirst_subtop (map : BitVec 32) (c : NodeData) : (unmapFirst map c).subtop = c.subtop := by
  unfold unmapFirst
  cases qosOf c map <;> rfl

section Walk

variable {usr : ClIdx} {map : BitVec 32}

theorem clearFirst_holds {σ : TopicTree} {fs : Place} {i : NodeIdx} {c : NodeData} {h n : Tree}
    {free : List NodeIdx} (hσ : Holds σ (plug fs (.node i c h n)) free) (m : ClMgmt) :
    ∃ σ', clearFirst usr map (σ, m) i = (σ', uncount usr (subbed map c) m) ∧
      Holds σ' (plug fs (.node i (unmapFirst map c) h n)) free ∧
      Moves σ σ' (plug fs (.node i c h n)) (plug fs (.node i (unmapFirst map c) h n)) free free := by
  have hcell := hσ.toParts.cell
  have hset := hσ.setVal (unmapFirst_subtop map c)
  unfold clearFirst
  dsimp only
  rw [hcell]
  dsimp only
  rw [subbed]
  cases hq : qosOf c map with
  | none =>
    have hsame : unmapFirst map c = c := by
      rw [unmapFirst, hq]
    rw [hsame]
    exact ⟨σ, rfl, hσ, .refl σ _ free⟩
  | some q => exact ⟨_, rfl, hset, setVal_moves ..⟩

/-- From a node down and through all that was noted on the way: the tree is swept at its place. -/
theorem sessionWalk {t : Tree} : ∀ {σ : TopicTree} {fs : Place} {free : List NodeIdx} {i : NodeIdx}
    {m : ClMgmt} {fuel : Nat} {st : NodeStack} (prev : Option NodeIdx), Holds σ (plug fs t) free →
      root t = some i → st.length + (ids t).length ≤ maxTopNodes → clBmapGet m usr = map →
      (ids t).length ≤ fuel →
      ∃ σ₁ m₁ p is₁ st₁ σ₂ σ' free' is₂ k,
        sessionHierLoop usr map fuel (σ, m) (some i) prev st = some ((σ₁, m₁), some p, is₁, st₁) ∧
        tryNodeDelete σ₁ p = some σ₂ ∧ k < (ids t).length ∧
        (∀ ref ≤ st.length, ∀ fuel,
          walkLoop (sessionHierDelete usr) ref (fuel + k) (σ₂, m₁) st₁ =
            (walkLoop (sessionHierDelete usr) ref fuel
              (σ', uncount usr (total (subbed map) t) m) st).map fun (a, is, st) => (a, is₂ ++ is, st)) ∧
        Holds σ' (settle NodeData.useless fs (swept map t)) free' ∧
        Moves σ σ' (plug fs t) (settle NodeData.useless fs (swept map t)) free free' ∧
        (is₁ ++ is₂).map Prod.fst = ids t ∧ ∀ x ∈ is₁ ++ is₂, InTree x := by
  induction t with
  | nil => exact fun _ _ h => by cases h
  | node i c h n ihh ihn =>
    intro σ fs free i' m fuel st prev hσ hi hroom hmap hfuel
    cases hi
    obtain ⟨σa, hclear, hσa, hmovea⟩ := @clearFirst_holds usr map _ _ _ _ _ _ _ hσ m
    have hcell := hσa.toParts.cell
    have hin : InTree (i, σ) := by
      refine ⟨_, free, hσ, ?_⟩
      rw [(ids_plug fs _).mem_iff]
      exact List.mem_append_left _ List.mem_cons_self
    rw [ids, List.length_cons, List.length_append] at hroom hfuel
    have hlen : st.length + (ids n).length ≤ maxTopNodes := by omega
    have hpush := push_noted st n (⟨[], []⟩ : NodeNote) hlen
    have hma : clBmapGet (uncount usr (subbed map c) m) usr = map := (clBmapGet_uncount ..).trans hmap
    obtain ⟨fuel, rfl⟩ : ∃ f, fuel = f + 1 := ⟨fuel - 1, by omega⟩
    have hstn : (stackOf (noted n (⟨[], []⟩ : NodeNote)) ++ st).length + (ids h).length ≤
        maxTopNodes := by
      have := length_stackOf_le (noted n (⟨[], []⟩ : NodeNote))
      rw [todo_noted] at this
      rw [List.length_append]
      omega
    have hst : st.length ≤ (stackOf (noted n (⟨[], []⟩ : NodeNote)) ++ st).length := by
      rw [List.length_append]
      exact Nat.le_add_left _ _
    -- first the way down below the node, and all that was noted there
    have hbelow : ∃ σ₁ m₁ p is₁ st₁ σ₂ σb freeb is₂ k,
        sessionHierLoop usr map (fuel + 1) (σ, m) (some i) prev st =
          some ((σ₁, m₁), some p, (i, σ) :: is₁, st₁) ∧
        tryNodeDelete σ₁ p = some σ₂ ∧ k ≤ (ids h).length ∧
        (∀ ref ≤ st.length, ∀ fuel,
          walkLoop (sessionHierDelete usr) ref (fuel + k) (σ₂, m₁) st₁ =
            (walkLoop (sessionHierDelete usr) ref fuel
              (σb, uncount usr (subbed map c + total (subbed map) h) m)
              (stackOf (noted n ⟨[], []⟩) ++ st)).map fun (a, is, st) => (a, is₂ ++ is, st)) ∧
        Holds σb (settle NodeData.useless (.hier i (unmapFirst map c) n :: fs) (swept map h)) freeb ∧
        Moves σ σb (plug fs (.node i c h n))
          (settle NodeData.useless (.hier i (unmapFirst map c) n :: fs) (swept map h)) free freeb ∧
        (is₁ ++ is₂).map Prod.fst = ids h ∧ ∀ x ∈ is₁ ++ is₂, InTree x := by
      rw [sessionHierLoop, hclear]
      dsimp only
      rw [hcell]
      dsimp only
      rw [hpush]
      dsimp only
      cases hh : root h with
      | none =>
        obtain rfl := root_eq_none.mp hh
        obtain ⟨σ₂, hdel, hσ₂, hmove₂⟩ := hσa.tryNodeDelete
        have hprune : (prune NodeData.useless fs (.node i (unmapFirst map c) .nil n) free).1 =
            settle NodeData.useless (.hier i (unmapFirst map c) n :: fs) (swept map .nil) :=
          prune_free _ _ _ _ _
        rw [hprune] at hσ₂ hmove₂
        have hnone : sessionHierLoop usr map fuel (σa, uncount usr (subbed map c) m) none (some i)
            (stackOf (noted n ⟨[], []⟩) ++ st) =
              some ((σa, uncount usr (subbed map c) m), some i, [],
                stackOf (noted n ⟨[], []⟩) ++ st) := by
          cases fuel <;> rfl
        rw [hnone]
        refine ⟨σa, _, i, [], _, σ₂, σ₂, _, [], 0, rfl, hdel, Nat.zero_le _, fun ref _ fuel => ?_,
          hσ₂, hmovea.trans hmove₂, rfl, by simp⟩
        simp only [List.nil_append]
        exact Option.map_id'.symm
      | some j =>
        obtain ⟨σ₁, m₁, p, is₁, st₁, σ₂, σ', free', is₂, k, hrun, hdel, hk, hwalk, hσ', hmove', hids,
          hgood⟩ :=
          @ihh σa (.hier i (unmapFirst map c) n :: fs) free j _ fuel _ (some i) hσa hh hstn hma
            (by omega)
        rw [hrun]
        refine ⟨σ₁, m₁, p, is₁, st₁, σ₂, σ', free', is₂, k, rfl, hdel, Nat.le_of_lt hk,
          fun ref href fuel => ?_, hσ', hmovea.trans hmove', hids, hgood⟩
        rw [hwalk ref (href.trans hst), uncount_add]
    obtain ⟨σ₁, m₁, p, is₁, st₁, σ₂, σb, freeb, is₂, k, hrun, hdel, hk, hwalk, hσb, hmoveb, hids,
      hgood⟩ := hbelow
    cases hn : root n with
    | none =>
      obtain rfl := root_eq_none.mp hn
      refine ⟨σ₁, m₁, p, (i, σ) :: is₁, st₁, σ₂, σb, freeb, is₂, k, hrun, hdel, ?_,
        fun ref href fuel => ?_, ?_, ?_, ?_, ?_⟩
      · rw [ids, List.length_cons, List.length_append]
        omega
      · rw [hwalk ref href, total_node]
        rfl
      · rw [swept, ← settle_sweep_last]
        exact hσb
      · rw [swept, ← settle_sweep_last]
        exact hmoveb
      · rw [List.cons_append, List.map_cons, hids, ids, ids, List.append_nil]
      · rw [List.cons_append]
        exact List.forall_mem_cons.mpr ⟨hin, hgood⟩
    | some j =>
      have hne : n ≠ .nil := fun h => by cases (root_eq_none.mpr h).symm.trans hn
      rw [settle_row _ _ _ _ _ hne] at hσb hmoveb
      have hmb : clBmapGet (uncount usr (subbed map c + total (subbed map) h) m) usr = map :=
        (clBmapGet_uncount ..).trans hmap
      obtain ⟨σ₃, m₃, p', is₃, st₃, σ₄, σ', free', is₄, k', hrun', hdel', hk', hwalk', hσ', hmove',
        hids', hgood'⟩ :=
        @ihn σb (.nhbr i (unmapFirst map c) (swept map h) :: fs) freeb j _ loopBound st none hσb hn
          (by omega) hmb (Nat.le_succ_of_le (by omega))
      have hpop : stackOf (noted n (⟨[], []⟩ : NodeNote)) ++ st = (j, ⟨[], []⟩) :: st := by
        cases n with
        | nil => cases hn
        | node => cases hn; rfl
      refine ⟨σ₁, m₁, p, (i, σ) :: is₁, st₁, σ₂, σ', free', is₂ ++ (is₃ ++ is₄), k + (k' + 1), hrun,
        hdel, ?_, fun ref href fuel => ?_, ?_, ?_, ?_, ?_⟩
      · rw [ids, List.length_cons, List.length_append]
        omega
      · have hhigh : ¬ ((j, (⟨[], []⟩ : NodeNote)) :: st).length ≤ ref := by
          rw [List.length_cons]
          omega
        have hhier : sessionHierDelete usr
            (σb, uncount usr (subbed map c + total (subbed map) h) m) (j, ⟨[], []⟩) st =
              some ((σ₄, m₃), is₃, st₃) := by
          rw [sessionHierDelete]
          dsimp only
          rw [hmb, hrun']
          dsimp only
          rw [hdel']
          rfl
        have hfuel : fuel + (k + (k' + 1)) = fuel + k' + 1 + k := by omega
        rw [hfuel, hwalk ref href, hpop, walkLoop, if_neg hhigh]
        dsimp only
        rw [hhier]
        dsimp only
        rw [hwalk' ref href, uncount_add, total_node, Option.map_map, Option.map_map]
        congr 1
        funext x
        simp only [Function.comp_apply, List.append_assoc]
      · rw [swept, ← settle_sweep_next]
        exact hσ'
      · rw [swept, ← settle_sweep_next]
        exact hmoveb.trans hmove'
      · simp only [List.cons_append, List.map_cons, List.map_append, ids] at hids hids' ⊢
        rw [← hids, ← hids', List.append_assoc]
      · intro x hx
        rw [List.cons_append, List.mem_cons, ← List.append_assoc, List.mem_append] at hx
        rcases hx with rfl | hx | hx
        · exact hin
        · exact hgood x hx
        · exact hgood' x hx

/-- `session_tree_delete` visits every node of the tree, once and while it is in the tree, and leaves
the stack as it was. -/
theorem sessionTreeDelete_eq {σ : TopicTree} {t : Tree} {free : List NodeIdx} (hσ : Holds σ t free)
    (m : ClMgmt) {st : NodeStack} (hroom : st.length + (ids t).length ≤ maxTopNodes) :
    ∃ σ' free' is, sessionTreeDelete usr (σ, m) st =
        some ((σ', uncount usr (total (subbed (clBmapGet m usr)) t) m), is, st) ∧
      Holds σ' (swept (clBmapGet m usr) t) free' ∧
      Moves σ σ' t (swept (clBmapGet m usr) t) free free' ∧ is.map Prod.fst = ids t ∧
      ∀ x ∈ is, InTree x := by
  unfold sessionTreeDelete
  dsimp only
  rw [hσ.root]
  cases ht : root t with
  | none =>
    obtain rfl := root_eq_none.mp ht
    exact ⟨σ, free, [], if_pos (Nat.le_refl _), hσ, .refl σ _ free, rfl, nofun⟩
  | some i =>
    have hpos := length_ids_pos ht
    have hplug : Holds σ (plug [] t) free := hσ
    obtain ⟨σ₁, m₁, p, is₁, st₁, σ₂, σ', free', is₂, k, hrun, hdel, hk, hwalk, hσ', hmove', hids,
      hgood⟩ :=
      @sessionWalk usr (clBmapGet m usr) t σ [] free i m loopBound st none hplug ht hroom rfl
        (Nat.le_succ_of_le (by omega))
    have hsettle : settle NodeData.useless [] (swept (clBmapGet m usr) t) = swept (clBmapGet m usr) t :=
      rfl
    have hhigh : ¬ ((i, (⟨[], []⟩ : NodeNote)) :: st).length ≤ st.length := by
      rw [List.length_cons]
      omega
    have hhier : sessionHierDelete usr (σ, m) (i, ⟨[], []⟩) st = some ((σ₂, m₁), is₁, st₁) := by
      rw [sessionHierDelete]
      dsimp only
      rw [hrun]
      dsimp only
      rw [hdel]
      rfl
    have hpush : push maxTopNodes st (some i) (⟨[], []⟩ : NodeNote) = some ((i, ⟨[], []⟩) :: st) :=
      if_pos (by omega)
    have hfuel : maxTopNodes = (maxTopNodes - k) + k := by omega
    have hdone : ∀ fuel a, walkLoop (sessionHierDelete usr) st.length fuel a st =
        some (a, ([] : List (NodeIdx × TopicTree)), st) := by
      intro fuel a
      cases fuel <;> exact if_pos (Nat.le_refl _)
    refine ⟨σ', free', is₁ ++ is₂, ?_, hsettle ▸ hσ', hsettle ▸ hmove', hids, hgood⟩
    rw [walkTree, hpush]
    dsimp only
    rw [walkLoop, if_neg hhigh]
    dsimp only
    rw [hhier]
    dsimp only
    rw [hfuel, hwalk st.length (Nat.le_refl _), hdone]
    simp

end Walk

end SimpleLink.Server
