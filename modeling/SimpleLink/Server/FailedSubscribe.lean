import SimpleLink.Server.CoreSteps

/-!
# SUBSCRIBE entries that fail (`server_core.c`)

The failure code should leave all subscriptions, enrolments and retained messages
as they were. It does, unless `topic_node_create` fails after it has taken a node
from the pool, which loses the tree, or the leaf of `x/#` cannot be created after
that of `x`: then `node_delete` takes off the leaf of `x` with all that others
have there, or does not find it at the end of its row and leaves it changed.
-/

namespace SimpleLink.Server

open Lib LinkTree

def entryAt (σ : TopicTree) (topic : List UInt8) : TopicEntry :=
  match leafNodeFind σ topic with
  | some (some i) => (σ.nodes i).val.entry
  | _ => .blank

def Bare (σ : TopicTree) : Prop := ∀ topic, entryAt σ topic = .blank

/-- `topic_node_create` fails and takes the tree away. -/
def LosesTree (σ : TopicTree) (topic : List UInt8) : Prop :=
  ∃ σ', topicNodeCreate σ topic = some (none, σ') ∧ σ'.rootNode ≠ σ.rootNode

/-- The leaf of the parent is taken off again and there was nothing at it, or it stays as it was. -/
def RollbackKeeps (s s₁ : ServerCore) (parent : List UInt8) (leaf : NodeIdx) : Prop :=
  if canDeleteNode (s₁.tree.nodes leaf) then entryAt s.tree parent = .blank
  else entryAt s₁.tree parent = entryAt s.tree parent

def CreateKeeps (s : ServerCore) (parent top : List UInt8) (qid : MqttQos) (usr : ClIdx) : Prop :=
  if parent = [] then LosesTree s.tree top → Bare s.tree
  else (LosesTree s.tree parent → Bare s.tree) ∧
    ∀ leaf s₁, s.subNodeCreate parent qid usr = some (some leaf, s₁) →
      (LosesTree s₁.tree top → Bare s.tree) ∧
      (topicNodeCreate s₁.tree top = some (none, s₁.tree) → RollbackKeeps s s₁ parent leaf)

def RefusalKeeps (s : ServerCore) (usr : ClIdx) (topic : List UInt8) (qos : MqttQos) : Prop :=
  ∀ parent top a, subTargets (subTopic topic qos) = some (parent, top) →
    s.sendRetained usr (subTopic topic qos) qos = some a →
      CreateKeeps { s with cl := a.cl } parent top a.min usr

theorem entryAt_eq {σ : TopicTree} {t : Tree} {free : List NodeIdx} (hσ : TreeOk σ t free)
    (topic : List UInt8) : entryAt σ topic = tableOf t (levels topic) := by
  rw [entryAt, leafNodeFind_eq hσ.toHolds]
  cases hl : look NodeData.subtop t (levels topic) with
  | none => exact (table_none hl).symm
  | some p =>
    rw [table_look hl, ← hσ.look_val hl]
    rfl

section Create

variable {s : ServerCore} {t : Tree} {free : List NodeIdx} {parent top : List UInt8} {qid : MqttQos}
  {usr : ClIdx}

theorem CoreOk.entryAt (h : CoreOk s t free) (topic : List UInt8) :
    entryAt s.tree topic = tableOf t (levels topic) := entryAt_eq h.toTreeOk topic

theorem CoreOk.lost_keeps {s' : ServerCore} {free' : List NodeIdx} (h' : CoreOk s' .nil free')
    (s : ServerCore) :
    (∀ x, Server.entryAt s'.tree x = Server.entryAt s.tree x) ↔ Bare s.tree := by
  have hnil : ∀ x, Server.entryAt s'.tree x = .blank := fun x => h'.entryAt x
  exact forall_congr' fun x => by rw [hnil x, eq_comm]

theorem subNodeCreate_some {leaf : NodeIdx} {s' : ServerCore}
    (hrun : s.subNodeCreate top qid usr = some (some leaf, s')) :
    ∃ σ, topicNodeCreate s.tree top = some (some leaf, σ) := by
  unfold ServerCore.subNodeCreate at hrun
  split at hrun
  · cases hrun
  · cases hrun
  · rename_i σ he
    cases hrun
    exact ⟨σ, he⟩

theorem subNodeCreate_none {s' : ServerCore}
    (hrun : s.subNodeCreate top qid usr = some (none, s')) :
    topicNodeCreate s.tree top = some (none, s'.tree) := by
  unfold ServerCore.subNodeCreate at hrun
  split at hrun
  · cases hrun
  · rename_i σ he
    cases hrun
    exact he
  · cases hrun

theorem CoreOk.treeless_keeps (h : CoreOk s t free)
    (hrun : topicNodeCreate s.tree top = some (none, { s.tree with rootNode := none }))
    {s' : ServerCore} {free' : List NodeIdx} (h' : CoreOk s' .nil free') :
    (∀ x, Server.entryAt s'.tree x = Server.entryAt s.tree x) ↔
      (LosesTree s.tree top → Bare s.tree) := by
  rw [h'.lost_keeps s]
  refine ⟨fun hbare _ => hbare, fun hloses => ?_⟩
  by_cases hroot : s.tree.rootNode = none
  · have ht : t = .nil := root_eq_none.mp (h.root.symm.trans hroot)
    subst ht
    exact fun x => h.entryAt x
  · exact hloses ⟨_, hrun, fun heq => hroot heq.symm⟩

theorem not_losesTree {σ σ' : TopicTree} {leaf : NodeIdx}
    (hrun : topicNodeCreate σ top = some (some leaf, σ')) : ¬ LosesTree σ top := by
  rintro ⟨σ₁, hrun₁, -⟩
  cases hrun.symm.trans hrun₁

theorem losesTree_same {σ : TopicTree} (hrun : topicNodeCreate σ top = some (none, σ)) :
    ¬ LosesTree σ top := by
  rintro ⟨σ₁, hrun₁, hroot⟩
  cases hrun.symm.trans hrun₁
  exact hroot rfl

theorem CoreOk.single_keeps (h : CoreOk s t free) :
    ∃ ack s', s.wcNodeCreate none top qid usr = some (ack, s') ∧
      ((ack = none → ∀ x, Server.entryAt s'.tree x = Server.entryAt s.tree x) ↔
        (LosesTree s.tree top → Bare s.tree)) := by
  rw [ServerCore.wcNodeCreate]
  rcases h.subNodeCreate top qid usr with ⟨leaf, c, s₁, t₁, free₁, he, -⟩ | ⟨he, -⟩ | ⟨he, hlost, -⟩
  · rw [he]
    obtain ⟨σ, hcr⟩ := subNodeCreate_some he
    exact ⟨some qid, s₁, rfl, fun _ hl => absurd hl (not_losesTree hcr),
      fun _ hnone => absurd hnone (Option.some_ne_none qid)⟩
  · rw [he]
    have hno := losesTree_same (subNodeCreate_none he)
    exact ⟨none, s, rfl, fun _ hl => absurd hl hno, fun _ _ _ => rfl⟩
  · rw [he]
    have hkeep := h.treeless_keeps (subNodeCreate_none he) hlost
    exact ⟨none, _, rfl, ⟨fun hsame => hkeep.mp (hsame rfl), fun hl _ => hkeep.mpr hl⟩⟩

theorem CoreOk.second_keeps (h : CoreOk s t free) {s₁ : ServerCore} {t₁ : Tree}
    {free₁ : List NodeIdx} (h₁ : CoreOk s₁ t₁ free₁) {leaf : NodeIdx} {c : NodeData}
    {e : TopicEntry} (hrw : Rewrites t t₁ (levels parent) e)
    (hl : look NodeData.subtop t₁ (levels parent) = some (leaf, c)) :
    ∃ ack s', s₁.wcNodeCreate (some leaf) top qid usr = some (ack, s') ∧
      ((ack = none → ∀ x, Server.entryAt s'.tree x = Server.entryAt s.tree x) ↔
        (LosesTree s₁.tree top → Bare s.tree) ∧
        (topicNodeCreate s₁.tree top = some (none, s₁.tree) → RollbackKeeps s s₁ parent leaf)) := by
  have hroot : s₁.tree.rootNode ≠ none := by
    rw [h₁.root]
    intro hnil
    rw [root_eq_none.mp hnil] at hl
    cases hl
  rw [ServerCore.wcNodeCreate]
  rcases h₁.subNodeCreate top qid usr with ⟨leaf', c', s₂, t₂, free₂, he, -⟩ | ⟨he, -⟩ |
      ⟨he, hlost, -⟩
  · rw [he]
    obtain ⟨σ, hcr⟩ := subNodeCreate_some he
    refine ⟨some qid, s₂, rfl, fun _ => ⟨fun hloses => absurd hloses (not_losesTree hcr), ?_⟩,
      fun _ hnone => absurd hnone (Option.some_ne_none qid)⟩
    intro hnone
    cases hcr.symm.trans hnone
  · -- the pool is exhausted: the leaf of the parent is taken off again
    rw [he]
    have hcr := subNodeCreate_none he
    have hno := losesTree_same hcr
    refine ⟨none, _, rfl, ?_⟩
    have hgoal : (∀ x, Server.entryAt (nodeDelete s₁.tree leaf).2 x = Server.entryAt s.tree x) ↔
        RollbackKeeps s s₁ parent leaf := by
      unfold RollbackKeeps
      rcases h₁.toTreeOk.nodeDelete hl with ⟨hcan, t₂, h₂, -, hrw₂⟩ | ⟨hcan, hstop⟩
      · rw [if_pos hcan]
        have hentry : ∀ x, Server.entryAt (nodeDelete s₁.tree leaf).2 x =
            if levels x = levels parent then .blank else Server.entryAt s.tree x := by
          intro x
          rw [entryAt_eq h₂, h.entryAt, hrw₂.table, hrw.table, Function.update_idem,
            Function.update_apply]
        constructor
        · intro hsame
          rw [← hsame parent, hentry, if_pos rfl]
        · intro hblank x
          rw [hentry]
          split_ifs with hx
          · rw [levels_inj hx, hblank]
          · rfl
      · rw [hcan, if_neg Bool.false_ne_true, hstop]
        constructor
        · exact fun hsame => hsame parent
        · intro hparent x
          by_cases hx : x = parent
          · rw [hx, hparent]
          · have hne : levels x ≠ levels parent := fun hlv => hx (levels_inj hlv)
            rw [h₁.entryAt, h.entryAt, hrw.table, Function.update_of_ne hne]
    constructor
    · exact fun hsame => ⟨fun hloses => absurd hloses hno, fun _ => hgoal.mp (hsame rfl)⟩
    · exact fun hkeep _ => hgoal.mpr (hkeep.2 hcr)
  · rw [he]
    have hcr := subNodeCreate_none he
    have hloses : LosesTree s₁.tree top := ⟨_, hcr, fun heq => hroot heq.symm⟩
    have hout : leaf ∉ ids (.nil : Tree) ++ free₁ := fun hmem =>
      List.disjoint_of_nodup_append h₁.nodup (mem_ids_of_look hl) hmem
    obtain ⟨t', free', hσ', ht', -⟩ := hlost.toTreeOk.deleteBeside hout
    obtain rfl : t' = .nil := ht'.elim id id
    have h' := hlost.setTree hσ'
    have hkeep := h'.lost_keeps s
    refine ⟨none, _, rfl, fun hsame => ⟨fun _ => hkeep.mp (hsame rfl), fun hnone => ?_⟩,
      fun hk _ => hkeep.mpr (hk.1 hloses)⟩
    exact absurd hloses (losesTree_same hnone)

theorem CoreOk.mlWcNodesCreate_keeps (h : CoreOk s t free) :
    ∃ ack s', s.mlWcNodesCreate parent top qid usr = some (ack, s') ∧
      ((ack = none → ∀ x, Server.entryAt s'.tree x = Server.entryAt s.tree x) ↔
        CreateKeeps s parent top qid usr) := by
  unfold ServerCore.mlWcNodesCreate CreateKeeps
  by_cases hparent : parent = []
  · rw [if_pos hparent, if_pos hparent]
    exact h.single_keeps
  · rw [if_neg hparent, if_neg hparent]
    rcases h.subNodeCreate parent qid usr with
        ⟨leaf, c, s₁, t₁, free₁, he, -, h₁, -, hrw, hl, -⟩ | ⟨he, -⟩ | ⟨he, hlost, -⟩
    · rw [he]
      obtain ⟨σ, hcr⟩ := subNodeCreate_some he
      obtain ⟨ack, s', hrun, hiff⟩ := @CoreOk.second_keeps s t free parent top qid usr h s₁ t₁ free₁
        h₁ leaf c _ hrw hl
      refine ⟨ack, s', hrun, hiff.trans ⟨fun hk => ⟨fun hl => absurd hl (not_losesTree hcr), ?_⟩,
        fun hk => hk.2 leaf s₁ rfl⟩⟩
      intro leaf' s₁' heq
      cases heq
      exact hk
    · rw [he]
      have hno := losesTree_same (subNodeCreate_none he)
      refine ⟨none, s, rfl, fun _ => ⟨fun hl => absurd hl hno, nofun⟩, fun _ _ _ => rfl⟩
    · rw [he]
      have hkeep := h.treeless_keeps (subNodeCreate_none he) hlost
      exact ⟨none, _, rfl, ⟨fun hsame => ⟨hkeep.mp (hsame rfl), nofun⟩, fun hl _ => hkeep.mpr hl.1⟩⟩

end Create

/-- An entry of a SUBSCRIBE is answered; where the answer is the failure code, every entry of the
table is as it was exactly when no creation went wrong. -/
theorem failed_subscribe {s : ServerCore} {t : Tree} {free : List NodeIdx} (h : CoreOk s t free)
    (usr : ClIdx) (topic : List UInt8) (qos : MqttQos) :
    ∃ ack s', s.procSubTopic usr topic qos = some (ack, s') ∧
      ((ack = none → ∀ x, entryAt s'.tree x = entryAt s.tree x) ↔
        RefusalKeeps s usr topic qos) := by
  obtain ⟨hnone, hsome⟩ := h.procSubTopic_eq usr topic qos
  unfold RefusalKeeps
  cases ht : subTargets (subTopic topic qos) with
  | none => exact ⟨none, s, hnone ht, fun _ => nofun, fun _ _ _ => rfl⟩
  | some x =>
    obtain ⟨parent, top⟩ := x
    obtain ⟨a, ha, happ, he⟩ := hsome parent top ht
    obtain ⟨ack, s', hrun, hiff⟩ :=
      @CoreOk.mlWcNodesCreate_keeps { s with cl := a.cl } t free parent top a.min usr (h.sent happ)
    refine ⟨ack, s', he.trans hrun, hiff.trans ⟨fun hk => ?_, fun hk => hk parent top a rfl ha⟩⟩
    intro parent' top' a' heq ha'
    cases heq
    cases ha.symm.trans ha'
    exact hk

/-- A plug-in is enrolled on `a` and stays enrolled when `#b` of a client is refused. -/
theorem failed_subscribe_first : ∃ s rs s',
    runs coreStep (serverCoreInit allOk allOk) [.appRegister, .enroll 0 [0x61] .qos1,
      .connect ⟨7, true, some [0x78], none, true⟩, .connack 0 true] = some (s, rs) ∧
    s.procSubTopic 0 [hash, 0x62] .qos1 = some (none, s') ∧ (entryAt s'.tree [0x61]).pgMap = 0xFD := by
  have heval : ((runs coreStep (serverCoreInit allOk allOk)
      [.appRegister, .enroll 0 [0x61] .qos1, .connect ⟨7, true, some [0x78], none, true⟩,
        .connack 0 true]).bind fun x =>
        (x.1.procSubTopic 0 [hash, 0x62] .qos1).map fun y =>
          (y.1, (entryAt x.1.tree [0x61]).pgMap)) = some (none, 0xFD) := by
    decide +kernel
  obtain ⟨⟨s, rs⟩, hrun, hsub⟩ := Option.bind_eq_some_iff.mp heval
  obtain ⟨⟨ack, s'⟩, he, hpg⟩ := Option.map_eq_some_iff.mp hsub
  obtain ⟨rfl, hbefore⟩ := Prod.mk.inj hpg
  obtain ⟨t, free, h⟩ := runs_good hrun
  obtain ⟨ack, s'', hrun', hiff⟩ := failed_subscribe h 0 [hash, 0x62] .qos1
  obtain ⟨rfl, rfl⟩ := Prod.mk.inj (Option.some.inj (hrun'.symm.trans he))
  refine ⟨s, rs, _, hrun, he, ?_⟩
  rw [hiff.2 (fun _ _ _ ht => by cases ht) rfl]
  exact hbefore

/-- A plug-in is enrolled on `a`; the filter of 32 characters of a client is refused, and the plug-in
is enrolled no longer. -/
theorem failed_subscribe_loses : ¬ ∀ (s s' : ServerCore) (usr : ClIdx) (topic : List UInt8)
    (qos : MqttQos), CoreGood s → s.procSubTopic usr topic qos = some (none, s') →
      ∀ x, entryAt s'.tree x = entryAt s.tree x := by
  intro h
  have heval : ((runs coreStep (serverCoreInit allOk allOk)
      [.appRegister, .enroll 0 [0x61] .qos1, .connect ⟨7, true, some [0x78], none, true⟩,
        .connack 0 true]).bind fun x =>
        (x.1.procSubTopic 0 (List.replicate 32 0x62) .qos0).map fun y =>
          (y.1, (entryAt x.1.tree [0x61]).pgMap, (entryAt y.2.tree [0x61]).pgMap)) =
        some (none, 0xFD, 0xFF) := by
    decide +kernel
  obtain ⟨⟨s, rs⟩, hrun, hsub⟩ := Option.bind_eq_some_iff.mp heval
  obtain ⟨⟨ack, s'⟩, he, hpg⟩ := Option.map_eq_some_iff.mp hsub
  dsimp only at he hpg
  obtain ⟨rfl, hbefore, hafter⟩ : ack = none ∧ (entryAt s.tree [0x61]).pgMap = 0xFD ∧
      (entryAt s'.tree [0x61]).pgMap = 0xFF := by
    simpa using hpg
  have hsame := h s s' 0 _ .qos0 (runs_good hrun) he [0x61]
  rw [hsame, hbefore] at hafter
  cases hafter

end SimpleLink.Server
