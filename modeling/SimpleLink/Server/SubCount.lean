import SimpleLink.Server.Losses

/-!
# The count of subscriptions (`client_mgmt.c`, `server_core.c`)

`n_sub` should be the number of entries of the tree, a node and a QoS, that have
the client. `SUB_node_create` adds one to it also where the client was in a map of
the node already, and what takes entries off without `cl_sub_count_del` leaves it
too high: the deletion of a session before its client is connected, the parent of
`x/#` that is taken off again, a tree that is lost. In a run without these
`n_sub` is right, and `has_session_data` with it.
-/

namespace SimpleLink.Server

open Lib LinkTree

/-- The nodes from one on: itself, those below it, those after it. -/
def nodesFrom (nodes : NodeIdx → TopicNode) : Nat → Option NodeIdx → List NodeIdx
  | 0, _ => []
  | _, none => []
  | fuel + 1, some k =>
    k :: (nodesFrom nodes fuel (nodes k).dnHier ++ nodesFrom nodes fuel (nodes k).dnNhbr)

def entriesOf (i : ClIdx) (e : TopicEntry) : Nat :=
  [MqttQos.qos0, .qos1, .qos2].countP fun q => bit (e.clMap q) i

def subEntries (σ : TopicTree) (i : ClIdx) : Nat :=
  ((nodesFrom σ.nodes maxTopNodes σ.rootNode).map fun k => entriesOf i (σ.nodes k).val.entry).sum

/-! ## Entries -/

theorem entriesOf_congr {i : ClIdx} {e e' : TopicEntry}
    (h : ∀ q, bit (e'.clMap q) i = bit (e.clMap q) i) : entriesOf i e' = entriesOf i e := by
  unfold entriesOf
  simp only [h]

theorem entriesOf_eq_zero {i : ClIdx} {e : TopicEntry} :
    entriesOf i e = 0 ↔ ∀ q, bit (e.clMap q) i = false := by
  rw [entriesOf, List.countP_eq_zero]
  constructor
  · exact fun h q => Bool.eq_false_iff.mpr (h q (by cases q <;> simp))
  · exact fun h q _ => Bool.eq_false_iff.mp (h q)

theorem entriesOf_one {i : ClIdx} {e : TopicEntry} {q : MqttQos}
    (h : ∀ q', bit (e.clMap q') i = decide (q' = q)) : entriesOf i e = 1 := by
  unfold entriesOf
  simp only [h]
  cases q <;> rfl

theorem entriesOf_le (i : ClIdx) (e : TopicEntry) : entriesOf i e ≤ 3 := List.countP_le_length

theorem entriesOf_blank (i : ClIdx) : entriesOf i .blank = 0 :=
  entriesOf_eq_zero.mpr fun _ => bit_zero _

theorem entriesOf_subscribed (e : TopicEntry) (qid : MqttQos) (usr i : ClIdx) :
    entriesOf i (e.subscribed qid (clBmap usr)) = if i = usr then 1 else entriesOf i e := by
  have hbit := bit_subscribed e qid usr i
  split_ifs with hi
  · refine entriesOf_one (q := qid) fun q => ?_
    rw [hbit, if_pos hi]
  · refine entriesOf_congr fun q => ?_
    rw [hbit, if_neg hi]

theorem entriesOf_unmap {c : NodeData} (hc : c.OneQos) (usr i : ClIdx) :
    entriesOf i (unmapFirst (clBmap usr) c).entry = if i = usr then 0 else entriesOf i c.entry := by
  split_ifs with hi
  · subst hi
    exact entriesOf_eq_zero.mpr (unmapFirst_clear hc i)
  · refine entriesOf_congr fun q => ?_
    have hentry : ∀ d : NodeData, d.entry.clMap = d.clMap := fun _ => rfl
    rw [hentry, hentry, unmapFirst]
    cases qosOf c (clBmap usr) with
    | none => rfl
    | some q₁ =>
      dsimp only
      rw [Function.update_apply]
      split_ifs with hq
      · rw [bit_clear_clBmap, hq]
        simp [hi]
      · rfl

theorem entriesOf_entry {c : NodeData} (hc : c.OneQos) (i : ClIdx) :
    entriesOf i c.entry = subbed (clBmap i) c := by
  have hbit : ∀ q, (c.clMap q &&& clBmap i != 0) = bit (c.clMap q) i := fun _ => rfl
  rw [subbed]
  cases hq : qosOf c (clBmap i) with
  | none =>
    rw [if_pos rfl, entriesOf_eq_zero]
    intro q
    have hnone := List.find?_eq_none.mp hq q (by cases q <;> simp)
    rw [hbit] at hnone
    exact Bool.eq_false_iff.mpr hnone
  | some q₁ =>
    have hsome := List.find?_some hq
    rw [hbit] at hsome
    rw [if_neg (Option.some_ne_none q₁)]
    refine entriesOf_one (q := q₁) fun q => ?_
    by_cases hqq : q = q₁
    · subst hqq
      rw [decide_eq_true rfl]
      exact hsome
    · rw [decide_eq_false hqq]
      exact Bool.eq_false_iff.mpr fun h => hqq (hc i q q₁ h hsome)

theorem sum_nodesFrom {nodes : NodeIdx → TopicNode} (w : TopicEntry → Nat) {t : Tree} :
    ∀ {un uh : Option NodeIdx} {fuel : Nat}, Rep nodes un uh t → (ids t).length ≤ fuel →
      ((nodesFrom nodes fuel (root t)).map fun k => w (nodes k).val.entry).sum = weigh w t := by
  induction t with
  | nil =>
    intro un uh fuel _ _
    cases fuel <;> rfl
  | node k c h n ihh ihn =>
    intro un uh fuel hrep hfuel
    rw [ids, List.length_cons, List.length_append] at hfuel
    obtain ⟨fuel, rfl⟩ : ∃ f, fuel = f + 1 := ⟨fuel - 1, by omega⟩
    obtain ⟨hcell, hrh, hrn⟩ := hrep
    have hh := @ihh _ _ fuel hrh (by omega)
    have hn := @ihn _ _ fuel hrn (by omega)
    rw [root, nodesFrom, List.map_cons, List.sum_cons, List.map_append, List.sum_append, hcell]
    dsimp only
    rw [hh, hn, weigh, weigh, weigh, total_node, Nat.add_assoc]

theorem subEntries_eq {σ : TopicTree} {t : Tree} {free : List NodeIdx} (hσ : Holds σ t free)
    (i : ClIdx) : subEntries σ i = weigh (entriesOf i) t := by
  rw [subEntries, hσ.root]
  exact sum_nodesFrom (entriesOf i) hσ.rep (Nat.le_of_add_right_le hσ.length_le)

theorem weigh_entriesOf_lt {s : ServerCore} {t : Tree} {free : List NodeIdx} (h : CoreOk s t free)
    (i : ClIdx) : weigh (entriesOf i) t < 2 ^ 32 := by
  have hsum : ∀ t : Tree, weigh (entriesOf i) t ≤ 3 * (ids t).length := by
    intro t
    induction t with
    | nil => exact Nat.le_refl _
    | node k c h n ihh ihn =>
      have hc := entriesOf_le i c.entry
      simp only [weigh, total_node, ids, List.length_cons, List.length_append] at ihh ihn ⊢
      omega
  calc weigh (entriesOf i) t ≤ 3 * (ids t).length := hsum t
    _ ≤ 3 * maxTopNodes := Nat.mul_le_mul_left 3 (Nat.le_of_add_right_le h.length_le)
    _ < 2 ^ 32 := by decide

/-! ## What is counted -/

/-- The counts are right; a client is connected or assigned, and clean sessions are connected. -/
structure Counted (m : ClMgmt) (t : Tree) : Prop where
  nSub : ∀ i, (m.users i).nSub = weigh (entriesOf i) t
  away : ∀ i, (m.users i).assigned = true → (m.users i).connected = false
  clean : ∀ i, (m.users i).cleanSession = true → (m.users i).connected = true

theorem counted_init (sendOk mallocOk : Nat → Bool) : Counted (clMgmtInit sendOk mallocOk) .nil where
  nSub _ := rfl
  away _ h := by cases h
  clean _ h := by cases h

section Counted

variable {m m' : ClMgmt} {t t' : Tree} {usr : ClIdx}

theorem Counted.weights (h : Counted m t)
    (ht : ∀ i, weigh (entriesOf i) t' = weigh (entriesOf i) t) : Counted m t' where
  nSub i := (h.nSub i).trans (ht i).symm
  away := h.away
  clean := h.clean

theorem Counted.same (h : Counted m t) (ht : SameTable t t') : Counted m t' :=
  h.weights fun i => ht.weight _ (entriesOf_blank i)

theorem Counted.onlyData (h : Counted m t) (ht : OnlyData t t') : Counted m t' :=
  h.weights fun i => ht.weight _ (entriesOf_blank i) fun _ _ => rfl

theorem Counted.queues (h : Counted m t) (hq : QueuesOnly m m') : Counted m' t := by
  constructor
  · intro i
    obtain ⟨rx, tx, hu⟩ := hq i
    rw [hu]
    exact h.nSub i
  · intro i
    obtain ⟨rx, tx, hu⟩ := hq i
    rw [hu]
    exact h.away i
  · intro i
    obtain ⟨rx, tx, hu⟩ := hq i
    rw [hu]
    exact h.clean i

theorem Counted.setUser (h : Counted m t) {u : ClientUsr}
    (ht : ∀ i, i ≠ usr → weigh (entriesOf i) t' = weigh (entriesOf i) t)
    (hn : u.nSub = weigh (entriesOf usr) t') (haway : u.assigned = true → u.connected = false)
    (hclean : u.cleanSession = true → u.connected = true) : Counted (m.setUser usr u) t' := by
  constructor
  · intro i
    by_cases hi : i = usr
    · subst hi
      rw [setUser_users_self, hn]
    · rw [setUser_users_ne _ _ hi, ht i hi, h.nSub]
  · intro i
    by_cases hi : i = usr
    · subst hi
      rw [setUser_users_self]
      exact haway
    · rw [setUser_users_ne _ _ hi]
      exact h.away i
  · intro i
    by_cases hi : i = usr
    · subst hi
      rw [setUser_users_self]
      exact hclean
    · rw [setUser_users_ne _ _ hi]
      exact h.clean i

theorem Counted.lost (h : Counted m t) (hnone : ∀ i, weigh (entriesOf i) t = 0) : Counted m .nil :=
  h.weights fun i => (hnone i).symm

theorem clBmapGet_busy {i : ClIdx}
    (hi : (m.users i).connected = true ∨ (m.users i).assigned = true) : clBmapGet m i = clBmap i := by
  have hfree : (m.users i).isFree = false := by
    unfold ClientUsr.isFree ClientUsr.flagless
    rcases hi with hi | hi
    · simp [hi]
    · simp [hi]
  rw [clBmapGet, hfree]
  rfl

theorem Counted.subscribe (h : Counted m t) (hu : (m.users usr).connected = true)
    {q : List (List UInt8)} {qid : MqttQos}
    (hrw : Rewrites t t' q ((tableOf t q).subscribed qid (clBmapGet m usr)))
    (hnew : entriesOf usr (tableOf t q) = 0) (hlt : weigh (entriesOf usr) t' < 2 ^ 32) :
    Counted (clSubCountAdd m usr) t' := by
  rw [clBmapGet_busy (.inl hu)] at hrw
  have hweight : ∀ i, weigh (entriesOf i) t' =
      weigh (entriesOf i) t + if i = usr then 1 else 0 := by
    intro i
    have hi := hrw.weight (entriesOf i) (entriesOf_blank i)
    rw [entriesOf_subscribed] at hi
    split_ifs at hi ⊢ with hiu
    · rw [← hiu] at hnew
      omega
    · omega
  rw [clSubCountAdd, if_pos hu]
  have hself := hweight usr
  rw [if_pos rfl] at hself
  refine h.setUser (fun i hi => ?_) ?_ (h.away usr) (h.clean usr)
  · rw [hweight, if_neg hi, Nat.add_zero]
  · dsimp only
    rw [h.nSub, ← hself, Nat.mod_eq_of_lt hlt]

/-- A count goes down `k` times. -/
theorem uncount_users (hu : (m.users usr).connected = true) {k : Nat}
    (hk : k ≤ (m.users usr).nSub) (hlt : (m.users usr).nSub < 2 ^ 32) :
    uncount usr k m = m.setUser usr { m.users usr with nSub := (m.users usr).nSub - k } := by
  induction k generalizing m with
  | zero =>
    have hsame : m.setUser usr (m.users usr) = m := by
      rw [ClMgmt.setUser, Function.update_eq_self]
    exact hsame.symm
  | succ k ih =>
    have hdel : clSubCountDel m usr =
        m.setUser usr { m.users usr with nSub := (m.users usr).nSub - 1 } := by
      have hpred : ((m.users usr).nSub + (2 ^ 32 - 1)) % 2 ^ 32 = (m.users usr).nSub - 1 := by
        omega
      rw [clSubCountDel, if_pos hu, hpred]
    rw [uncount, hdel, ih]
    · rw [setUser_setUser, setUser_users_self]
      dsimp only
      rw [Nat.sub_sub, Nat.add_comm 1 k]
    · rw [setUser_users_self]
      exact hu
    · rw [setUser_users_self]
      exact Nat.le_sub_one_of_lt hk
    · rw [setUser_users_self]
      exact Nat.lt_of_le_of_lt (Nat.sub_le _ _) hlt

theorem uncount_away (hu : (m.users usr).connected = false) (k : Nat) : uncount usr k m = m := by
  induction k with
  | zero => rfl
  | succ k ih =>
    have hdel : clSubCountDel m usr = m := by
      rw [clSubCountDel, hu, if_neg Bool.false_ne_true]
    rw [uncount, hdel, ih]

theorem Counted.unsubscribe (h : Counted m t) (hu : (m.users usr).connected = true)
    {q : List (List UInt8)} {k : NodeIdx} {c : NodeData}
    (hl : look NodeData.subtop t q = some (k, c)) (hone : c.OneQos)
    (hq : qosOf c (clBmapGet m usr) ≠ none)
    (hrw : Rewrites t t' q (unmapFirst (clBmapGet m usr) c).entry)
    (hlt : weigh (entriesOf usr) t < 2 ^ 32) : Counted (clSubCountDel m usr) t' := by
  rw [clBmapGet_busy (.inl hu)] at hrw hq
  have hold : entriesOf usr c.entry = 1 := by
    rw [entriesOf_entry hone, subbed, if_neg hq]
  have hweight : ∀ i, weigh (entriesOf i) t' + (if i = usr then 1 else 0) =
      weigh (entriesOf i) t := by
    intro i
    have hi := hrw.weight (entriesOf i) (entriesOf_blank i)
    rw [entriesOf_unmap hone, table_look hl] at hi
    split_ifs at hi ⊢ with hiu
    · rw [← hiu] at hold
      omega
    · omega
  have hself := hweight usr
  rw [if_pos rfl] at hself
  have hn := h.nSub usr
  have hcount := @uncount_users m usr hu 1 (by omega) (by omega)
  rw [uncount, uncount] at hcount
  rw [hcount]
  refine h.setUser (fun i hi => ?_) ?_ (h.away usr) (h.clean usr)
  · have hw := hweight i
    rwa [if_neg hi, Nat.add_zero] at hw
  · dsimp only
    omega

theorem Counted.sweep (h : Counted m t) (hone : ∀ c ∈ vals t, c.OneQos)
    (hu : (m.users usr).connected = true ∨ (m.users usr).assigned = true)
    (hn : (m.users usr).connected = true ∨ (m.users usr).nSub = 0)
    (hlt : weigh (entriesOf usr) t < 2 ^ 32) :
    uncount usr (total (subbed (clBmapGet m usr)) t) m =
        m.setUser usr { m.users usr with nSub := 0 } ∧
      Counted (m.setUser usr { m.users usr with nSub := 0 }) (swept (clBmapGet m usr) t) := by
  rw [clBmapGet_busy hu]
  have htotal : total (subbed (clBmap usr)) t = (m.users usr).nSub := by
    rw [h.nSub, weigh, total, total, List.map_congr_left fun c hc => entriesOf_entry (hone c hc) usr]
  have hsweep : ∀ i, weigh (entriesOf i) (swept (clBmap usr) t) =
      if i = usr then 0 else weigh (entriesOf i) t := by
    intro i
    have hgone : ∀ c : NodeData, c.useless = true → entriesOf i c.entry = 0 := by
      intro c hc
      rw [entry_useless hc, entriesOf_blank]
    have hmap : weigh (entriesOf i) (swept (clBmap usr) t) =
        total (fun c => if i = usr then 0 else entriesOf i c.entry) t := by
      rw [weigh, swept, total_sweep hgone, total, total,
        List.map_congr_left fun c hc => entriesOf_unmap (hone c hc) usr i]
    rw [hmap]
    split_ifs
    · exact total_eq_zero.mpr fun _ _ => rfl
    · rfl
  refine ⟨?_, h.setUser (fun i hi => ?_) ?_ (h.away usr) (h.clean usr)⟩
  · rw [htotal]
    by_cases hc : (m.users usr).connected = true
    · rw [uncount_users hc (Nat.le_refl _) (h.nSub usr ▸ hlt), Nat.sub_self]
    · have hzero := hn.resolve_left hc
      have hsame : m.setUser usr (m.users usr) = m := by
        rw [ClMgmt.setUser, Function.update_eq_self]
      rw [uncount_away (Bool.eq_false_iff.mpr hc)]
      rw [← hzero]
      exact hsame.symm
  · rw [hsweep, if_neg hi]
  · rw [hsweep, if_pos rfl]

end Counted

/-! ## When the counts stay right -/

/-- The tree is not lost, unless nobody has subscribed. -/
def LossKeeps (σ : TopicTree) (topic : List UInt8) : Prop :=
  LosesTree σ topic → ∀ i, subEntries σ i = 0

def NewSub (s : ServerCore) (topic : List UInt8) (usr : ClIdx) : Prop :=
  entriesOf usr (entryAt s.tree topic) = 0 ∧ LossKeeps s.tree topic

/-- What is created is new for the client, and the parent of `x/#` is not taken off again. -/
def CreateCounted (s : ServerCore) (parent top : List UInt8) (qid : MqttQos) (usr : ClIdx) : Prop :=
  if parent = [] then NewSub s top usr
  else NewSub s parent usr ∧
    ∀ leaf s₁, s.subNodeCreate parent qid usr = some (some leaf, s₁) →
      NewSub s₁ top usr ∧
      (topicNodeCreate s₁.tree top = some (none, s₁.tree) →
        canDeleteNode (s₁.tree.nodes leaf) = false)

def SubTopicCounted (s : ServerCore) (usr : ClIdx) (topic : List UInt8) (qos : MqttQos) : Prop :=
  ∀ parent top a, subTargets (subTopic topic qos) = some (parent, top) →
    s.sendRetained usr (subTopic topic qos) qos = some a →
      CreateCounted { s with cl := a.cl } parent top a.min usr

def PublishCounted (s : ServerCore) (usr : Option ClIdx) (topic : List UInt8) (msgId : UInt8)
    (qos : MqttQos) (retain : Bool) : Prop :=
  ∀ buf m, pubTopicRead topic = some buf → retain = true →
    pubTracked s.cl usr msgId qos = some (true, m) → LossKeeps s.tree (procForwardSlash buf)

/-- The node of a will is not the top of a lost tree, unless nobody has subscribed. -/
def WillCounted (s : ServerCore) (usr : ClIdx) : Prop :=
  ∀ (leaf : NodeIdx) σ, (s.cl.users usr).will = some leaf.val →
    (s.tree.nodes leaf).val.willCl = some usr →
    tryNodeDelete (s.tree.setVal leaf
      { nodeDataReset (s.tree.nodes leaf).val with willCl := none }) leaf = some σ →
    σ.rootNode = none → ∀ i, subEntries s.tree i = 0

def CountKept (s : ServerCore) : CoreOp → Prop
  | .subscribe i topics => (s.cl.users i).connected = true → SubMsgMeets (fun s => SubTopicCounted s i) i topics s
  | .publish i topic _ msgId qos retain =>
    (s.cl.users i).connected = true → PublishCounted s (some i) topic msgId qos retain
  | .appPublish topic _ qos retain => PublishCounted s none topic 0 qos retain
  | .connect args =>
    args.admitted = true → ∀ will, args.will.filter (·.topic ≠ []) = some will →
      LossKeeps s.tree (cStr will.topic)
  | .connack i cleanSession =>
    (s.cl.users i).assigned = true → cleanSession = true → subEntries s.tree i = 0
  | .netClose i _ => WillCounted s i
  | .enroll pg topic _ =>
    s.inUse pg = true → topic.length + 1 ≤ wbufLen → LossKeeps s.tree (cStr topic)
  | .unSubscribe .. | .ack .. | .appRegister | .cancel .. => True

/-! ## Steps -/

structure CountOk (s : ServerCore) (t : Tree) (free : List NodeIdx) : Prop
    extends CoreOk s t free where
  counted : Counted s.cl t

def CountGood (s : ServerCore) : Prop := ∃ t free, CountOk s t free

section Steps

variable {s s' : ServerCore} {t : Tree} {free : List NodeIdx} {usr : ClIdx}

theorem CountOk.good (h : CountOk s t free) : CountGood s := ⟨t, free, h⟩

theorem CoreOk.subEntries (h : CoreOk s t free) (i : ClIdx) :
    subEntries s.tree i = weigh (entriesOf i) t := subEntries_eq h.toHolds i

theorem CoreOk.lossKeeps (h : CoreOk s t free) {topic : List UInt8}
    (hrun : topicNodeCreate s.tree topic = some (none, { s.tree with rootNode := none }))
    (hk : LossKeeps s.tree topic) (i : ClIdx) : weigh (entriesOf i) t = 0 := by
  by_cases hroot : s.tree.rootNode = none
  · have ht : t = .nil := root_eq_none.mp (h.root.symm.trans hroot)
    subst ht
    rfl
  · rw [← h.subEntries]
    exact hk ⟨_, hrun, fun heq => hroot heq.symm⟩ i

theorem clSubCountAdd_connected (m : ClMgmt) (i : ClIdx) :
    ((clSubCountAdd m i).users i).connected = (m.users i).connected := by
  rw [clSubCountAdd]
  split_ifs
  · rw [setUser_users_self]
  · rfl

theorem clSubCountDel_connected (m : ClMgmt) (i : ClIdx) :
    ((clSubCountDel m i).users i).connected = (m.users i).connected := by
  rw [clSubCountDel]
  split_ifs
  · rw [setUser_users_self]
  · rfl

theorem CountOk.subNodeCreate (h : CountOk s t free) (hu : (s.cl.users usr).connected = true)
    {topSUB : List UInt8} {qid : MqttQos} (hnew : NewSub s topSUB usr) {o : Option NodeIdx}
    (hrun : s.subNodeCreate topSUB qid usr = some (o, s')) :
    ∃ t' free', CountOk s' t' free' ∧ (s'.cl.users usr).connected = true ∧
      ∀ leaf, o = some leaf → Server.subEntries s'.tree usr ≠ 0 := by
  obtain ⟨hzero, hloss⟩ := hnew
  rcases h.toCoreOk.subNodeCreate topSUB qid usr with
      ⟨leaf, c, s₁, t₁, free₁, he, hs₁, h₁, -, hrw, -⟩ | ⟨he, -⟩ | ⟨he, hlost, -⟩
  · cases he.symm.trans hrun
    rw [h.toCoreOk.entryAt] at hzero
    have hcounted : Counted s'.cl t₁ := by
      rw [hs₁]
      exact h.counted.subscribe hu hrw hzero (weigh_entriesOf_lt h₁ usr)
    refine ⟨t₁, free₁, ⟨h₁, hcounted⟩, ?_, fun _ _ => ?_⟩
    · rw [hs₁, clSubCountAdd_connected, hu]
    · have hweight := hrw.weight (entriesOf usr) (entriesOf_blank usr)
      rw [clBmapGet_busy (.inl hu), entriesOf_subscribed, if_pos rfl, hzero] at hweight
      rw [h₁.subEntries]
      omega
  · cases he.symm.trans hrun
    exact ⟨t, free, h, hu, nofun⟩
  · cases he.symm.trans hrun
    have hnone := h.toCoreOk.lossKeeps (subNodeCreate_none he) hloss
    exact ⟨.nil, free, ⟨hlost, h.counted.lost hnone⟩, hu, nofun⟩

theorem CountOk.wcNodeCreate (h : CountOk s t free) (hu : (s.cl.users usr).connected = true)
    {parentLeaf : Option NodeIdx} {topSUB : List UInt8} {qid : MqttQos} (hnew : NewSub s topSUB usr)
    (hleaf : ∀ leaf, parentLeaf = some leaf → Server.subEntries s.tree usr ≠ 0 ∧
      (topicNodeCreate s.tree topSUB = some (none, s.tree) →
        canDeleteNode (s.tree.nodes leaf) = false))
    {r : SubAck} (hrun : s.wcNodeCreate parentLeaf topSUB qid usr = some (r, s')) :
    CountGood s' ∧ (s'.cl.users usr).connected = true := by
  rw [ServerCore.wcNodeCreate] at hrun
  cases he : s.subNodeCreate topSUB qid usr with
  | none =>
    rw [he] at hrun
    cases hrun
  | some x =>
    obtain ⟨o, s₁⟩ := x
    rw [he] at hrun
    obtain ⟨t₁, free₁, h₁, hu₁, -⟩ := h.subNodeCreate hu hnew he
    cases o with
    | some leaf =>
      cases hrun
      exact ⟨h₁.good, hu₁⟩
    | none =>
      cases parentLeaf with
      | none =>
        cases hrun
        exact ⟨h₁.good, hu₁⟩
      | some leaf =>
        obtain ⟨hsub, hstop⟩ := hleaf leaf rfl
        have hcr := subNodeCreate_none he
        rcases h.toCoreOk.subNodeCreate topSUB qid usr with ⟨_, _, _, _, _, he', -⟩ | ⟨he', -⟩ |
            ⟨he', -⟩
        · cases he.symm.trans he'
        · cases he.symm.trans he'
          have hkeep : nodeDelete s.tree leaf = (none, s.tree) := by
            rw [nodeDelete, if_neg (Bool.eq_false_iff.mp (hstop hcr))]
          dsimp only at hrun
          rw [hkeep] at hrun
          cases hrun
          exact ⟨h.good, hu⟩
        · have hnone := h.toCoreOk.lossKeeps (subNodeCreate_none he') hnew.2 usr
          rw [← h.toCoreOk.subEntries] at hnone
          exact absurd hnone hsub

theorem CountOk.mlWcNodesCreate (h : CountOk s t free) (hu : (s.cl.users usr).connected = true)
    {parent top : List UInt8} {qid : MqttQos} (hk : CreateCounted s parent top qid usr) {r : SubAck}
    (hrun : s.mlWcNodesCreate parent top qid usr = some (r, s')) :
    CountGood s' ∧ (s'.cl.users usr).connected = true := by
  rw [ServerCore.mlWcNodesCreate] at hrun
  rw [CreateCounted] at hk
  split_ifs at hrun hk
  · exact h.wcNodeCreate hu hk (fun leaf hleaf => by cases hleaf) hrun
  · cases he : s.subNodeCreate parent qid usr with
    | none =>
      rw [he] at hrun
      cases hrun
    | some x =>
      obtain ⟨o, s₁⟩ := x
      rw [he] at hrun
      obtain ⟨t₁, free₁, h₁, hu₁, hsub⟩ := h.subNodeCreate hu hk.1 he
      cases o with
      | none =>
        cases hrun
        exact ⟨h₁.good, hu₁⟩
      | some leaf =>
        obtain ⟨hnew, hstop⟩ := hk.2 leaf s₁ he
        refine h₁.wcNodeCreate hu₁ hnew (fun leaf' hleaf => ?_) hrun
        cases hleaf
        exact ⟨hsub leaf rfl, hstop⟩

theorem CountOk.sent (h : CountOk s t free) {m : ClMgmt} (happ : Appends s.cl m) :
    CountOk { s with cl := m } t free :=
  ⟨h.toCoreOk.sent happ, h.counted.queues (.of_users happ.users)⟩

theorem CountGood.procSubTopic (h : CountGood s) (hu : (s.cl.users usr).connected = true)
    {topic : List UInt8} {qos : MqttQos} (hk : SubTopicCounted s usr topic qos) {r : SubAck}
    (hrun : s.procSubTopic usr topic qos = some (r, s')) :
    CountGood s' ∧ (s'.cl.users usr).connected = true := by
  obtain ⟨t, free, h⟩ := h
  obtain ⟨hnone, hsome⟩ := h.toCoreOk.procSubTopic_eq usr topic qos
  cases ht : subTargets (subTopic topic qos) with
  | none =>
    cases (hnone ht).symm.trans hrun
    exact ⟨h.good, hu⟩
  | some x =>
    obtain ⟨parent, top⟩ := x
    obtain ⟨a, ha, happ, he⟩ := hsome parent top ht
    have hua : (a.cl.users usr).connected = true := by rw [happ.users, hu]
    exact (h.sent happ).mlWcNodesCreate hua (hk parent top a ht ha) (he.symm.trans hrun)

theorem CountGood.unSubFound (h : CountGood s) (hu : (s.cl.users usr).connected = true)
    {topic : List UInt8} (hrun : s.unSubFound topic usr = some s') :
    CountGood s' ∧ (s'.cl.users usr).connected = true := by
  obtain ⟨t, free, h⟩ := h
  rcases h.toCoreOk.unSubFound topic usr with
      ⟨he, -⟩ | ⟨k, c, s₁, t₁, free₁, hl, hq, he, hs₁, h₁, -, hrw⟩
  · cases he.symm.trans hrun
    exact ⟨h.good, hu⟩
  · cases he.symm.trans hrun
    have hone : c.OneQos := h.look_oneQos hl
    have hcounted : Counted s'.cl t₁ := by
      rw [hs₁]
      exact h.counted.unsubscribe hu hl hone hq hrw (weigh_entriesOf_lt h.toCoreOk usr)
    refine ⟨CountOk.good ⟨h₁, hcounted⟩, ?_⟩
    rw [hs₁, clSubCountDel_connected, hu]

theorem CountOk.procPubMsgRx (h : CountOk s t free) {usr : Option ClIdx} {topic data : List UInt8}
    {msgId : UInt8} {qos : MqttQos} {retain ok : Bool} {plugins : List PluginMsg}
    (hk : PublishCounted s usr topic msgId qos retain)
    (hrun : s.procPubMsgRx usr topic data msgId qos retain = some (ok, plugins, s')) :
    CountGood s' := by
  rcases h.toCoreOk.procPubMsgRx hrun with
      ⟨t', free', hgo, hdata, hq⟩ | ⟨buf, m, hbuf, hretain, htr, hcr, hlost, hq, -⟩
  · exact CountOk.good ⟨hgo.ok, (h.counted.onlyData hdata).queues hq⟩
  · have hnone := h.toCoreOk.lossKeeps hcr (hk buf m hbuf hretain htr)
    exact CountOk.good ⟨hlost, (h.counted.lost hnone).queues hq⟩

theorem assignClUsr_keeps {m m' : ClMgmt} {clientId : Option (List UInt8)} {i : ClIdx}
    (h : assignClUsr m clientId = some (i, m')) :
    ∃ id, m' = m.setUser i { m.users i with clientId := id, assigned := true } := by
  unfold assignClUsr at h
  split at h
  · simp only at h
    split at h
    · cases h
    · cases h
      exact ⟨_, rfl⟩
  · cases h
    exact ⟨_, rfl⟩
  · cases h

theorem clConnectRx_keeps {m m' : ClMgmt} {ctx : Nat} {cleanSession present : Bool}
    {clientId : Option (List UInt8)} {will : Option Nat} {i : ClIdx}
    (h : clConnectRx m ctx cleanSession clientId will = some (i, present, m')) :
    (m.users i).connected = false ∧ ∃ id, m' = m.setUser i
      { m.users i with clientId := id, assigned := true, ctx := some ctx, will := will } := by
  obtain ⟨u, -, hassigned, -⟩ := clConnectRx_spec h
  refine ⟨hassigned.away, ?_⟩
  unfold clConnectRx at h
  split at h
  · cases h
  · split at h
    · cases h
    · rename_i i₁ m₁ he
      obtain ⟨id, hm₁⟩ := assignClUsr_keeps he
      cases h
      rw [hm₁]
      refine ⟨id, ?_⟩
      rw [setUser_setUser, setUser_users_self]

theorem Counted.clConnectRx {m m' : ClMgmt} (h : Counted m t) {ctx : Nat}
    {cleanSession present : Bool} {clientId : Option (List UInt8)} {will : Option Nat} {i : ClIdx}
    (hrun : clConnectRx m ctx cleanSession clientId will = some (i, present, m')) :
    Counted m' t := by
  obtain ⟨haway, id, rfl⟩ := clConnectRx_keeps hrun
  exact h.setUser (fun _ _ => rfl) (h.nSub i) (fun _ => haway) (h.clean i)

theorem Counted.of_users {m m' : ClMgmt} (h : Counted m t) (hu : m'.users = m.users) :
    Counted m' t := h.queues (.of_users hu)

theorem CountOk.procConnectRx (h : CountOk s t free) {args : ConnectArgs} {r : Option ClIdx}
    (hk : args.admitted = true → ∀ will, args.will.filter (·.topic ≠ []) = some will →
      LossKeeps s.tree (cStr will.topic))
    (hrun : s.procConnectRx args = some (r, s')) : CountGood s' := by
  rcases h.toCoreOk.procConnectRx hrun with
      ⟨t', free', hgo, hdata, hcl⟩ | ⟨will, hadmitted, hwill, hcr, rfl⟩
  · refine CountOk.good ⟨hgo.ok, ?_⟩
    rcases hcl with hcl | ⟨m, will, i, present, husers, hcl⟩
    · exact (h.counted.onlyData hdata).of_users hcl
    · exact ((h.counted.onlyData hdata).of_users husers).clConnectRx hcl
  · have hnone := h.toCoreOk.lossKeeps hcr (hk hadmitted will hwill)
    exact CountOk.good ⟨h.toCoreOk.treeless, h.counted.lost hnone⟩

theorem CountOk.onConnackSend (h : CountOk s t free) {cleanSession : Bool}
    (ha : (s.cl.users usr).assigned = true)
    (hk : cleanSession = true → Server.subEntries s.tree usr = 0)
    (hrun : s.onConnackSend usr cleanSession = some s') : CountGood s' := by
  obtain ⟨t', free', k, hgo, rfl, rfl, hq⟩ := h.toCoreOk.onConnackSend ha hrun
  refine CountOk.good ⟨hgo.ok, ?_⟩
  cases cleanSession with
  | false =>
    refine Counted.queues ?_ hq
    exact h.counted.setUser (fun _ _ => rfl) (h.counted.nSub usr) nofun nofun
  | true =>
    have hzero : (s.cl.users usr).nSub = 0 := by
      rw [h.counted.nSub, ← h.toCoreOk.subEntries, hk rfl]
    obtain ⟨hcount, hswept⟩ := h.counted.sweep h.oneQos (.inr ha) (.inr hzero)
      (weigh_entriesOf_lt h.toCoreOk usr)
    simp only [if_true] at hq ⊢
    rw [hcount] at hq
    refine Counted.queues ?_ hq
    exact hswept.setUser (fun _ _ => rfl) (hswept.nSub usr) nofun fun _ => rfl

theorem Counted.clOnNetClose {m : ClMgmt} (h : Counted m t)
    (hclean : (m.users usr).cleanSession = true → (m.users usr).nSub = 0) :
    Counted (clOnNetClose m usr) t := by
  have hreset : ∀ m₁ : ClMgmt, Counted m₁ t → (m₁.users usr).nSub = 0 →
      Counted (m₁.setUser usr clUsrReset) t := fun m₁ h₁ hn =>
    h₁.setUser (fun _ _ => rfl) (hn.symm.trans (h₁.nSub usr)) nofun nofun
  unfold Server.clOnNetClose
  dsimp only
  split_ifs with ha hd hc
  · exact h
  · refine hreset m h ?_
    rw [hasSessionData] at hd
    simp only [Bool.or_eq_true, not_or, bne_iff_ne, ne_eq, not_not] at hd
    exact hd.1.1
  · have hdel : QueuesOnly m (sessionDelete m usr) :=
      queuesOnly_set m usr Mqtt.qos2PubCqReset Mqtt.qos2PubCqReset
    refine hreset _ (h.queues hdel) ?_
    rw [((h.queues hdel).nSub usr).trans (h.nSub usr).symm, hclean hc]
  · exact h.setUser (fun _ _ => rfl) (h.nSub usr) (fun _ => rfl) fun hclean => absurd hclean hc

theorem CountOk.sessionClose (h : CountOk s t free)
    (hu : (s.cl.users usr).connected = true ∨ (s.cl.users usr).assigned = true)
    (hrun : s.sessionClose usr = some s') : CountGood s' := by
  obtain ⟨s₁, t', free', k, he, hgo, rfl, rfl, hcl⟩ := h.toCoreOk.sessionClose usr
  cases he.symm.trans hrun
  refine CountOk.good ⟨hgo.ok, ?_⟩
  rw [hcl]
  by_cases hdel : clCanSessionDelete s.cl usr = true
  · -- the entries of the client go, and its count is 0
    have hcan : (s.cl.users usr).connected = true ∨ (s.cl.users usr).nSub = 0 := by
      by_contra hno
      obtain ⟨hc, hn⟩ := not_or.mp hno
      have hclean : (s.cl.users usr).cleanSession = false :=
        Bool.eq_false_iff.mpr fun hclean => hc (h.counted.clean usr hclean)
      rw [clCanSessionDelete, hclean, hasSessionData] at hdel
      simp [hn] at hdel
    obtain ⟨hcount, hswept⟩ := h.counted.sweep h.oneQos hu hcan
      (weigh_entriesOf_lt h.toCoreOk usr)
    simp only [if_pos hdel]
    rw [hcount]
    exact hswept.clOnNetClose fun _ => by rw [setUser_users_self]
  · simp only [if_neg hdel]
    refine h.counted.clOnNetClose fun hclean => ?_
    rw [clCanSessionDelete, hclean] at hdel
    exact absurd rfl hdel

theorem CountOk.onClNetClose (h : CountOk s t free) {due2err : Bool} {plugins : List PluginMsg}
    (hu : (s.cl.users usr).connected = true ∨ (s.cl.users usr).assigned = true)
    (hk : WillCounted s usr) (hrun : s.onClNetClose usr due2err = some (plugins, s')) :
    CountGood s' := by
  rcases h.toCoreOk.onClNetClose_split hrun with
      rfl | he | ⟨leaf, m, σ, hwill, hcl, happ, hdel, he⟩
  · exact h.good
  · exact h.sessionClose hu he
  · have hsub : ({ nodeDataReset (s.tree.nodes leaf).val with willCl := none } : NodeData).subtop =
        (s.tree.nodes leaf).val.subtop := rfl
    obtain ⟨t', free', hσ, ht'⟩ :=
      h.toTreeOk.setTryAny (h.will_mem hcl) hsub (fun hone => hone) hdel
    have hcounted : Counted m t' := by
      refine (h.counted.of_users happ.users).weights fun i => ?_
      rcases ht' with ⟨q, hl, hrw⟩ | rfl | rfl
      · exact (onlyData_of_entry hl hrw rfl rfl).weight _ (entriesOf_blank i) fun _ _ => rfl
      · rfl
      · rw [← h.toCoreOk.subEntries, hk leaf σ hwill hcl hdel hσ.root i]
        rfl
    have hok : CoreOk { s with tree := σ, cl := m } t' free' :=
      ⟨hσ, h.stack, h.clients.of_users happ.users⟩
    have hu' : (m.users usr).connected = true ∨ (m.users usr).assigned = true := by
      rw [happ.users]
      exact hu
    exact CountOk.sessionClose ⟨hok, hcounted⟩ hu' he

theorem CountOk.procTopicEnroll (h : CountOk s t free) {pgId : PluginIdx} {topic : List UInt8}
    {qos : MqttQos} {v : Int} (hk : topic.length + 1 ≤ wbufLen → LossKeeps s.tree (cStr topic))
    (hrun : s.procTopicEnroll pgId topic qos = some (v, s')) : CountGood s' := by
  rcases h.toCoreOk.procTopicEnroll pgId topic qos with
      ⟨v, s₁, t', free', he, hs₁, hgo, hedit⟩ | ⟨hlen, hcr, he⟩
  · cases he.symm.trans hrun
    have hcl : s'.cl = s.cl := by rw [hs₁]
    refine CountOk.good ⟨hgo.ok, ?_⟩
    rw [hcl]
    rcases hedit with ⟨-, hsame⟩ | ⟨-, hrw⟩
    · exact h.counted.same hsame
    · refine h.counted.weights fun i => ?_
      have hweight := hrw.weight (entriesOf i) (entriesOf_blank i)
      exact Nat.add_right_cancel hweight
  · cases he.symm.trans hrun
    have hnone := h.toCoreOk.lossKeeps hcr (hk hlen)
    exact CountOk.good ⟨h.toCoreOk.treeless, h.counted.lost hnone⟩

theorem CountOk.procTopicCancel (h : CountOk s t free) {pgId : PluginIdx} {topic : List UInt8}
    {v : Int} (hrun : s.procTopicCancel pgId topic = some (v, s')) : CountGood s' := by
  obtain ⟨v, s₁, t', free', he, hs₁, hgo, hedit⟩ := h.toCoreOk.procTopicCancel pgId topic
  cases he.symm.trans hrun
  have hcl : s'.cl = s.cl := by rw [hs₁]
  refine CountOk.good ⟨hgo.ok, ?_⟩
  rw [hcl]
  rcases hedit with ⟨-, rfl, -⟩ | ⟨-, hrw⟩
  · exact h.counted
  · refine h.counted.weights fun i => ?_
    have hweight := hrw.weight (entriesOf i) (entriesOf_blank i)
    exact Nat.add_right_cancel hweight

end Steps

theorem coreStep_counted {s s' : ServerCore} {op : CoreOp} {r : CoreReply} (h : CountGood s)
    (hk : CountKept s op) (hs : coreStep s op = some (s', r)) : CountGood s' := by
  have hgood := h
  obtain ⟨t, free, h⟩ := h
  cases op with
  | subscribe i topics =>
    rw [coreStep] at hs
    split_ifs at hs with hu
    · refine kept_of_map (fun a ha => ?_) hs
      have hfor := procSubMsgRx_preserves (I := fun s => CountGood s ∧ (s.cl.users i).connected = true)
        (fun h hk he => h.1.procSubTopic h.2 hk he) topics ⟨hgood, hu⟩ (hk hu) ha
      exact hfor.1
    · exact kept_of_idle hgood hs
  | unSubscribe i topics =>
    rw [coreStep] at hs
    split_ifs at hs with hu
    · refine kept_of_map (fun a ha => ?_) hs
      have hfor := procUnSubMsg_preserves (I := fun s => CountGood s ∧ (s.cl.users i).connected = true)
        (fun h he => h.1.unSubFound h.2 he) topics ⟨hgood, hu⟩ ha
      exact hfor.1
    · exact kept_of_idle hgood hs
  | publish i topic data msgId qos retain =>
    rw [coreStep] at hs
    split_ifs at hs with hu
    · exact kept_of_map (fun a ha => h.procPubMsgRx (hk hu) ha) hs
    · exact kept_of_idle hgood hs
  | ack i msgType msgId =>
    rw [coreStep] at hs
    split_ifs at hs
    · refine kept_of_map (fun a ha => ?_) hs
      have hq := clNotifyAck_queues ha
      exact CountOk.good ⟨⟨h.toTreeOk, h.stack, h.clients.queues hq⟩, h.counted.queues hq⟩
    · exact kept_of_idle hgood hs
  | connect args =>
    rw [coreStep] at hs
    exact kept_of_map (fun a ha => h.procConnectRx hk ha) hs
  | connack i cleanSession =>
    rw [coreStep] at hs
    split_ifs at hs with ha
    · exact kept_of_map (fun a he => h.onConnackSend ha (hk ha) he) hs
    · exact kept_of_idle hgood hs
  | netClose i due2err =>
    rw [coreStep] at hs
    split_ifs at hs with hu
    · exact kept_of_map (fun a ha => h.onClNetClose hu hk ha) hs
    · exact kept_of_idle hgood hs
  | appRegister =>
    cases hs
    obtain ⟨hok, -, hcl⟩ := h.toCoreOk.pluginAlloc
    have hcounted : Counted s.pluginAlloc.2.cl t := by
      rw [hcl]
      exact h.counted
    exact CountOk.good ⟨hok, hcounted⟩
  | appPublish topic data qos retain =>
    rw [coreStep] at hs
    exact kept_of_map (fun a ha => h.procPubMsgRx hk ha) hs
  | enroll pg topic qos =>
    rw [coreStep] at hs
    split_ifs at hs with hu
    · exact kept_of_map (fun a ha => h.procTopicEnroll (hk hu) ha) hs
    · exact kept_of_idle hgood hs
  | cancel pg topic =>
    rw [coreStep] at hs
    split_ifs at hs
    · exact kept_of_map (fun a ha => h.procTopicCancel ha) hs
    · exact kept_of_idle hgood hs

/-! ## Runs -/

/-- `n_sub` is right for every client, and so is what is taken for the data of its session. -/
structure SubsCounted (s : ServerCore) : Prop where
  nSub : ∀ i, (s.cl.users i).nSub = subEntries s.tree i
  data : ∀ i, hasSessionData s.cl i = true ↔
    subEntries s.tree i ≠ 0 ∨ (∃ mqp ∈ s.cl.qosAck1Wl, bit mqp.clMap i = true) ∨
      ∃ mqp ∈ s.cl.sessMqpWl, bit mqp.clMap i = true

theorem CountOk.subsCounted {s : ServerCore} {t : Tree} {free : List NodeIdx}
    (h : CountOk s t free) : SubsCounted s := by
  have hn : ∀ i, (s.cl.users i).nSub = subEntries s.tree i := fun i =>
    (h.counted.nSub i).trans (h.toCoreOk.subEntries i).symm
  refine ⟨hn, fun i => ?_⟩
  rw [hasSessionData, hn]
  simp [or_assoc]

/-- In every state that the server reaches by steps that keep the counts right, they are right. -/
theorem subs_counted {sendOk mallocOk : Nat → Bool} {ops : List CoreOp} {s : ServerCore}
    {rs : List CoreReply} (hk : Meets coreStep CountKept (serverCoreInit sendOk mallocOk) ops)
    (hrun : runs coreStep (serverCoreInit sendOk mallocOk) ops = some (s, rs)) : SubsCounted s := by
  have hinit : CountGood (serverCoreInit sendOk mallocOk) :=
    CountOk.good ⟨coreOk_init sendOk mallocOk, counted_init sendOk mallocOk⟩
  obtain ⟨t, free, h⟩ := hk.preserves coreStep_counted hinit hrun
  exact h.subsCounted

/-- A client with a persistent session has subscribed to `a`. -/
theorem subs_counted_one : ∃ s rs,
    runs coreStep (serverCoreInit allOk allOk) [.connect ⟨7, false, some [0x78], none, true⟩,
      .connack 0 false, .subscribe 0 [([0x61], 1)]] = some (s, rs) ∧
    (s.cl.users 0).nSub = 1 ∧ SubsCounted s := by
  have hcount : (runs coreStep (serverCoreInit allOk allOk) [.connect ⟨7, false, some [0x78], none,
      true⟩, .connack 0 false, .subscribe 0 [([0x61], 1)]]).map
        (fun x => (x.1.cl.users 0).nSub) = some 1 := by
    decide +kernel
  have hnew : ((runs coreStep (serverCoreInit allOk allOk) [.connect ⟨7, false, some [0x78], none,
      true⟩, .connack 0 false]).map fun x => (entriesOf 0 (entryAt x.1.tree [0x61]),
        (topicNodeCreate x.1.tree [0x61]).map (·.1.isSome))) = some (0, some true) := by
    decide +kernel
  have hmeets : Meets coreStep CountKept (serverCoreInit allOk allOk) [.connect ⟨7, false, some [0x78],
      none, true⟩, .connack 0 false, .subscribe 0 [([0x61], 1)]] := by
    refine ⟨fun _ will hwill => (by cases hwill), ?_⟩
    cases h₁ : coreStep (serverCoreInit allOk allOk)
        (.connect ⟨7, false, some [0x78], none, true⟩) with
    | none => trivial
    | some x =>
      obtain ⟨s₁, r₁⟩ := x
      refine ⟨fun _ hclean => (by cases hclean), ?_⟩
      cases h₂ : coreStep s₁ (.connack 0 false) with
      | none => trivial
      | some y =>
        obtain ⟨s₂, r₂⟩ := y
        rw [runs_cons h₁ (runs_cons h₂ rfl), Option.map_some, Option.some.injEq,
          Prod.mk.injEq] at hnew
        have hloss : LossKeeps s₂.tree [0x61] := by
          rintro ⟨σ, hlost, -⟩
          rw [hlost] at hnew
          cases hnew.2
        refine ⟨fun _ => ⟨fun qos hqos parent top a ht _ => ?_, fun _ _ _ => trivial⟩, ?_⟩
        · obtain rfl : qos = .qos1 := (Option.some.inj hqos).symm
          have ht' : subTargets (subTopic [0x61] .qos1) = some ([], [0x61]) := by decide
          cases ht'.symm.trans ht
          exact ⟨hnew.1, hloss⟩
        · split <;> trivial
  obtain ⟨⟨s, rs⟩, hrun, hs⟩ := Option.map_eq_some_iff.mp hcount
  exact ⟨s, rs, hrun, hs, subs_counted hmeets hrun⟩

/-- A client that subscribes twice to `a` is counted twice. -/
theorem subs_counted_twice : ¬ ∀ (ops : List CoreOp) (s : ServerCore) (rs : List CoreReply),
    runs coreStep (serverCoreInit allOk allOk) ops = some (s, rs) →
      ∀ i, (s.cl.users i).nSub = subEntries s.tree i := by
  intro h
  have heval : (runs coreStep (serverCoreInit allOk allOk) [.connect ⟨7, false, some [0x78], none,
      true⟩, .connack 0 false, .subscribe 0 [([0x61], 1)], .subscribe 0 [([0x61], 2)]]).map
        (fun x => ((x.1.cl.users 0).nSub, subEntries x.1.tree 0)) = some (2, 1) := by
    decide +kernel
  obtain ⟨⟨s, rs⟩, hrun, hs⟩ := Option.map_eq_some_iff.mp heval
  have hn := h _ s rs hrun 0
  rw [Prod.mk.injEq] at hs
  rw [hs.1, hs.2] at hn
  cases hn

end SimpleLink.Server
