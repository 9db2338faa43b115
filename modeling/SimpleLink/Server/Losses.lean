import SimpleLink.Lib.LinkWalk
import SimpleLink.Server.FailedSubscribe

/-!
# What a step may lose (`server_core.c`)

`topic_node_create` can fail with the tree lost, the leaf of `x` can be taken off again when that of
`x/#` cannot be created, and the node of a will can be the top of a tree that was lost before.
`StepMeets L R` allows a step the loss of the tree if `L`, and that of the leaf of `x` if `R x`.
-/

namespace SimpleLink.Server

open Lib LinkTree

/-! ## Entries one after the other -/

/-- Each entry of a SUBSCRIBE meets `C` in the state that those before it leave. -/
def SubMsgMeets (C : ServerCore → List UInt8 → MqttQos → Prop) (usr : ClIdx) :
    List (List UInt8 × UInt8) → ServerCore → Prop
  | [], _ => True
  | (topic, qosreq) :: topics, s =>
    (∀ qos, qosValue qosreq = some qos → C s topic qos) ∧
      ∀ ack s', s.procSubEntry usr topic qosreq = some (ack, s') → SubMsgMeets C usr topics s'

section Entries

variable {I : ServerCore → Prop} {C : ServerCore → List UInt8 → MqttQos → Prop} {usr : ClIdx}

theorem procSubMsgRx_preserves
    (hstep : ∀ {s s' : ServerCore} {topic : List UInt8} {qos : MqttQos} {ack : SubAck}, I s →
      C s topic qos → s.procSubTopic usr topic qos = some (ack, s') → I s')
    (topics : List (List UInt8 × UInt8)) : ∀ {s s' : ServerCore} {acks : List SubAck}, I s →
      SubMsgMeets C usr topics s → ServerCore.procSubMsgRx usr topics s = some (acks, s') → I s' := by
  induction topics with
  | nil =>
    intro s s' acks h _ hrun
    cases hrun
    exact h
  | cons p topics ih =>
    intro s s' acks h hk hrun
    obtain ⟨topic, qosreq⟩ := p
    obtain ⟨hk, hrest⟩ := hk
    rw [ServerCore.procSubMsgRx] at hrun
    cases he : s.procSubEntry usr topic qosreq with
    | none =>
      rw [he] at hrun
      cases hrun
    | some x =>
      obtain ⟨ack, s₁⟩ := x
      rw [he] at hrun
      obtain ⟨y, hy, heq⟩ := Option.map_eq_some_iff.mp hrun
      obtain ⟨-, rfl⟩ := Prod.mk.inj heq
      refine ih ?_ (hrest ack s₁ he) hy
      rcases procSubEntry_eq he with rfl | ⟨qos, hq, he⟩
      · exact h
      · exact hstep h (hk qos hq) he

theorem procUnSubTopic_preserves
    (hstep : ∀ {s s' : ServerCore} {topic : List UInt8}, I s → s.unSubFound topic usr = some s' → I s')
    {s s' : ServerCore} {topic : List UInt8} (h : I s)
    (hrun : s.procUnSubTopic usr topic = some s') : I s' := by
  rw [ServerCore.procUnSubTopic] at hrun
  split_ifs at hrun
  · split at hrun
    · cases hrun
    · rename_i s₁ he
      exact hstep (hstep h he) hrun
  · exact hstep h hrun

theorem procUnSubMsg_preserves
    (hstep : ∀ {s s' : ServerCore} {topic : List UInt8}, I s → s.unSubFound topic usr = some s' → I s')
    (topics : List (List UInt8)) : ∀ {s s' : ServerCore}, I s →
      ServerCore.procUnSubMsg usr topics s = some s' → I s' := by
  induction topics with
  | nil =>
    intro s s' h hrun
    cases hrun
    exact h
  | cons topic topics ih =>
    intro s s' h hrun
    rw [ServerCore.procUnSubMsg] at hrun
    split at hrun
    · cases hrun
    · rename_i s₁ he
      exact ih (procUnSubTopic_preserves hstep h he) hrun

end Entries

/-! ## Losses -/

section Losses

variable (L : Prop) (R : List UInt8 → Prop)

/-- The tree is lost only if `L`. -/
def LossMeets (σ : TopicTree) (topic : List UInt8) : Prop := LosesTree σ topic → L

/-- The leaf of the parent is taken off again only if `R`. -/
def CreateMeets (s : ServerCore) (parent top : List UInt8) (qid : MqttQos) (usr : ClIdx) : Prop :=
  if parent = [] then LossMeets L s.tree top
  else LossMeets L s.tree parent ∧
    ∀ leaf s₁, s.subNodeCreate parent qid usr = some (some leaf, s₁) →
      LossMeets L s₁.tree top ∧
      (topicNodeCreate s₁.tree top = some (none, s₁.tree) →
        canDeleteNode (s₁.tree.nodes leaf) = true → R parent)

def SubTopicMeets (usr : ClIdx) (s : ServerCore) (topic : List UInt8) (qos : MqttQos) : Prop :=
  ∀ parent top a, subTargets (subTopic topic qos) = some (parent, top) →
    s.sendRetained usr (subTopic topic qos) qos = some a →
      CreateMeets L R { s with cl := a.cl } parent top a.min usr

def PublishMeets (s : ServerCore) (usr : Option ClIdx) (topic : List UInt8) (msgId : UInt8)
    (qos : MqttQos) (retain : Bool) : Prop :=
  ∀ buf m, pubTopicRead topic = some buf → retain = true →
    pubTracked s.cl usr msgId qos = some (true, m) → LossMeets L s.tree (procForwardSlash buf)

/-- The node of a will is the top of a lost tree only if `L`. -/
def WillMeets (s : ServerCore) (usr : ClIdx) : Prop :=
  ∀ (leaf : NodeIdx) tree σ, (s.cl.users usr).will = some leaf.val →
    (s.tree.nodes leaf).val.willCl = some usr → Walk s.tree.nodes s.tree.rootNode tree →
    leaf ∉ tree → tryNodeDelete (s.tree.setVal leaf
      { nodeDataReset (s.tree.nodes leaf).val with willCl := none }) leaf = some σ →
    σ.rootNode = none → L

def StepMeets (s : ServerCore) : CoreOp → Prop
  | .subscribe i topics =>
    (s.cl.users i).connected = true → SubMsgMeets (SubTopicMeets L R i) i topics s
  | .publish i topic _ msgId qos retain =>
    (s.cl.users i).connected = true → PublishMeets L s (some i) topic msgId qos retain
  | .appPublish topic _ qos retain => PublishMeets L s none topic 0 qos retain
  | .connect args =>
    args.admitted = true → ∀ will, args.will.filter (·.topic ≠ []) = some will →
      LossMeets L s.tree (cStr will.topic)
  | .netClose i _ => WillMeets L s i
  | .enroll pg topic _ =>
    s.inUse pg = true → topic.length + 1 ≤ wbufLen → LossMeets L s.tree (cStr topic)
  | .unSubscribe .. | .ack .. | .connack .. | .appRegister | .cancel .. => True

end Losses

end SimpleLink.Server
