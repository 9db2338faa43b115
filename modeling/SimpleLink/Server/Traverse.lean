import SimpleLink.Lib.TreeWalk
import SimpleLink.Server.TopicLeaf

/-!
# Traversals of the topic tree (`server_core.c`)

A PUBLISH looks for the leaves whose topic it matches, a SUBSCRIBE for the
retained messages that its filter matches. Each search goes down from a node and
notes neighbours on `node_stack`; each traversal pops what its searches noted.

The stack is a list, the last entry first, and an entry beyond its end has no
outcome. `val1` is the topic that it points to. `val2` is a length of `work_buf`,
kept here as the bytes up to there: a search writes after them only, and what is
noted later is popped earlier.
-/

namespace SimpleLink.Server

open Lib LinkTree

structure NodeNote where
  topic : List UInt8
  buf : List UInt8

abbrev NodeStack := List (NodeIdx × NodeNote)

/-- The variables of a search: `next_subtop`, `prev` and the buffer. -/
structure HierState where
  rest : Option (List UInt8)
  prev : Option NodeIdx
  buf : List UInt8

def leafAt (next : Option (List UInt8)) (prev : Option NodeIdx) : Option NodeIdx :=
  if next = none then prev else none

/-- `has_a_wildcard`. -/
def hasAWildcard (c : NodeData) : Bool := c.subtop.any isWildcardChar

/-! ## Searches -/

/-- `is_node_SUB_subtop`. -/
def isNodeSubSubtop (c : NodeData) (dnHier : Bool) (subtop : List UInt8) : Bool :=
  !hasAWildcard c &&
    (c.subtop == subtop || (dnHier && subtop == [plus, slash]) || (!dnHier && subtop == [plus]))

/-- A turn of the loop of `pub_hier_search`. -/
def pubHierTurn (i : NodeIdx) (c : NodeData) (dnHier : Bool) (v : HierState) :
    Turn HierState (Option NodeIdx × List UInt8) :=
  match v.rest with
  | none => .halt (v.prev, v.buf)
  | some topSUB =>
    let (subtop, next) := subtopRead topSUB maxSubtopLen
    if subtop.length = 0 then .halt (leafAt next v.prev, v.buf)
    else if isNodeSubSubtop c dnHier subtop then
      match topbufAdd v.buf c.subtop with
      | none => .stop (leafAt next v.prev, v.buf)
      | some buf => .down ⟨next, some i, buf⟩
    else .stop (leafAt next v.prev, v.buf)

def pubHierWalker : Walker NodeIdx NodeData NodeNote HierState (Option NodeIdx × List UInt8) where
  start e := ⟨some e.topic, none, e.buf⟩
  turn := pubHierTurn
  note v := ⟨v.rest.getD [], v.buf⟩
  bottom v := (leafAt v.rest v.prev, v.buf)

/-- `is_node_PUB_subtop`. -/
def isNodePubSubtop (c : NodeData) (subtop : List UInt8) (endtop : Bool) : Bool :=
  subtop == c.subtop || (!endtop && c.subtop == [plus, slash]) || (endtop && c.subtop == [plus])

/-- A turn of the loop of `SUB_leaf_search`. -/
def subLeafTurn (i : NodeIdx) (c : NodeData) (_ : Bool) (v : HierState) :
    Turn HierState (Option NodeIdx) :=
  match v.rest with
  | none => .halt v.prev
  | some topPUB =>
    let (subtop, next) := subtopRead topPUB maxSubtopLen
    if subtop.length = 0 then .halt (leafAt next v.prev)
    else if c.subtop = [hash] then .stop (some i)
    else if isNodePubSubtop c subtop next.isNone then .down ⟨next, some i, v.buf⟩
    else .stop (leafAt next v.prev)

def subLeafWalker : Walker NodeIdx NodeData NodeNote HierState (Option NodeIdx) where
  start e := ⟨some e.topic, none, e.buf⟩
  turn := subLeafTurn
  note v := ⟨v.rest.getD [], v.buf⟩
  bottom v := leafAt v.rest v.prev

/-- A turn of the loop of `proc_pub_hier_no_top`. -/
def noTopTurn (i : NodeIdx) (c : NodeData) (_ : Bool) (v : HierState) :
    Turn HierState (Option NodeIdx × List UInt8) :=
  if hasAWildcard c then .stop (none, v.buf)
  else
    match topbufAdd v.buf c.subtop with
    | none => .stop (none, v.buf)
    | some buf => .down ⟨none, some i, buf⟩

def noTopWalker : Walker NodeIdx NodeData NodeNote HierState (Option NodeIdx × List UInt8) where
  start e := ⟨none, none, e.buf⟩
  turn := noTopTurn
  note v := ⟨[], v.buf⟩
  bottom v := (v.prev, v.buf)

def searchFrom {ρ : Type} (W : Walker NodeIdx NodeData NodeNote HierState ρ) (σ : TopicTree)
    (p : NodeIdx × NodeNote) (st : NodeStack) : Option (ρ × List NodeIdx × NodeStack) :=
  descend W maxTopNodes σ.nodes loopBound (some p.1) (W.start p.2) st

/-- `pub_hier_search`. -/
def pubHierSearch := searchFrom pubHierWalker

/-- `SUB_leaf_search`. -/
def subLeafSearch := searchFrom subLeafWalker

/-! ## Retained messages for a subscription -/

def MqttQos.ofVal : Nat → MqttQos
  | 0 => .qos0
  | 1 => .qos1
  | _ => .qos2

/-- `MIN` of the QoS of a node and a QoS. -/
def minQid (qid : BitVec 2) (qos : MqttQos) : MqttQos :=
  if qid.toNat < qos.val then .ofVal qid.toNat else qos

/-- What a traversal for a subscription adds up: the least QoS, and the clients. -/
structure Grant where
  min : MqttQos
  cl : ClMgmt

/-- `proc_pub_leaf`. -/
def procPubLeaf (c : NodeData) (topic : List UInt8) (qos : MqttQos) (usr : ClIdx) (m : ClMgmt) :
    Option (MqttQos × ClMgmt) :=
  if c.retain then
    let qid := minQid c.qid qos
    (pubMsgSend m topic (c.myData.getD []) qid true (clBmapGet m usr)).map (qid, ·)
  else some (qos, m)

/-- The leaf that a search has found is published; without one the QoS is as it was. -/
def ackLeaf (σ : TopicTree) (qos : MqttQos) (usr : ClIdx) (a : Grant)
    (found : Option NodeIdx × List UInt8) : Option Grant :=
  match found with
  | (none, _) => some { a with min := qos.min a.min }
  | (some leaf, topic) =>
    (procPubLeaf (σ.nodes leaf).val topic qos usr a.cl).map fun (ack, m) => ⟨ack.min a.min, m⟩

/-- A turn of the loop of a traversal: a search, and what is done with its result. -/
def pubHier (W : Walker NodeIdx NodeData NodeNote HierState (Option NodeIdx × List UInt8))
    (σ : TopicTree) (qos : MqttQos) (usr : ClIdx) (a : Grant) (p : NodeIdx × NodeNote)
    (st : NodeStack) : Option (Grant × List NodeIdx × NodeStack) :=
  match searchFrom W σ p st with
  | none => none
  | some (found, is, st) => (ackLeaf σ qos usr a found).map fun a => (a, is, st)

/-- `proc_pub_hier_no_top`. -/
def procPubHierNoTop := pubHier noTopWalker

/-- `proc_pub_tree_no_top`. -/
def procPubTreeNoTop (σ : TopicTree) (base : Option NodeIdx) (buf : List UInt8) (qos : MqttQos)
    (usr : ClIdx) (m : ClMgmt) (st : NodeStack) : Option (Grant × List NodeIdx × NodeStack) :=
  walkTree maxTopNodes (procPubHierNoTop σ qos usr) loopBound base ⟨[], buf⟩ ⟨qos, m⟩ st

/-- `proc_pub_hier_SUBtop`. -/
def procPubHierSubTop := pubHier pubHierWalker

/-- `proc_pub_tree_SUBtop`. -/
def procPubTreeSubTop (topSUB : List UInt8) (σ : TopicTree) (base : Option NodeIdx)
    (buf : List UInt8) (qos : MqttQos) (usr : ClIdx) (m : ClMgmt) (st : NodeStack) :
    Option (Grant × List NodeIdx × NodeStack) :=
  walkTree maxTopNodes (procPubHierSubTop σ qos usr) loopBound base ⟨topSUB, buf⟩ ⟨qos, m⟩ st

/-- `nhbr_node_find`. -/
def nhbrNodeFind (σ : TopicTree) (base : Option NodeIdx) (subtop : List UInt8) :
    Option (Option NodeIdx) :=
  (subtopNhbrNodeFind σ.nodes subtop loopBound base).map (·.map Prod.fst)

/-- `topbuf_cpy`. -/
def topbufCpy := topbufAdd

/-- Step 1 of `proc_sub_ml_wc_hier`: the row at the level of the parent, if the search finds one. -/
def mlGrandpa (σ : TopicTree) (p : NodeIdx × NodeNote) (st : NodeStack) :
    Option ((Option (Option NodeIdx) × List UInt8) × List NodeIdx × NodeStack) :=
  if p.2.topic = [] then some ((some (some p.1), p.2.buf), [], st)
  else
    (pubHierSearch σ p st).map fun ((leaf, buf), is, st) =>
      ((leaf.map fun leaf => (σ.nodes leaf).dnHier, buf), is, st)

/-- Step 2: the parent as a leaf; then the row below it, and the topic up to there. -/
def mlParent (parentSubtop : List UInt8) (σ : TopicTree) (base : Option NodeIdx) (buf : List UInt8)
    (qos : MqttQos) (usr : ClIdx) (m : ClMgmt) (st : NodeStack) :
    Option (Grant × Option NodeIdx × List UInt8 × NodeStack) :=
  match parentSubtop with
  | [] => some (⟨qos, m⟩, base, buf, st)
  | c :: _ =>
    if c = plus ∨ c = slash then some (⟨qos, m⟩, base, buf, st)
    else
      match procPubTreeSubTop parentSubtop σ base buf qos usr m st with
      | none => none
      | some (a, _, st) =>
        let subtop := parentSubtop ++ [slash]
        match nhbrNodeFind σ base subtop with
        | none => none
        | some none => some (a, none, buf, st)
        | some (some i) =>
          match topbufCpy buf subtop with
          | none => some (a, none, buf, st)
          | some buf => some (a, (σ.nodes i).dnHier, buf, st)

/-- `proc_sub_ml_wc_hier`. -/
def procSubMlWcHier (parentSubtop : List UInt8) (σ : TopicTree) (qos : MqttQos) (usr : ClIdx)
    (a : Grant) (p : NodeIdx × NodeNote) (st : NodeStack) :
    Option (Grant × List NodeIdx × NodeStack) :=
  match mlGrandpa σ p st with
  | none => none
  | some ((none, _), is, st) => some ({ a with min := qos.min a.min }, is, st)
  | some ((some base, buf), is, st) =>
    match mlParent parentSubtop σ base buf qos usr a.cl st with
    | none => none
    | some (b, base, buf, st) =>
      -- `proc_pub_tree_no_top` does nothing without a base
      match procPubTreeNoTop σ base buf qos usr b.cl st with
      | none => none
      | some (b', _, st) => some (⟨(b'.min.min b.min).min a.min, b'.cl⟩, is, st)

/-- `proc_sub_ml_wc_tree`. -/
def procSubMlWcTree (grandpaTopSUB parentSubtop : List UInt8) (σ : TopicTree) (qos : MqttQos)
    (usr : ClIdx) (m : ClMgmt) (st : NodeStack) : Option (Grant × List NodeIdx × NodeStack) :=
  walkTree maxTopNodes (procSubMlWcHier parentSubtop σ qos usr) loopBound σ.rootNode
    ⟨grandpaTopSUB, []⟩ ⟨qos, m⟩ st

/-! ## Delivery of a PUBLISH -/

/-- `MAX_PLUGINS`. -/
abbrev maxPlugins : Nat := 4

abbrev PluginIdx := Fin maxPlugins

/-- `PG_MAP_HAS_VALUE`. -/
def pgMapHasValue (pgMap : BitVec 8) (index : PluginIdx) : Bool :=
  (~~~pgMap >>> (index.val * 2)) &&& 3 != 0

/-- `PG_MAP_VAL_SETUP`. -/
def pgMapValSetup (pgMap : BitVec 8) (qid : MqttQos) (index : PluginIdx) : BitVec 8 :=
  pgMap &&& ~~~(3#8 <<< (index.val * 2)) ||| BitVec.ofNat 8 qid.val <<< (index.val * 2)

/-- `PG_MAP_VAL_RESET`. -/
def pgMapValReset (pgMap : BitVec 8) (index : PluginIdx) : BitVec 8 :=
  pgMap ||| 3#8 <<< (index.val * 2)

/-- A call of the `publish` callback of a plug-in. -/
structure PluginMsg where
  plugin : PluginIdx
  topic : List UInt8
  data : List UInt8
  dup : Bool
  qos : MqttQos
  retain : Bool
  deriving DecidableEq

/-- `plugin_publish`. -/
def pluginPublish (inUse : PluginIdx → Bool) (pgMap : BitVec 8) (topic data : List UInt8) (dup : Bool)
    (qos : MqttQos) (retain : Bool) : List PluginMsg :=
  ((List.finRange maxPlugins).filter fun i => pgMapHasValue pgMap i && inUse i).map
    fun i => ⟨i, topic, data, dup, qos, retain⟩

/-- What a PUBLISH leads to: the clients, and what was handed to the plug-ins. -/
structure Delivery where
  cl : ClMgmt
  plugins : List PluginMsg

/-- `leaf_msg_send`; the maps of the clients are cut to their low byte. -/
def leafMsgSend (inUse : PluginIdx → Bool) (c : NodeData) (topic data : List UInt8) (dup : Bool)
    (qos : MqttQos) (retain : Bool) (a : Delivery) : Option Delivery :=
  let send (m : ClMgmt) (qid : MqttQos) : Option ClMgmt :=
    let map := ((c.clMap qid).setWidth 8).setWidth 32
    if map ≠ 0 then pubMsgSend m topic data (qid.min qos) retain map else some m
  ([MqttQos.qos0, .qos1, .qos2].foldlM send a.cl).map fun m =>
    ⟨m, if c.pgMap ≠ pgMapAllDflts then
      a.plugins ++ pluginPublish inUse c.pgMap topic data dup qos retain else a.plugins⟩

/-- A PUBLISH: the topic as it came, the data, the QoS and the flag. -/
structure PubMsg where
  topic : List UInt8
  data : List UInt8
  qos : MqttQos
  retain : Bool

def sendLeaf (inUse : PluginIdx → Bool) (σ : TopicTree) (msg : PubMsg) (a : Delivery) :
    Option NodeIdx → Option Delivery
  | none => some a
  | some leaf =>
    leafMsgSend inUse (σ.nodes leaf).val msg.topic msg.data false msg.qos msg.retain a

/-- A turn of the loop of `proc_sub_tree_topPUB`. -/
def subTreeTurn (inUse : PluginIdx → Bool) (σ : TopicTree) (msg : PubMsg) (a : Delivery)
    (p : NodeIdx × NodeNote) (st : NodeStack) : Option (Delivery × List NodeIdx × NodeStack) :=
  match subLeafSearch σ p st with
  | none => none
  | some (leaf, is, st) => (sendLeaf inUse σ msg a leaf).map fun a => (a, is, st)

/-- `proc_sub_tree_topPUB`. -/
def procSubTreeTopPUB (inUse : PluginIdx → Bool) (topPUB : List UInt8) (msg : PubMsg) (σ : TopicTree)
    (m : ClMgmt) (st : NodeStack) : Option (Delivery × List NodeIdx × NodeStack) :=
  walkTree maxTopNodes (subTreeTurn inUse σ msg) loopBound σ.rootNode ⟨topPUB, []⟩ ⟨m, []⟩ st

end SimpleLink.Server
