import Mathlib.Data.Fintype.Card
import SimpleLink.Lib.LinkTree
import SimpleLink.Server.Publish
import SimpleLink.Server.Topic

/-!
# The topic tree (`server_core.c`)

A node of the static pool holds one level of a topic, its `/` included. Nodes of
the same level are neighbours, the next level hangs below; a node that is free
is on a list of its own. `TopicTree` is the pool with its two roots, and the
operations read and write one link at a time, as the source does. A loop of the
source has `loopBound` turns; where they do not do, there is no outcome.

A topic is the list of its characters before the NUL. Of the level in a node
only `toplen` characters are kept, and `my_data` comes with its `my_dlen`.
-/

namespace SimpleLink.Server

open Lib

/-- `MAX_TOP_NODES`. -/
abbrev maxTopNodes : Nat := 32

/-- `MAX_SUBTOP_LEN`. -/
abbrev maxSubtopLen : Nat := 32

abbrev NodeIdx := Fin maxTopNodes

abbrev loopBound : Nat := maxTopNodes + 1

/-- `struct topic_node` without its links; `retain` and `qid` are `my_prop`. -/
structure NodeData where
  clMap : MqttQos → BitVec 32
  myData : Option (List UInt8)
  willCl : Option ClIdx
  retain : Bool
  qid : BitVec 2
  pgMap : BitVec 8
  subtop : List UInt8

abbrev TopicNode := Cell NodeIdx NodeData

structure TopicTree where
  nodes : NodeIdx → TopicNode
  freeNodes : Option NodeIdx
  rootNode : Option NodeIdx

/-- `PG_MAP_ALL_DFLTS`. -/
abbrev pgMapAllDflts : BitVec 8 := 0xFF

/-- `node_reset`. -/
def nodeReset : NodeData where
  clMap := fun _ => 0
  myData := none
  willCl := none
  retain := false
  qid := 3
  pgMap := pgMapAllDflts
  subtop := []

def TopicTree.set (σ : TopicTree) (i : NodeIdx) (c : TopicNode) : TopicTree :=
  { σ with nodes := Function.update σ.nodes i c }

def TopicTree.setVal (σ : TopicTree) (i : NodeIdx) (c : NodeData) : TopicTree :=
  σ.set i { σ.nodes i with val := c }

/-- `free_node`. -/
def freeNode (σ : TopicTree) (i : NodeIdx) : TopicTree :=
  { σ.set i ⟨⟨σ.freeNodes, none, none, none⟩, nodeReset⟩ with freeNodes := some i }

/-- `topic_node_init`. -/
def topicNodeInit : TopicTree :=
  (List.finRange maxTopNodes).foldl freeNode
    ⟨fun _ => ⟨⟨none, none, none, none⟩, nodeReset⟩, none, none⟩

/-- `alloc_topic_node`. -/
def allocTopicNode (σ : TopicTree) : Option NodeIdx × TopicTree :=
  match σ.freeNodes with
  | none => (none, σ)
  | some i =>
    (some i, { σ.set i ⟨⟨none, none, none, none⟩, nodeReset⟩ with freeNodes := (σ.nodes i).dnNhbr })

/-! ## Levels -/

/-- `is_end_of_subtop`: at the end, the next level, if there is one. -/
def isEndOfSubtop : List UInt8 → Option (Option (List UInt8))
  | [] => some none
  | c :: s => if c = slash then some (if s = [] then none else some s) else none

/-- The loop of `subtop_read`, with the room that is left. -/
def subtopCopy : Nat → List UInt8 → List UInt8 × Option (Option (List UInt8))
  | 0, _ => ([], none)
  | _ + 1, [] => ([], some none)
  | room + 1, c :: s =>
    match isEndOfSubtop (c :: s) with
    | some next => ([c], some next)
    | none => let (buf, next) := subtopCopy room s; (c :: buf, next)

/-- `subtop_read` into a buffer of at least two bytes. -/
def subtopRead (topstr : List UInt8) (bufLength : Nat) : List UInt8 × Option (List UInt8) :=
  let (buf, next) := subtopCopy (bufLength - 1) topstr
  (buf, next.getD (some topstr))

/-- `is_first_subtop`, with the next level. -/
def isFirstSubtop : List UInt8 → List UInt8 → Option (Option (List UInt8))
  | [], [] => some none
  | c :: subtop, d :: topstr =>
    if c = d then
      match isEndOfSubtop (d :: topstr) with
      | some next => some next
      | none => isFirstSubtop subtop topstr
    else none
  | _, _ => none

/-- `alloc_node_subtop`: the node and the next level. -/
def allocNodeSubtop (σ : TopicTree) (topstr : List UInt8) :
    Option (NodeIdx × Option (List UInt8)) × TopicTree :=
  match allocTopicNode σ with
  | (none, σ) => (none, σ)
  | (some i, σ) =>
    let (subtop, next) := subtopRead topstr maxSubtopLen
    if subtop.length = 0 then (none, freeNode σ i)
    else (some (i, next), σ.set i ⟨(σ.nodes i).toLinks, { nodeReset with subtop := subtop }⟩)

/-! ## Search -/

/-- The loop of `subtop_nhbr_node_find`: the node that matches and the next level. -/
def subtopNhbrNodeFind (nodes : NodeIdx → TopicNode) (topstr : List UInt8) :
    Nat → Option NodeIdx → Option (Option (NodeIdx × Option (List UInt8)))
  | _, none => some none
  | 0, some _ => none
  | fuel + 1, some i =>
    match isFirstSubtop (nodes i).val.subtop topstr with
    | some next => some (some (i, next))
    | none => subtopNhbrNodeFind nodes topstr fuel (nodes i).dnNhbr

/-- What `lowest_node_find` returns. -/
structure Lowest where
  node : Option NodeIdx
  flagNh : Bool
  next : Option (List UInt8)

/-- The loop of `lowest_node_find`. -/
def lowestLoop (nodes : NodeIdx → TopicNode) :
    Nat → Option NodeIdx → Option NodeIdx → List UInt8 → Option Lowest
  | _, node, none, topstr => some ⟨node, false, some topstr⟩
  | 0, _, some _, _ => none
  | fuel + 1, _, some r, topstr =>
    match subtopNhbrNodeFind nodes topstr loopBound (some r) with
    | none => none
    | some none => some ⟨some r, true, some topstr⟩
    | some (some (i, none)) => some ⟨some i, false, none⟩
    | some (some (i, some next)) => lowestLoop nodes fuel (some i) (nodes i).dnHier next

/-- `lowest_node_find`. -/
def lowestNodeFind (σ : TopicTree) (topstr : List UInt8) : Option Lowest :=
  lowestLoop σ.nodes loopBound none σ.rootNode topstr

/-- `leaf_node_find`. -/
def leafNodeFind (σ : TopicTree) (topstr : List UInt8) : Option (Option NodeIdx) :=
  (lowestNodeFind σ topstr).map fun low => if low.next = none then low.node else none

/-! ## Deletion -/

/-- `can_delete_node`. -/
def canDeleteNode (c : TopicNode) : Bool :=
  !(c.upNhbr.isSome && c.upHier.isSome) && !(c.dnNhbr.isSome || c.dnHier.isSome)

def TopicTree.setDnNhbr (σ : TopicTree) (i : NodeIdx) (r : Option NodeIdx) : TopicTree :=
  σ.set i { σ.nodes i with dnNhbr := r }

def TopicTree.setUpNhbr (σ : TopicTree) (i : NodeIdx) (r : Option NodeIdx) : TopicTree :=
  σ.set i { σ.nodes i with upNhbr := r }

def TopicTree.setDnHier (σ : TopicTree) (i : NodeIdx) (r : Option NodeIdx) : TopicTree :=
  σ.set i { σ.nodes i with dnHier := r }

def TopicTree.setUpHier (σ : TopicTree) (i : NodeIdx) (r : Option NodeIdx) : TopicTree :=
  σ.set i { σ.nodes i with upHier := r }

/-- `node_delete`: the next node to look at. -/
def nodeDelete (σ : TopicTree) (i : NodeIdx) : Option NodeIdx × TopicTree :=
  let c := σ.nodes i
  if canDeleteNode c then
    let σ := match c.upNhbr with
      | some j => σ.setDnNhbr j none
      | none => σ
    let σ := match c.upHier with
      | some j => σ.setDnHier j none
      | none => σ
    let next := if c.upHier.isSome then c.upHier else c.upNhbr
    let σ := if c.upNhbr = none ∧ c.upHier = none then { σ with rootNode := none } else σ
    (next, freeNode σ i)
  else (none, σ)

/-- A node that nobody has a use for, as `try_node_delete` asks. -/
def NodeData.useless (c : NodeData) : Bool :=
  !c.retain && c.willCl.isNone && c.pgMap == pgMapAllDflts && c.clMap .qos0 == 0 &&
    c.clMap .qos1 == 0 && c.clMap .qos2 == 0

/-- The loop of `try_node_delete`. -/
def tryNodeDeleteLoop : Nat → TopicTree → Option NodeIdx → Option TopicTree
  | _, σ, none => some σ
  | 0, _, some _ => none
  | fuel + 1, σ, some i =>
    if (σ.nodes i).val.useless then
      let (next, σ) := nodeDelete σ i
      tryNodeDeleteLoop fuel σ next
    else some σ

/-- `try_node_delete`. -/
def tryNodeDelete (σ : TopicTree) (i : NodeIdx) : Option TopicTree :=
  tryNodeDeleteLoop loopBound σ (some i)

/-! ## Creation -/

/-- The loop of `hier_nodes_create`: `built` is `base` and `prev`, then `base` and the leaf. -/
def hierNodesLoop : Nat → TopicTree → Option (NodeIdx × NodeIdx) → List UInt8 →
    Option (Option (NodeIdx × NodeIdx) × TopicTree)
  | 0, _, _, _ => none
  | fuel + 1, σ, built, topstr =>
    match allocNodeSubtop σ topstr with
    | (none, σ) =>
      match built with
      | none => some (none, σ)
      | some (_, prev) => (tryNodeDelete σ prev).map fun σ => (none, σ)
    | (some (node, next), σ) =>
      let (base, σ) := match built with
        | none => (node, σ)
        | some (base, prev) => (base, (σ.setDnHier prev (some node)).setUpHier node (some prev))
      match next with
      | none => some (some (base, node), σ)
      | some topstr => hierNodesLoop fuel σ (some (base, node)) topstr

/-- `hier_nodes_create`: the first node and the leaf. -/
def hierNodesCreate (σ : TopicTree) (topstr : List UInt8) :
    Option (Option (NodeIdx × NodeIdx) × TopicTree) :=
  hierNodesLoop loopBound σ none topstr

/-- The loop of `install_nhbr_node`: the last of the neighbours. -/
def lastNhbr (nodes : NodeIdx → TopicNode) : Nat → NodeIdx → Option NodeIdx
  | 0, _ => none
  | fuel + 1, i =>
    match (nodes i).dnNhbr with
    | none => some i
    | some j => lastNhbr nodes fuel j

/-- `install_nhbr_node`. -/
def installNhbrNode (σ : TopicTree) (base node : NodeIdx) : Option TopicTree :=
  (lastNhbr σ.nodes loopBound base).map fun last =>
    (σ.setDnNhbr last (some node)).setUpNhbr node (some last)

/-- `set_up_hier_nodes`. -/
def setUpHierNodes (σ : TopicTree) (up dn : NodeIdx) : TopicTree :=
  (σ.setDnHier up (some dn)).setUpHier dn (some up)

/-- `topic_node_create`: the leaf. -/
def topicNodeCreate (σ : TopicTree) (topstr : List UInt8) :
    Option (Option NodeIdx × TopicTree) :=
  match lowestNodeFind σ topstr with
  | none => none
  | some ⟨base, _, none⟩ => some (base, σ)
  | some ⟨base, flagNh, some rest⟩ =>
    match hierNodesCreate σ rest with
    | none => none
    | some (none, σ) => some (none, σ)
    | some (some (node, leaf), σ) =>
      match base with
      | none => some (some leaf, { σ with rootNode := some node })
      | some base =>
        if flagNh then (installNhbrNode σ base node).map fun σ => (some leaf, σ)
        else some (some leaf, setUpHierNodes σ base node)

end SimpleLink.Server
