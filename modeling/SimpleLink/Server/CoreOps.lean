import SimpleLink.Server.SessionTree

/-!
# The operations of the server (`server_core.c`)

`ServerCore` is what `server_core.c` keeps: the topic tree and its node stack, the
clients and the plug-ins. A step is a message from a client, an event of its
connection, or a call of an application; those about a connection are for
clients that have one. A step that the source does not come back from, or that
leaves an array, has no outcome.
-/

namespace SimpleLink.Server

open Lib LinkTree

structure ServerCore where
  tree : TopicTree
  stack : NodeStack
  cl : ClMgmt
  inUse : PluginIdx → Bool

/-- `mqtt_server_init`. -/
def serverCoreInit (sendOk mallocOk : Nat → Bool) : ServerCore :=
  ⟨topicNodeInit, [], clMgmtInit sendOk mallocOk, fun _ => false⟩

def cStr (buf : List UInt8) : List UInt8 := buf.takeWhile (· ≠ 0)

/-! ## SUBSCRIBE -/

def subscribed (c : NodeData) (qid : MqttQos) (map : BitVec 32) : NodeData :=
  { c with clMap := fun q =>
      if q = qid then c.clMap q &&& ~~~map ||| map else c.clMap q &&& ~~~map }

/-- `SUB_node_create`. -/
def ServerCore.subNodeCreate (s : ServerCore) (topSUB : List UInt8) (qid : MqttQos) (usr : ClIdx) :
    Option (Option NodeIdx × ServerCore) :=
  match topicNodeCreate s.tree topSUB with
  | none => none
  | some (none, σ) => some (none, { s with tree := σ })
  | some (some leaf, σ) =>
    let c := subscribed (σ.nodes leaf).val qid (clBmapGet s.cl usr)
    some (some leaf, { s with tree := σ.setVal leaf c, cl := clSubCountAdd s.cl usr })

/-- The QoS of an acknowledgement; without one it is `QFL_VALUE`. -/
abbrev SubAck := Option MqttQos

/-- The rest of `ml_wc_nodes_create`, once the leaf of the parent is there. -/
def ServerCore.wcNodeCreate (s : ServerCore) (parentLeaf : Option NodeIdx) (topSUB : List UInt8)
    (qid : MqttQos) (usr : ClIdx) : Option (SubAck × ServerCore) :=
  match s.subNodeCreate topSUB qid usr with
  | none => none
  | some (some _, s) => some (some qid, s)
  | some (none, s) =>
    match parentLeaf with
    | none => some (none, s)
    | some leaf => some (none, { s with tree := (nodeDelete s.tree leaf).2 })

/-- `ml_wc_nodes_create`, with the topic of the parent and the filter. -/
def ServerCore.mlWcNodesCreate (s : ServerCore) (parentTopSUB topSUB : List UInt8) (qid : MqttQos)
    (usr : ClIdx) : Option (SubAck × ServerCore) :=
  if parentTopSUB = [] then s.wcNodeCreate none topSUB qid usr
  else
    match s.subNodeCreate parentTopSUB qid usr with
    | none => none
    | some (none, s) => some (none, s)
    | some (some leaf, s) => s.wcNodeCreate (some leaf) topSUB qid usr

/-- The loop of `proc_sub_ml_wildcard`, from the end of the buffer: what is copied, and what is
before it. -/
def parentLoop : Nat → List UInt8 → List UInt8 → List UInt8 × List UInt8
  | 0, up, subtop => (subtop, up)
  | _ + 1, [], subtop => (subtop, [])
  | k + 1, c :: up, subtop =>
    if c = slash then (subtop, c :: up) else parentLoop k up (c :: subtop)

/-- `proc_sub_ml_wildcard`. -/
def ServerCore.procSubMlWildcard (s : ServerCore) (topSUB : List UInt8) (qos : MqttQos)
    (usr : ClIdx) : Option (SubAck × ServerCore) :=
  let toplen := topSUB.length
  -- `#` and the `/` before it are NULs now
  let buf := topSUB.take (toplen - 2) ++ List.replicate (min toplen 2) 0
  let (subtop, up) := parentLoop (min toplen maxSubtopLen) buf.reverse []
  if up ≠ [] ∧ up.head? ≠ some slash then some (none, s)
  else
    let grandpa := cStr up.reverse
    let parent := cStr subtop
    match procSubMlWcTree grandpa parent s.tree qos usr s.cl s.stack with
    | none => none
    | some (a, _, st) =>
      { s with cl := a.cl, stack := st }.mlWcNodesCreate (grandpa ++ parent) topSUB a.min usr

/-- `proc_sub_sl_or_no_wc`. -/
def ServerCore.procSubSlOrNoWc (s : ServerCore) (topSUB : List UInt8) (qos : MqttQos) (usr : ClIdx) :
    Option (SubAck × ServerCore) :=
  match procPubTreeSubTop topSUB s.tree s.tree.rootNode [] qos usr s.cl s.stack with
  | none => none
  | some (a, _, st) =>
    match { s with cl := a.cl, stack := st }.subNodeCreate topSUB a.min usr with
    | none => none
    | some (none, s) => some (none, s)
    | some (some _, s) => some (some a.min, s)

/-- `is_valid_char_order`. -/
def isValidCharOrder (prev curr : UInt8) : Bool :=
  !((prev != slash && curr == plus) || (prev == plus && curr != slash) ||
    (prev != slash && curr == hash) || prev == hash)

/-- The loop of `is_valid_SUB_top`. -/
def validFrom : UInt8 → List UInt8 → Bool
  | _, [] => true
  | curr, c :: buf => curr != 0 && isValidCharOrder curr c && validFrom c buf

/-- `is_valid_SUB_top`. -/
def isValidSubTop : List UInt8 → Bool
  | [] => false
  | c :: buf => c != 0 && validFrom c buf

/-- The topic of an entry of a SUBSCRIBE. An empty one, which `procSubEntry` does not pass on, is read
as one character. -/
def subTopic (topic : List UInt8) (qos : MqttQos) : List UInt8 :=
  if topic = [] then [UInt8.ofNat qos.val] else procForwardSlash topic

/-- An entry of `proc_sub_msg_rx`. -/
def ServerCore.procSubTopic (s : ServerCore) (usr : ClIdx) (topic : List UInt8) (qos : MqttQos) :
    Option (SubAck × ServerCore) :=
  let buf := subTopic topic qos
  if isValidSubTop buf then
    if buf.getLast? = some hash then s.procSubMlWildcard buf qos usr
    else s.procSubSlOrNoWc (cStr buf) qos usr
  else some (none, s)

/-- `QOS_VALUE`, where it is a QoS. -/
def qosValue (qosreq : UInt8) : Option MqttQos :=
  if qosreq &&& 3 = 0 then some .qos0
  else if qosreq &&& 3 = 1 then some .qos1
  else if qosreq &&& 3 = 2 then some .qos2
  else none

/-- An entry as it was received: nothing checks the byte of its QoS. An empty filter has no buffer, and
the end of it is written behind `NULL`; with a QoS of 3 `cl_map[3]` may be. -/
def ServerCore.procSubEntry (s : ServerCore) (usr : ClIdx) (topic : List UInt8) (qosreq : UInt8) :
    Option (SubAck × ServerCore) :=
  if topic = [] then none
  else
    match qosValue qosreq with
    | some qos => s.procSubTopic usr topic qos
    | none => if isValidSubTop (procForwardSlash topic) then none else some (none, s)

/-- `proc_sub_msg_rx`. -/
def ServerCore.procSubMsgRx (usr : ClIdx) :
    List (List UInt8 × UInt8) → ServerCore → Option (List SubAck × ServerCore)
  | [], s => some ([], s)
  | (topic, qosreq) :: topics, s =>
    match s.procSubEntry usr topic qosreq with
    | none => none
    | some (ack, s) =>
      (ServerCore.procSubMsgRx usr topics s).map fun (acks, s) => (ack :: acks, s)

/-! ## UNSUBSCRIBE -/

/-- `leaf_un_sub`. -/
def ServerCore.leafUnSub (s : ServerCore) (leaf : NodeIdx) (usr : ClIdx) : Option ServerCore :=
  let map := clBmapGet s.cl usr
  match qosOf (s.tree.nodes leaf).val map with
  | none => some s
  | some _ =>
    let (σ, m) := clearFirst usr map (s.tree, s.cl) leaf
    (tryNodeDelete σ leaf).map fun σ => { s with tree := σ, cl := m }

def ServerCore.unSubFound (s : ServerCore) (topic : List UInt8) (usr : ClIdx) : Option ServerCore :=
  match leafNodeFind s.tree topic with
  | none => none
  | some none => some s
  | some (some leaf) => s.leafUnSub leaf usr

/-- `work_buf` once the `#` is back: whatever was before it is a `/` now. -/
def hashRestored (topic : List UInt8) : List UInt8 :=
  topic.take (topic.length - 2) ++ if 1 < topic.length then [slash, hash] else [hash]

/-- An entry of `proc_un_sub_msg`; of an empty topic, the byte before the buffer is read. -/
def ServerCore.procUnSubTopic (s : ServerCore) (usr : ClIdx) (topic : List UInt8) :
    Option ServerCore :=
  if topic = [] then none
  else if 0 ∉ topic ∧ topic.getLast? = some hash then
    match s.unSubFound (topic.take (topic.length - 2)) usr with
    | none => none
    | some s => s.unSubFound (hashRestored topic) usr
  else s.unSubFound (cStr topic) usr

/-- `proc_un_sub_msg`. -/
def ServerCore.procUnSubMsg (usr : ClIdx) : List (List UInt8) → ServerCore → Option ServerCore
  | [], s => some s
  | topic :: topics, s =>
    match s.procUnSubTopic usr topic with
    | none => none
    | some s => ServerCore.procUnSubMsg usr topics s

/-! ## PUBLISH -/

/-- `node_data_update`: whether the data are stored. -/
def nodeDataUpdate (c : NodeData) (dropQid0 : Bool) (data : Option (List UInt8)) (qid : MqttQos)
    (retain : Bool) (m : ClMgmt) : Bool × NodeData × ClMgmt :=
  let reset := { c with myData := none, qid := 0, retain := false }
  let set (data : Option (List UInt8)) : NodeData :=
    { c with myData := data, qid := BitVec.ofNat 2 qid.val, retain := retain }
  if dropQid0 ∧ qid = .qos0 then (data.getD [] = [], reset, m)
  else
    match data with
    | none => (true, set none, m)
    | some bytes =>
      let (ok, env) := m.env.malloc
      if ok then (bytes ≠ [], set (some bytes), { m with env := env })
      else (bytes = [], reset, { m with env := env })

/-- `node_data_update` with `NODE_DATA_RESET_PARAMS`. -/
def nodeDataReset (c : NodeData) : NodeData := { c with myData := none, qid := 0, retain := false }

/-- The end of `_proc_pub_msg_rx`, for a message that is retained. -/
def ServerCore.retainData (s : ServerCore) (top : List UInt8) (data : Option (List UInt8))
    (qos : MqttQos) : Option (Bool × ServerCore) :=
  match topicNodeCreate s.tree top with
  | none => none
  | some (none, σ) => some (false, { s with tree := σ })
  | some (some leaf, σ) =>
    let (ok, c, m) := nodeDataUpdate (σ.nodes leaf).val true data qos true s.cl
    (tryNodeDelete (σ.setVal leaf c) leaf).map fun σ => (ok, { s with tree := σ, cl := m })

/-- `MQP_PUB_PAY_BUF` of a client's packet; the application has a buffer of its own. -/
def payBuf (usr : Option ClIdx) (data : List UInt8) : Option (List UInt8) :=
  if usr.isSome ∧ data = [] then none else some data

/-- Whether a PUBLISH is new, or its identifier finds room: `cl_mgmt_qos2_pub_rx_update`, for QoS2. -/
def pubTracked (m : ClMgmt) (usr : Option ClIdx) (msgId : UInt8) (qos : MqttQos) :
    Option (Bool × ClMgmt) :=
  if msgId ≠ 0 ∧ qos = .qos2 then
    match usr with
    | none => some (false, m)
    | some i => clMgmtQos2PubRxUpdate m i msgId.toUInt16
  else some (true, m)

/-- `_proc_pub_msg_rx`. -/
def ServerCore.procPubMsgRx (s : ServerCore) (usr : Option ClIdx) (topic data : List UInt8)
    (msgId : UInt8) (qos : MqttQos) (retain : Bool) : Option (Bool × List PluginMsg × ServerCore) :=
  match pubTopicRead topic with
  | none => some (false, [], s)
  | some buf =>
    let top := procForwardSlash buf
    match pubTracked s.cl usr msgId qos with
    | none => none
    | some (false, m) => some (false, [], { s with cl := m })
    | some (true, m) =>
      match procSubTreeTopPUB s.inUse top ⟨topic, data, qos, false⟩ s.tree m s.stack with
      | none => none
      | some (a, _, st) =>
        let s := { s with cl := a.cl, stack := st }
        if retain then
          (s.retainData top (payBuf usr data) qos).map fun (ok, s) => (ok, a.plugins, s)
        else some (true, a.plugins, s)

/-! ## Connections -/

/-- The will of a CONNECT: its topic, its message, if there is one, its QoS and its flag. -/
structure WillArgs where
  topic : List UInt8
  msg : Option (List UInt8)
  qos : MqttQos
  retain : Bool

/-- What `proc_connect_rx` is given. -/
structure ConnectArgs where
  ctx : Nat
  cleanSession : Bool
  clientId : Option (List UInt8)
  will : Option WillArgs
  /-- `plugin_connect` accepts the client. -/
  admitted : Bool

/-- The leaf of a will, unless it cannot be created or its message cannot be stored. -/
def ServerCore.willCreate (s : ServerCore) (will : WillArgs) : Option (Option NodeIdx × ServerCore) :=
  match topicNodeCreate s.tree (cStr will.topic) with
  | none => none
  | some (none, σ) => some (none, { s with tree := σ })
  | some (some leaf, σ) =>
    match nodeDataUpdate (σ.nodes leaf).val false will.msg will.qos will.retain s.cl with
    | (true, c, m) => some (some leaf, { s with tree := σ.setVal leaf c, cl := m })
    | (false, c, m) =>
      (tryNodeDelete (σ.setVal leaf c) leaf).map fun σ => (none, { s with tree := σ, cl := m })

/-- The end of `proc_connect_rx`: the client, if it is accepted. -/
def ServerCore.connectClient (s : ServerCore) (args : ConnectArgs) (leaf : Option NodeIdx) :
    Option (Option ClIdx × ServerCore) :=
  let id := (args.clientId.filter (· ≠ [])).map cStr
  match clConnectRx s.cl args.ctx args.cleanSession id (leaf.map Fin.val), leaf with
  | some (i, _, m), none => some (some i, { s with cl := m })
  | some (i, _, m), some leaf =>
    let c := { (s.tree.nodes leaf).val with willCl := some i }
    some (some i, { s with tree := s.tree.setVal leaf c, cl := m })
  | none, none => some (none, s)
  | none, some leaf =>
    let c := nodeDataReset (s.tree.nodes leaf).val
    (tryNodeDelete (s.tree.setVal leaf c) leaf).map fun σ => (none, { s with tree := σ })

/-- `proc_connect_rx`. -/
def ServerCore.procConnectRx (s : ServerCore) (args : ConnectArgs) :
    Option (Option ClIdx × ServerCore) :=
  if args.admitted then
    match args.will.filter (·.topic ≠ []) with
    | none => s.connectClient args none
    | some will =>
      match s.willCreate will with
      | none => none
      | some (none, s) => some (none, s)
      | some (some leaf, s) => s.connectClient args (some leaf)
  else some (none, s)

/-- `session_tree_delete`, on the whole. -/
def ServerCore.sessionTreeDelete (s : ServerCore) (usr : ClIdx) : Option ServerCore :=
  (Server.sessionTreeDelete usr (s.tree, s.cl) s.stack).map fun ((σ, m), _, st) =>
    { s with tree := σ, cl := m, stack := st }

/-- `on_connack_send`. -/
def ServerCore.onConnackSend (s : ServerCore) (usr : ClIdx) (cleanSession : Bool) :
    Option ServerCore :=
  match (if cleanSession then s.sessionTreeDelete usr else some s) with
  | none => none
  | some s => (clOnConnackSend s.cl usr cleanSession).map fun m => { s with cl := m }

/-- `proc_client_will`. -/
def ServerCore.procClientWill (s : ServerCore) (leaf : NodeIdx) :
    Option (List PluginMsg × ServerCore) :=
  match willTopic s.tree leaf with
  | none => none
  | some none => some ([], s)
  | some (some topic) =>
    let c := (s.tree.nodes leaf).val
    let msg : PubMsg := ⟨topic, c.myData.getD [], .ofVal c.qid.toNat, c.retain⟩
    (procSubTreeTopPUB s.inUse topic msg s.tree s.cl s.stack).map fun (a, _, st) =>
      (a.plugins, { s with cl := a.cl, stack := st })

/-- The end of `on_cl_net_close`. -/
def ServerCore.sessionClose (s : ServerCore) (usr : ClIdx) : Option ServerCore :=
  match (if clCanSessionDelete s.cl usr then s.sessionTreeDelete usr else some s) with
  | none => none
  | some s => some { s with cl := clOnNetClose s.cl usr }

/-- `on_cl_net_close`; `will` is an index into the nodes. -/
def ServerCore.onClNetClose (s : ServerCore) (usr : ClIdx) (due2err : Bool) :
    Option (List PluginMsg × ServerCore) :=
  match (s.cl.users usr).will with
  | none => (s.sessionClose usr).map ([], ·)
  | some w =>
    if hw : w < maxTopNodes then
      let leaf : NodeIdx := ⟨w, hw⟩
      -- the leaf holds the will of another client by now
      if (s.tree.nodes leaf).val.willCl ≠ some usr then some ([], s)
      else
        match (if due2err then s.procClientWill leaf else some ([], s)) with
        | none => none
        | some (plugins, s) =>
          let c := { nodeDataReset (s.tree.nodes leaf).val with willCl := none }
          match tryNodeDelete (s.tree.setVal leaf c) leaf with
          | none => none
          | some σ => ({ s with tree := σ }.sessionClose usr).map (plugins, ·)
    else none

/-! ## Plug-ins -/

/-- `proc_topic_enroll`: the value that is returned. -/
def ServerCore.procTopicEnroll (s : ServerCore) (pgId : PluginIdx) (topic : List UInt8)
    (qos : MqttQos) : Option (Int × ServerCore) :=
  if topic = [] then some (-1, s)
  else if wbufLen < topic.length + 1 then some (-2, s)
  else
    match topicNodeCreate s.tree (cStr topic) with
    | none => none
    | some (none, σ) => some (-3, { s with tree := σ })
    | some (some leaf, σ) =>
      let c := (σ.nodes leaf).val
      some (0, { s with tree := σ.setVal leaf { c with pgMap := pgMapValSetup c.pgMap qos pgId } })

/-- `proc_topic_cancel`. -/
def ServerCore.procTopicCancel (s : ServerCore) (pgId : PluginIdx) (topic : List UInt8) :
    Option (Int × ServerCore) :=
  if wbufLen < topic.length + 1 then some (-2, s)
  else
    match leafNodeFind s.tree (cStr topic) with
    | none => none
    | some none => some (-2, s)
    | some (some leaf) =>
      let c := (s.tree.nodes leaf).val
      let c := { c with pgMap := pgMapValReset c.pgMap pgId }
      (tryNodeDelete (s.tree.setVal leaf c) leaf).map fun σ => (0, { s with tree := σ })

/-- `plugin_alloc`: the first plug-in that is not in use. -/
def ServerCore.pluginAlloc (s : ServerCore) : Option PluginIdx × ServerCore :=
  match (List.finRange maxPlugins).find? fun i => !s.inUse i with
  | none => (none, s)
  | some i => (some i, { s with inUse := Function.update s.inUse i true })

/-! ## Steps -/

inductive CoreOp where
  | subscribe (i : ClIdx) (topics : List (List UInt8 × UInt8))
  | unSubscribe (i : ClIdx) (topics : List (List UInt8))
  | publish (i : ClIdx) (topic data : List UInt8) (msgId : UInt8) (qos : MqttQos) (retain : Bool)
  | ack (i : ClIdx) (msgType : AckType) (msgId : UInt16)
  | connect (args : ConnectArgs)
  | connack (i : ClIdx) (cleanSession : Bool)
  | netClose (i : ClIdx) (due2err : Bool)
  | appRegister
  | appPublish (topic data : List UInt8) (qos : MqttQos) (retain : Bool)
  | enroll (pg : PluginIdx) (topic : List UInt8) (qos : MqttQos)
  | cancel (pg : PluginIdx) (topic : List UInt8)

/-- What a step returns: a value, the acknowledgements of a SUBSCRIBE, the calls of the plug-ins. -/
structure CoreReply where
  value : Int
  acks : List SubAck
  plugins : List PluginMsg

def CoreReply.idle : CoreReply := ⟨0, [], []⟩

def boolValue (ok : Bool) : Int := if ok then 0 else -1

def coreStep (s : ServerCore) : CoreOp → Option (ServerCore × CoreReply)
  | .subscribe i topics =>
    if (s.cl.users i).connected then
      (s.procSubMsgRx i topics).map fun (acks, s) => (s, ⟨0, acks, []⟩)
    else some (s, .idle)
  | .unSubscribe i topics =>
    if (s.cl.users i).connected then (s.procUnSubMsg i topics).map (·, .idle)
    else some (s, .idle)
  | .publish i topic data msgId qos retain =>
    if (s.cl.users i).connected then
      (s.procPubMsgRx (some i) topic data msgId qos retain).map
        fun (ok, plugins, s) => (s, ⟨boolValue ok, [], plugins⟩)
    else some (s, .idle)
  | .ack i msgType msgId =>
    if (s.cl.users i).connected then
      (clNotifyAck s.cl i msgType msgId).map
        fun (ok, m) => ({ s with cl := m }, ⟨boolValue ok, [], []⟩)
    else some (s, .idle)
  | .connect args =>
    (s.procConnectRx args).map fun (i, s) => (s, ⟨boolValue i.isSome, [], []⟩)
  | .connack i cleanSession =>
    if (s.cl.users i).assigned then (s.onConnackSend i cleanSession).map (·, .idle)
    else some (s, .idle)
  | .netClose i due2err =>
    if (s.cl.users i).connected ∨ (s.cl.users i).assigned then
      (s.onClNetClose i due2err).map fun (plugins, s) => (s, ⟨0, [], plugins⟩)
    else some (s, .idle)
  | .appRegister =>
    let (pg, s) := s.pluginAlloc
    some (s, ⟨boolValue pg.isSome, [], []⟩)
  | .appPublish topic data qos retain =>
    (s.procPubMsgRx none topic data 0 qos retain).map
      fun (ok, plugins, s) => (s, ⟨boolValue ok, [], plugins⟩)
  | .enroll pg topic qos =>
    if s.inUse pg then (s.procTopicEnroll pg topic qos).map fun (v, s) => (s, ⟨v, [], []⟩)
    else some (s, .idle)
  | .cancel pg topic =>
    if s.inUse pg then (s.procTopicCancel pg topic).map fun (v, s) => (s, ⟨v, [], []⟩)
    else some (s, .idle)

end SimpleLink.Server
