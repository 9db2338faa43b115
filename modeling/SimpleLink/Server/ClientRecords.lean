import Mathlib.Data.List.TakeWhile
import SimpleLink.Server.NoLoss
import SimpleLink.Server.SubCount

/-!
# Client records (`client_mgmt.c`)

A record of `users` belongs to one client identifier for as long as it is in use. `Keeps` says so of a
step, and that a client which comes back to its session gets its record. A record has the bytes of the
identifier up to its first NUL, sixty-four at most, and a client without an identifier is given a name
that another client may have chosen. `Distinct` is when none of that matters, and `records_exact` that
the runs of such steps are the ones that keep the records apart.
-/

namespace SimpleLink.Server

open Lib Mqtt

/-! ## Steps -/

/-- A CONNECT packet; the identifier is as received, and empty for a client without one. -/
structure ConnectReq where
  ctx : Nat
  cleanSession : Bool
  clientId : List UInt8
  will : Option Nat

/-- What `proc_connect_rx` of `server_core.c` passes on of the identifier. -/
def ConnectReq.arg (req : ConnectReq) : Option (List UInt8) :=
  if req.clientId = [] then none else some (cStr req.clientId)

/-- `cl_connect_rx`, for the packets that `server_pkts.c` does not reject. -/
def connectRx (m : ClMgmt) (req : ConnectReq) : Option (ClIdx × Bool × ClMgmt) :=
  if req.clientId = [] ∧ req.cleanSession = false then none
  else clConnectRx m req.ctx req.cleanSession req.arg req.will

/-- The clients, and for a record the identifier of the CONNECT that it was handed to last. -/
structure Records where
  cl : ClMgmt
  owner : ClIdx → Option (List UInt8)

def recordsInit (sendOk mallocOk : Nat → Bool) : Records := ⟨clMgmtInit sendOk mallocOk, fun _ => none⟩

def ClOp.keepsRecords : ClOp → Prop
  | .connect .. => False
  | .onNetClose _ => False
  | _ => True

inductive RecordOp where
  | connect (req : ConnectReq)
  | netClose (i : ClIdx)
  | call (op : ClOp) (h : op.keepsRecords)

/-- The outcome names the record that was handed to a client. -/
def recordStep (s : Records) : RecordOp → Option (Records × Option ClIdx)
  | .connect req =>
    match connectRx s.cl req with
    | none => some (s, none)
    | some (i, _, m) =>
      (clOnConnackSend m i req.cleanSession).map fun m =>
        (⟨m, Function.update s.owner i (some req.clientId)⟩, some i)
  | .netClose i =>
    if (s.cl.users i).connected then some ({ s with cl := clOnNetClose s.cl i }, none)
    else some (s, none)
  | .call op _ => (clStep s.cl op).map fun r => ({ s with cl := r.1 }, none)

/-! ## The property -/

def InUse (m : ClMgmt) (i : ClIdx) : Prop := (m.users i).isFree = false

/-- The records in use have different identifiers, and an identifier has one of them. -/
structure RecordsOk (s : Records) : Prop where
  idsDistinct : ∀ i j, InUse s.cl i → InUse s.cl j →
    (s.cl.users i).clientId = (s.cl.users j).clientId → i = j
  oneRecord : ∀ i j id, id ≠ [] → InUse s.cl i → InUse s.cl j → s.owner i = some id →
    s.owner j = some id → i = j

/-- The session data of a client are as they were. -/
structure SameSession (m m' : ClMgmt) (i : ClIdx) : Prop where
  nSub : (m'.users i).nSub = (m.users i).nSub
  rxQueue : (m'.users i).qos2RxCq = (m.users i).qos2RxCq
  txQueue : (m'.users i).qos2TxCq = (m.users i).qos2TxCq
  waiting : m'.qosAck1Wl = m.qosAck1Wl
  kept : m'.sessMqpWl = m.sessMqpWl

/-- The record that a CONNECT is handed has no connected client, and no other identifier; a client that
comes back to a session with data is handed its record, with the data. -/
structure HandsOver (s : Records) (req : ConnectReq) : Prop where
  away : ∀ i present m', connectRx s.cl req = some (i, present, m') →
    (s.cl.users i).connected = false
  sameOwner : ∀ i present m', connectRx s.cl req = some (i, present, m') → InUse s.cl i →
    s.owner i = some req.clientId
  back : ∀ j, req.cleanSession = false → req.clientId ≠ [] → InUse s.cl j →
    s.owner j = some req.clientId → (s.cl.users j).connected = false →
    hasSessionData s.cl j = true →
    ∃ m', connectRx s.cl req = some (j, true, m') ∧ SameSession s.cl m' j

def Keeps (s : Records) (op : RecordOp) : Prop :=
  (∀ req, op = .connect req → HandsOver s req) ∧
    ∀ s' o, recordStep s op = some (s', o) → RecordsOk s'

/-! ## The condition -/

def storedId (i : ClIdx) (id : List UInt8) : List UInt8 :=
  if id = [] then assignClIndexAsId i else (cStr id).take maxClientIdLen

def freeUsr (m : ClMgmt) : Option ClIdx :=
  (List.finRange maxClients).find? fun i => (m.users i).isFree

/-- A client without an identifier is given a name that no record in use has; a record with what is
stored of an identifier, if its client is away, was last used with that identifier. -/
def Distinct (s : Records) : RecordOp → Prop
  | .connect req =>
    if req.clientId = [] then
      req.cleanSession = true → ∀ i, freeUsr s.cl = some i → ∀ j, InUse s.cl j →
        (s.cl.users j).clientId ≠ assignClIndexAsId i
    else
      ∀ i, InUse s.cl i → (s.cl.users i).connected = false →
        (s.cl.users i).clientId = storedId i req.clientId → s.owner i = some req.clientId
  | _ => True

theorem distinct_anonymous {s : Records} {req : ConnectReq} (hid : req.clientId = []) :
    Distinct s (.connect req) ↔ (req.cleanSession = true → ∀ i, freeUsr s.cl = some i →
      ∀ j, InUse s.cl j → (s.cl.users j).clientId ≠ assignClIndexAsId i) := by
  unfold Distinct
  dsimp only
  rw [if_pos hid]

theorem distinct_named {s : Records} {req : ConnectReq} (hid : req.clientId ≠ []) :
    Distinct s (.connect req) ↔ ∀ i, InUse s.cl i → (s.cl.users i).connected = false →
      (s.cl.users i).clientId = storedId i req.clientId → s.owner i = some req.clientId := by
  unfold Distinct
  dsimp only
  rw [if_neg hid]

/-! ## Records -/

/-- Of the records, only the session data change. -/
def SameRecords (m m' : ClMgmt) : Prop :=
  ∀ j, ∃ rx tx n, m'.users j = { m.users j with qos2RxCq := rx, qos2TxCq := tx, nSub := n }

theorem SameRecords.of_users {m m' : ClMgmt} (h : m'.users = m.users) : SameRecords m m' :=
  fun j => ⟨(m.users j).qos2RxCq, (m.users j).qos2TxCq, (m.users j).nSub, by rw [h]⟩

theorem SameRecords.setUser (m : ClMgmt) (i : ClIdx) (rx tx : PubQos2Cq) (n : Nat) :
    SameRecords m (m.setUser i { m.users i with qos2RxCq := rx, qos2TxCq := tx, nSub := n }) := by
  intro j
  by_cases hj : j = i
  · subst hj
    exact ⟨rx, tx, n, setUser_users_self ..⟩
  · exact ⟨(m.users j).qos2RxCq, (m.users j).qos2TxCq, (m.users j).nSub, setUser_users_ne _ _ hj⟩

theorem SameRecords.trans {m₁ m₂ m₃ : ClMgmt} (h : SameRecords m₁ m₂) (h' : SameRecords m₂ m₃) :
    SameRecords m₁ m₃ := by
  intro j
  obtain ⟨rx, tx, n, hj⟩ := h j
  obtain ⟨rx', tx', n', hj'⟩ := h' j
  exact ⟨rx', tx', n', by rw [hj', hj]⟩

theorem sameRecords_subCount (m : ClMgmt) (i : ClIdx) (add : Bool) :
    SameRecords m (if add then clSubCountAdd m i else clSubCountDel m i) := by
  have hset : ∀ n, SameRecords m
      (if (m.users i).connected then m.setUser i { m.users i with nSub := n } else m) := by
    intro n
    split
    · exact SameRecords.setUser m i (m.users i).qos2RxCq (m.users i).qos2TxCq n
    · exact .of_users rfl
  cases add with
  | true => exact hset _
  | false => exact hset _

theorem users_ack1UnmapRmfreeTry (m : ClMgmt) (i : ClIdx) (msgId : UInt16) :
    (ack1UnmapRmfreeTry m i msgId).users = m.users := by
  unfold ack1UnmapRmfreeTry
  split
  · rfl
  · split <;> rfl

theorem sameRecords_pubrec {m m' : ClMgmt} {i : ClIdx} {id : UInt16} {ok : Bool}
    (h : procPubRecRx m i id = some (ok, m')) : SameRecords m m' := by
  unfold procPubRecRx at h
  split at h
  · cases h
    exact .of_users rfl
  · dsimp only at h
    split at h
    · cases h
    · rename_i cq _
      cases h
      refine SameRecords.trans ?_ (.of_users (mqttVhMsgSend_users ..))
      exact SameRecords.setUser m i (m.users i).qos2RxCq cq (m.users i).nSub
    · cases h
      exact .of_users rfl

theorem sameRecords_pubrel {m m' : ClMgmt} {i : ClIdx} {id : UInt16} {ok : Bool}
    (h : procPubRelRx m i id = some (ok, m')) : SameRecords m m' := by
  unfold procPubRelRx at h
  dsimp only at h
  have hsend : SameRecords m (mqttVhMsgSend m (m.users i).ctx .pubcomp id).2 :=
    .of_users (mqttVhMsgSend_users ..)
  split at h
  · cases h
  · cases h
    exact hsend
  · split at h
    · cases h
    · rename_i cq _ _
      cases h
      have hset := SameRecords.setUser (mqttVhMsgSend m (m.users i).ctx .pubcomp id).2 i cq
        (m.users i).qos2TxCq (m.users i).nSub
      rw [mqttVhMsgSend_users] at hset
      exact hsend.trans hset

theorem sameRecords_notifyAck {m m' : ClMgmt} {i : ClIdx} {t : AckType} {id : UInt16} {ok : Bool}
    (h : clNotifyAck m i t id = some (ok, m')) : SameRecords m m' := by
  cases t with
  | puback =>
    cases h
    exact .of_users (users_ack1UnmapRmfreeTry m i id)
  | pubrec => exact sameRecords_pubrec h
  | pubrel => exact sameRecords_pubrel h
  | pubcomp =>
    unfold clNotifyAck at h
    dsimp only at h
    split at h
    · cases h
    · rename_i cq _ _
      cases h
      exact SameRecords.setUser m i (m.users i).qos2RxCq cq (m.users i).nSub

theorem sameRecords_clStep {m m' : ClMgmt} {op : ClOp} {e : Option ClIdx} (hctx : HasCtx m)
    (hop : op.keepsRecords) (h : clStep m op = some (m', e)) : SameRecords m m' := by
  cases op with
  | pubMsgSend topic data qos retain clMap =>
    obtain ⟨m₁, he, happ⟩ := pubMsgSend_appends hctx topic data qos retain clMap
    unfold clStep at h
    dsimp only at h
    rw [he] at h
    cases h
    exact .of_users happ.users
  | connect ctx cleanSession clientId will => exact hop.elim
  | onNetClose i => exact hop.elim
  | notifyAck i t id =>
    unfold clStep at h
    dsimp only at h
    split at h
    · split at h
      · cases h
      · rename_i hack
        cases h
        exact sameRecords_notifyAck hack
    · cases h
      exact .of_users rfl
  | vhMsgSend i t id =>
    cases h
    exact .of_users (mqttVhMsgSend_users ..)
  | qos2PubRxUpdate i id =>
    unfold clStep clMgmtQos2PubRxUpdate at h
    dsimp only at h
    split at h
    · cases h
    · rename_i hrx
      cases h
      split at hrx
      · cases hrx
      · cases hrx
        exact .of_users rfl
      · split at hrx
        · cases hrx
        · rename_i cq _ _
          cases hrx
          exact SameRecords.setUser m i cq (m.users i).qos2TxCq (m.users i).nSub
  | subCount i add =>
    cases h
    exact sameRecords_subCount m i add

/-! ## Connecting -/

/-- The identifier that a free record is given. -/
def givenId (i : ClIdx) (clientId : Option (List UInt8)) : List UInt8 :=
  match clientId with
  | none => assignClIndexAsId i
  | some id => id.take maxClientIdLen

/-- `assign_cl_usr` when no record has the identifier. -/
theorem assignClUsr_fresh {m : ClMgmt} {clientId : Option (List UInt8)}
    (h : (findClUsr m.users clientId).2 = none) :
    assignClUsr m clientId = (freeUsr m).map fun i =>
      (i, m.setUser i { m.users i with clientId := givenId i clientId, assigned := true }) := by
  have hfind : findClUsr m.users clientId = (freeUsr m, none) := Prod.ext rfl h
  unfold assignClUsr
  rw [hfind]
  cases freeUsr m <;> rfl

/-- `assign_cl_usr` when a record has it. -/
theorem assignClUsr_match {m : ClMgmt} {clientId : Option (List UInt8)} {i : ClIdx}
    (h : (findClUsr m.users clientId).2 = some i) :
    assignClUsr m clientId = if (m.users i).connected then none
      else some (i, m.setUser i { m.users i with assigned := true }) := by
  have hfind : findClUsr m.users clientId = (freeUsr m, some i) := Prod.ext rfl h
  unfold assignClUsr
  rw [hfind]

theorem findClUsr_none {m : ClMgmt} {id : List UInt8}
    (h : (findClUsr m.users (some id)).2 = none) (j : ClIdx) :
    (m.users j).clientId ≠ id.take maxClientIdLen := by
  intro heq
  exact List.find?_eq_none.1 h j (List.mem_finRange j) (beq_iff_eq.2 heq)

theorem findClUsr_some {m : ClMgmt} {id : List UInt8} {i : ClIdx}
    (h : (findClUsr m.users (some id)).2 = some i) :
    (m.users i).clientId = id.take maxClientIdLen := by
  have hbeq := List.find?_some h
  exact beq_iff_eq.1 hbeq

/-- The record that `assign_cl_usr` finds, or the free one that it takes. -/
theorem assignClUsr_cases {m m' : ClMgmt} {clientId : Option (List UInt8)} {i : ClIdx}
    (h : assignClUsr m clientId = some (i, m')) :
    (∃ id, clientId = some id ∧ (m.users i).clientId = id.take maxClientIdLen ∧
      (m.users i).connected = false ∧ m' = m.setUser i { m.users i with assigned := true }) ∨
    ((∀ id, clientId = some id → ∀ j, (m.users j).clientId ≠ id.take maxClientIdLen) ∧
      freeUsr m = some i ∧ m' = m.setUser i { m.users i with
        clientId := givenId i clientId, assigned := true }) := by
  cases hfound : (findClUsr m.users clientId).2 with
  | none =>
    rw [assignClUsr_fresh hfound] at h
    obtain ⟨k, hfree, heq⟩ := Option.map_eq_some_iff.1 h
    cases heq
    refine .inr ⟨?_, hfree, rfl⟩
    rintro id rfl
    exact findClUsr_none hfound
  | some k =>
    rw [assignClUsr_match hfound] at h
    split at h
    · cases h
    · rename_i hconn
      cases h
      cases clientId with
      | none => cases hfound
      | some id => exact .inl ⟨id, rfl, findClUsr_some hfound, Bool.eq_false_iff.2 hconn, rfl⟩

theorem assignClUsr_found {m : ClMgmt} {id : List UInt8} {i : ClIdx}
    (hid : (m.users i).clientId = id.take maxClientIdLen)
    (hone : ∀ j, (m.users j).clientId = id.take maxClientIdLen → j = i)
    (haway : (m.users i).connected = false) :
    assignClUsr m (some id) = some (i, m.setUser i { m.users i with assigned := true }) := by
  cases hfound : (findClUsr m.users (some id)).2 with
  | none => exact absurd hid (findClUsr_none hfound i)
  | some k =>
    obtain rfl := hone k (findClUsr_some hfound)
    rw [assignClUsr_match hfound, haway]
    rfl

theorem hasSessionData_setUser {m : ClMgmt} {i : ClIdx} (u : ClientUsr)
    (h : u.nSub = (m.users i).nSub) : hasSessionData (m.setUser i u) i = hasSessionData m i := by
  unfold hasSessionData
  rw [setUser_users_self, h, setUser_qosAck1Wl, setUser_sessMqpWl]

/-- What `cl_connect_rx` hands over: the record that has the identifier, or a free one, which then has
it. -/
inductive HandedOver (m : ClMgmt) (req : ConnectReq) (i : ClIdx) : List UInt8 → Prop
  | found (hid : req.clientId ≠ []) (hsame : (m.users i).clientId = storedId i req.clientId) :
    HandedOver m req i (m.users i).clientId
  | fresh (hfree : freeUsr m = some i)
    (hnew : req.clientId ≠ [] → ∀ j, (m.users j).clientId ≠ storedId j req.clientId) :
    HandedOver m req i (storedId i req.clientId)

theorem storedId_of_ne {id : List UInt8} (h : id ≠ []) (i : ClIdx) :
    storedId i id = (cStr id).take maxClientIdLen := if_neg h

theorem storedId_ne_nil {req : ConnectReq} (h : req.arg ≠ some []) (i : ClIdx) :
    storedId i req.clientId ≠ [] := by
  by_cases hid : req.clientId = []
  · rw [hid]
    exact List.cons_ne_nil _ _
  · rw [storedId_of_ne hid]
    intro hnil
    rcases List.take_eq_nil_iff.1 hnil with h0 | hnil
    · cases h0
    · refine h ?_
      unfold ConnectReq.arg
      rw [if_neg hid, hnil]

theorem connectRx_cases {m m' : ClMgmt} {req : ConnectReq} {i : ClIdx} {present : Bool}
    (h : connectRx m req = some (i, present, m')) :
    (m.users i).connected = false ∧ storedId i req.clientId ≠ [] ∧
      (req.clientId = [] → req.cleanSession = true) ∧
      present = (!req.cleanSession && hasSessionData m i) ∧
      ∃ cid, HandedOver m req i cid ∧ m' = m.setUser i { m.users i with
        clientId := cid, assigned := true, ctx := some req.ctx, will := req.will } := by
  unfold connectRx at h
  split at h
  · cases h
  · rename_i hvalid
    refine ⟨(clConnectRx_keeps h).1, ?_⟩
    unfold clConnectRx at h
    split at h
    · cases h
    · rename_i hne
      refine ⟨storedId_ne_nil hne i, fun hid => ?_, ?_⟩
      · exact Bool.of_not_eq_false fun hclean => hvalid ⟨hid, hclean⟩
      split at h
      · cases h
      · rename_i i₁ m₁ hassign
        dsimp only at h
        obtain ⟨rfl, heq⟩ := Prod.mk.inj (Option.some.inj h)
        obtain ⟨hpresent, rfl⟩ := Prod.mk.inj heq
        rcases assignClUsr_cases hassign with ⟨id, harg, hsame, -, rfl⟩ | ⟨hnew, hfree, rfl⟩
        · refine ⟨?_, (m.users i₁).clientId, ?_, ?_⟩
          · exact hpresent.symm.trans
              (congrArg (!req.cleanSession && ·) (hasSessionData_setUser _ rfl))
          · have hid : req.clientId ≠ [] := by
              intro hid
              unfold ConnectReq.arg at harg
              rw [if_pos hid] at harg
              cases harg
            refine .found hid ?_
            unfold ConnectReq.arg at harg
            rw [if_neg hid] at harg
            cases harg
            rw [storedId_of_ne hid]
            exact hsame
          · rw [setUser_setUser, setUser_users_self]
        · have hgiven : givenId i₁ req.arg = storedId i₁ req.clientId := by
            unfold ConnectReq.arg storedId
            split <;> rfl
          refine ⟨?_, storedId i₁ req.clientId, .fresh hfree fun hid j => ?_, ?_⟩
          · exact hpresent.symm.trans
              (congrArg (!req.cleanSession && ·) (hasSessionData_setUser _ rfl))
          · rw [storedId_of_ne hid]
            refine hnew (cStr req.clientId) ?_ j
            unfold ConnectReq.arg
            exact if_neg hid
          · rw [setUser_setUser, setUser_users_self, hgiven]

theorem connectRx_found {m : ClMgmt} {req : ConnectReq} {i : ClIdx} (hid : req.clientId ≠ [])
    (hsame : (m.users i).clientId = storedId i req.clientId) (hne : (m.users i).clientId ≠ [])
    (hone : ∀ j, (m.users j).clientId = (m.users i).clientId → j = i)
    (haway : (m.users i).connected = false) :
    connectRx m req = some (i, !req.cleanSession && hasSessionData m i, m.setUser i
      { m.users i with assigned := true, ctx := some req.ctx, will := req.will }) := by
  rw [storedId_of_ne hid] at hsame
  have hcstr : cStr req.clientId ≠ [] := by
    intro hnil
    rw [hnil, List.take_nil] at hsame
    exact hne hsame
  have hassign := assignClUsr_found hsame (fun j hj => hone j (hj.trans hsame.symm)) haway
  have harg : req.arg = some (cStr req.clientId) := if_neg hid
  unfold connectRx clConnectRx
  rw [if_neg fun h => hid h.1, harg, if_neg fun h => hcstr (Option.some.inj h), hassign]
  dsimp only
  rw [hasSessionData_setUser { m.users i with assigned := true } rfl, setUser_setUser,
    setUser_users_self]

theorem connectRx_anonymous {m : ClMgmt} {req : ConnectReq} {i : ClIdx} (hid : req.clientId = [])
    (hclean : req.cleanSession = true) (hfree : freeUsr m = some i) :
    connectRx m req = some (i, false, m.setUser i { m.users i with
      clientId := assignClIndexAsId i, assigned := true, ctx := some req.ctx, will := req.will }) := by
  have harg : req.arg = none := if_pos hid
  have hassign : assignClUsr m none = some (i, m.setUser i
      { m.users i with clientId := assignClIndexAsId i, assigned := true }) := by
    rw [assignClUsr_fresh rfl, hfree]
    rfl
  unfold connectRx clConnectRx
  rw [if_neg fun h => Bool.false_ne_true (h.2.symm.trans hclean), harg, hassign,
    if_neg (Option.some_ne_none []).symm]
  dsimp only
  rw [hclean, setUser_setUser, setUser_users_self]
  rfl

theorem freeUsr_free {m : ClMgmt} {i : ClIdx} (h : freeUsr m = some i) :
    (m.users i).isFree = true := by
  have hfree := List.find?_some h
  exact hfree

/-! ## The invariant -/

/-- A record in use has what is stored of the identifier that it was handed to last, and no other
record has it. -/
structure RecordsInv (s : Records) : Prop where
  hasCtx : HasCtx s.cl
  unassigned : ∀ i, (s.cl.users i).assigned = false
  named : ∀ i, InUse s.cl i → (s.cl.users i).clientId ≠ [] ∧
    ∃ id, s.owner i = some id ∧ (s.cl.users i).clientId = storedId i id
  idsDistinct : ∀ i j, InUse s.cl i → InUse s.cl j →
    (s.cl.users i).clientId = (s.cl.users j).clientId → i = j

theorem RecordsInv.attached {s : Records} (h : RecordsInv s) : Attached s.cl :=
  ⟨h.hasCtx, fun j hj => Bool.noConfusion ((h.unassigned j).symm.trans hj)⟩

theorem RecordsInv.recordsOk {s : Records} (h : RecordsInv s) : RecordsOk s where
  idsDistinct := h.idsDistinct
  oneRecord := by
    intro i j id hid hi hj howner howner'
    obtain ⟨-, id₁, h₁, hname⟩ := h.named i hi
    obtain ⟨-, id₂, h₂, hname'⟩ := h.named j hj
    obtain rfl := Option.some.inj (h₁.symm.trans howner)
    obtain rfl := Option.some.inj (h₂.symm.trans howner')
    refine h.idsDistinct i j hi hj ?_
    rw [hname, hname', storedId_of_ne hid, storedId_of_ne hid]

theorem isFree_iff (u : ClientUsr) : u.isFree = true ↔ u.connected = false ∧
    u.cleanSession = false ∧ u.assigned = false ∧ u.clientId = [] := by
  simp [ClientUsr.isFree, ClientUsr.flagless, and_assoc]

theorem InUse.of_clientId {m : ClMgmt} {i : ClIdx} (h : (m.users i).clientId ≠ []) : InUse m i := by
  unfold InUse ClientUsr.isFree
  rw [List.isEmpty_eq_false_iff.2 h, Bool.and_false]

theorem recordsInv_init (sendOk mallocOk : Nat → Bool) :
    RecordsInv (recordsInit sendOk mallocOk) := by
  have hfree : ∀ i, ¬InUse (recordsInit sendOk mallocOk).cl i :=
    fun _ hi => Bool.noConfusion (hi : true = false)
  have hconn : ∀ i, ((recordsInit sendOk mallocOk).cl.users i).connected = false := fun _ => rfl
  constructor
  · exact fun i h => Bool.noConfusion ((hconn i).symm.trans h)
  · exact fun _ => rfl
  · exact fun i hi => absurd hi (hfree i)
  · exact fun i _ hi => absurd hi (hfree i)

/-- A record as `RecordsInv` sees it. -/
structure SameName (s s' : Records) (j : ClIdx) : Prop where
  clientId : (s'.cl.users j).clientId = (s.cl.users j).clientId
  inUse : InUse s'.cl j ↔ InUse s.cl j
  owner : s'.owner j = s.owner j

theorem RecordsInv.changed {s s' : Records} {i : ClIdx} (h : RecordsInv s) (hctx : HasCtx s'.cl)
    (hun : ∀ j, (s'.cl.users j).assigned = false) (hothers : ∀ j, j ≠ i → SameName s s' j)
    (hthis : InUse s'.cl i → (s'.cl.users i).clientId ≠ [] ∧
      (∃ id, s'.owner i = some id ∧ (s'.cl.users i).clientId = storedId i id) ∧
      ∀ j, j ≠ i → InUse s.cl j → (s.cl.users j).clientId ≠ (s'.cl.users i).clientId) :
    RecordsInv s' := by
  refine ⟨hctx, hun, fun j hj => ?_, fun j k hj hk heq => ?_⟩
  · by_cases hji : j = i
    · subst hji
      exact ⟨(hthis hj).1, (hthis hj).2.1⟩
    · have ho := hothers j hji
      rw [ho.clientId, ho.owner]
      exact h.named j (ho.inUse.1 hj)
  · by_cases hji : j = i
    · by_cases hki : k = i
      · rw [hji, hki]
      · subst hji
        have ho := hothers k hki
        rw [ho.clientId] at heq
        exact absurd heq.symm ((hthis hj).2.2 k hki (ho.inUse.1 hk))
    · have ho := hothers j hji
      by_cases hki : k = i
      · subst hki
        rw [ho.clientId] at heq
        exact absurd heq ((hthis hk).2.2 j hji (ho.inUse.1 hj))
      · have ho' := hothers k hki
        rw [ho.clientId, ho'.clientId] at heq
        exact h.idsDistinct j k (ho.inUse.1 hj) (ho'.inUse.1 hk) heq

theorem SameRecords.sameName {s : Records} {m' : ClMgmt} (h : SameRecords s.cl m') (j : ClIdx) :
    SameName s { s with cl := m' } j := by
  obtain ⟨rx, tx, n, hj⟩ := h j
  constructor
  · show (m'.users j).clientId = _
    rw [hj]
  · show (m'.users j).isFree = false ↔ _
    rw [hj]
    rfl
  · rfl

theorem SameName.of_users {s s' : Records} {j : ClIdx} (hu : s'.cl.users j = s.cl.users j)
    (ho : s'.owner j = s.owner j) : SameName s s' j := by
  refine ⟨congrArg ClientUsr.clientId hu, ?_, ho⟩
  unfold InUse
  rw [hu]

theorem RecordsInv.call {s : Records} {m' : ClMgmt} {op : ClOp} {e : Option ClIdx}
    (h : RecordsInv s) (hop : op.keepsRecords) (hs : clStep s.cl op = some (m', e)) :
    RecordsInv { s with cl := m' } := by
  have hsame := sameRecords_clStep h.hasCtx hop hs
  refine ⟨fun j hj => ?_, fun j => ?_, fun j hj => ?_, fun j k hj hk heq => ?_⟩
  · obtain ⟨rx, tx, n, hu⟩ := hsame j
    rw [hu] at hj ⊢
    exact h.hasCtx j hj
  · obtain ⟨rx, tx, n, hu⟩ := hsame j
    exact (congrArg ClientUsr.assigned hu).trans (h.unassigned j)
  · have hn := hsame.sameName j
    rw [hn.clientId]
    exact h.named j (hn.inUse.1 hj)
  · have hn := hsame.sameName j
    have hn' := hsame.sameName k
    rw [hn.clientId, hn'.clientId] at heq
    exact h.idsDistinct j k (hn.inUse.1 hj) (hn'.inUse.1 hk) heq

/-- `cl_on_net_close`, for a client that is not about to be connected. -/
theorem clOnNetClose_users {m : ClMgmt} {i : ClIdx} (h : (m.users i).assigned = false) :
    ∃ u, (clOnNetClose m i).users = Function.update m.users i u ∧
      (u = clUsrReset ∨ u = { m.users i with connected := false, ctx := none }) := by
  unfold clOnNetClose
  dsimp only
  rw [h, if_neg Bool.false_ne_true]
  split
  · refine ⟨clUsrReset, ?_, .inl rfl⟩
    exact Function.update_idem ..
  · exact ⟨_, rfl, .inr rfl⟩

theorem RecordsInv.netClose {s : Records} (h : RecordsInv s) (i : ClIdx) :
    RecordsInv { s with cl := clOnNetClose s.cl i } := by
  obtain ⟨u, husers, hu⟩ := clOnNetClose_users (h.unassigned i)
  have hself : (clOnNetClose s.cl i).users i = u := by rw [husers, Function.update_self]
  have hne : ∀ j, j ≠ i → (clOnNetClose s.cl i).users j = s.cl.users j := by
    intro j hj
    rw [husers, Function.update_of_ne hj]
  refine h.changed (i := i) (clOnNetClose_attached h.attached i).connected (fun j => ?_)
    (fun j hj => .of_users (hne j hj) rfl) fun hin => ?_
  · by_cases hj : j = i
    · subst hj
      rw [hself]
      rcases hu with rfl | rfl
      · rfl
      · exact h.unassigned j
    · exact (congrArg ClientUsr.assigned (hne j hj)).trans (h.unassigned j)
  · unfold InUse at hin
    rw [hself] at hin ⊢
    rcases hu with rfl | rfl
    · cases hin
    · have hold : InUse s.cl i := by
        by_contra hfree
        rw [InUse, Bool.not_eq_false, isFree_iff] at hfree
        obtain ⟨-, hclean, hassigned, hid⟩ := hfree
        exact Bool.eq_false_iff.1 hin ((isFree_iff _).2 ⟨rfl, hclean, hassigned, hid⟩)
      obtain ⟨hid, hname⟩ := h.named i hold
      exact ⟨hid, hname, fun j hj hj' heq => hj (h.idsDistinct j i hj' hold heq)⟩

/-- A client that is handed a record has it under its name, and the other records are as they were. -/
theorem connected_users {s : Records} {req : ConnectReq} {i : ClIdx} {present : Bool} {m m' : ClMgmt}
    (h : RecordsInv s) (hrx : connectRx s.cl req = some (i, present, m))
    (hack : clOnConnackSend m i req.cleanSession = some m') :
    ∃ cid, HandedOver s.cl req i cid ∧ HasCtx m' ∧ (m'.users i).clientId = cid ∧
      (∀ j, (m'.users j).assigned = false) ∧
      ∀ j, j ≠ i → (m'.users j).clientId = (s.cl.users j).clientId ∧
        (m'.users j).isFree = (s.cl.users j).isFree := by
  obtain ⟨haway, hne, hvalid, hpresent, cid, hcid, rfl⟩ := connectRx_cases hrx
  have hset := h.attached.setUser (i := i) (u := { s.cl.users i with
    clientId := cid, assigned := true, ctx := some req.ctx, will := req.will })
    fun _ => Option.some_ne_none _
  have hassigned : ((s.cl.setUser i { s.cl.users i with
      clientId := cid, assigned := true, ctx := some req.ctx, will := req.will }).users i).assigned =
      true := by
    rw [setUser_users_self]
  obtain ⟨hm', hq⟩ := clOnConnackSend_users hset hassigned hack
  rw [setUser_setUser, setUser_users_self] at hq
  have hself : (m'.users i).clientId = cid ∧ (m'.users i).assigned = false := by
    obtain ⟨rx, tx, hu⟩ := hq i
    rw [setUser_users_self] at hu
    rw [hu]
    exact ⟨rfl, rfl⟩
  have hne : ∀ j, j ≠ i → (m'.users j).clientId = (s.cl.users j).clientId ∧
      (m'.users j).assigned = (s.cl.users j).assigned ∧
      (m'.users j).isFree = (s.cl.users j).isFree := by
    intro j hj
    obtain ⟨rx, tx, hu⟩ := hq j
    rw [setUser_users_ne _ _ hj] at hu
    rw [hu]
    exact ⟨rfl, rfl, rfl⟩
  refine ⟨cid, hcid, hm'.connected, hself.1, fun j => ?_, fun j hj => ⟨(hne j hj).1, (hne j hj).2.2⟩⟩
  by_cases hj : j = i
  · subst hj
    exact hself.2
  · exact (hne j hj).2.1.trans (h.unassigned j)

theorem RecordsInv.connect {s : Records} {req : ConnectReq} {i : ClIdx} {present : Bool}
    {m m' : ClMgmt} (h : RecordsInv s) (hd : Distinct s (.connect req))
    (hrx : connectRx s.cl req = some (i, present, m))
    (hack : clOnConnackSend m i req.cleanSession = some m') :
    RecordsInv ⟨m', Function.update s.owner i (some req.clientId)⟩ := by
  obtain ⟨cid, hcid, hctx, hself, hun, hne⟩ := connected_users h hrx hack
  obtain ⟨haway, hstored, hvalid, -⟩ := connectRx_cases hrx
  refine h.changed (i := i) hctx hun (fun j hj => ⟨(hne j hj).1, ?_, ?_⟩) fun _ => ?_
  · unfold InUse
    rw [(hne j hj).2]
  · exact Function.update_of_ne hj ..
  · dsimp only
    rw [hself, Function.update_self]
    cases hcid with
    | found hid hsame =>
      have hne' : (s.cl.users i).clientId ≠ [] := by rwa [hsame]
      refine ⟨hne', ⟨req.clientId, rfl, hsame⟩, fun j hj hin heq => ?_⟩
      exact hj (h.idsDistinct j i hin (.of_clientId hne') heq)
    | fresh hfree hnew =>
      refine ⟨hstored, ⟨req.clientId, rfl, rfl⟩, fun j hj hin heq => ?_⟩
      by_cases hid : req.clientId = []
      · rw [hid] at heq
        exact (distinct_anonymous hid).1 hd (hvalid hid) i hfree j hin heq
      · rw [storedId_of_ne hid, ← storedId_of_ne hid j] at heq
        exact hnew hid j heq

theorem RecordsInv.step {s s' : Records} {op : RecordOp} {o : Option ClIdx} (h : RecordsInv s)
    (hd : Distinct s op) (hs : recordStep s op = some (s', o)) : RecordsInv s' := by
  cases op with
  | connect req =>
    unfold recordStep at hs
    dsimp only at hs
    split at hs
    · cases hs
      exact h
    · rename_i hrx
      obtain ⟨m', hack, heq⟩ := Option.map_eq_some_iff.1 hs
      cases heq
      exact h.connect hd hrx hack
  | netClose i =>
    unfold recordStep at hs
    dsimp only at hs
    split at hs
    · cases hs
      exact h.netClose i
    · cases hs
      exact h
  | call op hop =>
    obtain ⟨⟨m', e⟩, hcl, heq⟩ := Option.map_eq_some_iff.1 hs
    cases heq
    exact h.call hop hcl

/-! ## Exactly when -/

theorem RecordsInv.found {s : Records} {req : ConnectReq} {i : ClIdx} (h : RecordsInv s)
    (hid : req.clientId ≠ []) (hin : InUse s.cl i) (haway : (s.cl.users i).connected = false)
    (hsame : (s.cl.users i).clientId = storedId i req.clientId) :
    connectRx s.cl req = some (i, !req.cleanSession && hasSessionData s.cl i, s.cl.setUser i
      { s.cl.users i with assigned := true, ctx := some req.ctx, will := req.will }) := by
  have hne := (h.named i hin).1
  refine connectRx_found hid hsame hne (fun j hj => ?_) haway
  have hne' : (s.cl.users j).clientId ≠ [] := by rwa [hj]
  exact h.idsDistinct j i (.of_clientId hne') hin hj

/-- A connection that is handed a record comes with a run of the rest of the step, when the session is
clean. -/
theorem recordStep_clean {s : Records} {req : ConnectReq} {i : ClIdx} {present : Bool} {m : ClMgmt}
    (hclean : req.cleanSession = true) (hrx : connectRx s.cl req = some (i, present, m)) :
    ∃ m', clOnConnackSend m i req.cleanSession = some m' ∧ recordStep s (.connect req) =
      some (⟨m', Function.update s.owner i (some req.clientId)⟩, some i) := by
  have hack : ∃ m', clOnConnackSend m i req.cleanSession = some m' := by
    unfold clOnConnackSend
    dsimp only
    rw [hclean]
    split
    · exact ⟨_, rfl⟩
    · exact ⟨_, rfl⟩
  obtain ⟨m', hack⟩ := hack
  refine ⟨m', hack, ?_⟩
  unfold recordStep
  dsimp only
  rw [hrx]
  dsimp only
  rw [hack]
  rfl

theorem RecordsInv.distinct {s : Records} {op : RecordOp} (h : RecordsInv s) (hk : Keeps s op) :
    Distinct s op := by
  cases op with
  | connect req =>
    by_cases hid : req.clientId = []
    · rw [distinct_anonymous hid]
      intro hclean i hfree j hj hsame
      have hrx := connectRx_anonymous hid hclean hfree
      obtain ⟨m', hack, hs⟩ := recordStep_clean hclean hrx
      obtain ⟨cid, hcid, -, hself, -, hne⟩ := connected_users h hrx hack
      have hcid' : cid = assignClIndexAsId i := by
        cases hcid with
        | found hne' _ => exact absurd hid hne'
        | fresh _ _ => exact if_pos hid
      have hji : j ≠ i := by
        rintro rfl
        exact absurd (freeUsr_free hfree) (Bool.eq_false_iff.1 hj)
      have hin : InUse m' i := .of_clientId (by
        rw [hself, hcid']
        exact List.cons_ne_nil _ _)
      have hin' : InUse m' j := (hne j hji).2.trans hj
      refine hji ((hk.2 _ _ hs).idsDistinct j i hin' hin ?_)
      rw [(hne j hji).1, hsame]
      exact (hself.trans hcid').symm
    · rw [distinct_named hid]
      intro i hin haway hsame
      exact (hk.1 req rfl).sameOwner i _ _ (h.found hid hin haway hsame) hin
  | netClose i => trivial
  | call op hop => trivial

theorem RecordsInv.handsOver {s : Records} {req : ConnectReq} (h : RecordsInv s)
    (hd : Distinct s (.connect req)) : HandsOver s req := by
  constructor
  · exact fun i present m' hrx => (connectRx_cases hrx).1
  · intro i present m' hrx hin
    obtain ⟨haway, -, -, -, cid, hcid, -⟩ := connectRx_cases hrx
    cases hcid with
    | found hid hsame => exact (distinct_named hid).1 hd i hin haway hsame
    | fresh hfree _ => exact absurd (freeUsr_free hfree) (Bool.eq_false_iff.1 hin)
  · intro j hclean hid hin howner haway hdata
    obtain ⟨-, id, howner', hname⟩ := h.named j hin
    obtain rfl := Option.some.inj (howner'.symm.trans howner)
    have hfound := h.found hid hin haway hname
    rw [hclean, hdata] at hfound
    refine ⟨_, hfound, ?_⟩
    constructor <;> simp

theorem RecordsInv.keeps_iff {s : Records} (h : RecordsInv s) (op : RecordOp) :
    Keeps s op ↔ Distinct s op := by
  refine ⟨h.distinct, fun hd => ⟨?_, fun s' o hs => (h.step hd hs).recordsOk⟩⟩
  rintro req rfl
  exact h.handsOver hd

/-- The records are kept apart in a run exactly when the identifiers are told apart in each step. -/
theorem records_exact (sendOk mallocOk : Nat → Bool) (ops : List RecordOp) :
    Meets recordStep Keeps (recordsInit sendOk mallocOk) ops ↔
      Meets recordStep Distinct (recordsInit sendOk mallocOk) ops := by
  have hinit := recordsInv_init sendOk mallocOk
  constructor
  · refine Meets.imp (fun h hk => (h.keeps_iff _).1 hk) (fun h hk hs => ?_) hinit
    exact h.step ((h.keeps_iff _).1 hk) hs
  · exact Meets.imp (fun h hd => (h.keeps_iff _).2 hd) (fun h hd hs => h.step hd hs) hinit

/-! ## Where they are not -/

def longId (c : UInt8) : List UInt8 := List.replicate maxClientIdLen 0x61 ++ [c]

def longReq (c : UInt8) : ConnectReq := ⟨1, false, longId c, none⟩

/-- A client that has gone away loses its record to one whose identifier begins in the same way. -/
theorem records_shared :
    ¬ Meets recordStep Keeps (recordsInit (fun _ => true) (fun _ => true))
      [.connect (longReq 0x62), .netClose 0, .connect (longReq 0x63)] := by
  intro h
  have hrun : (runs recordStep (recordsInit (fun _ => true) (fun _ => true))
      [.connect (longReq 0x62), .netClose 0]).map (fun r =>
        ((connectRx r.1.cl (longReq 0x63)).map (·.1), (r.1.cl.users 0).isFree, r.1.owner 0)) =
      some (some 0, false, some (longId 0x62)) := by
    decide +kernel
  obtain ⟨⟨s, os⟩, hruns, heq⟩ := Option.map_eq_some_iff.1 hrun
  obtain ⟨hrx, hfacts⟩ := Prod.mk.inj heq
  obtain ⟨hin, howner⟩ := Prod.mk.inj hfacts
  obtain ⟨⟨i, present, m⟩, hrx, rfl⟩ := Option.map_eq_some_iff.1 hrx
  have hparts : Meets recordStep Keeps (recordsInit (fun _ => true) (fun _ => true))
      ([.connect (longReq 0x62), .netClose 0] ++ [.connect (longReq 0x63)]) := h
  have hkeeps := (hparts.append hruns).2.1
  have hsame := (hkeeps.1 _ rfl).sameOwner _ _ _ hrx hin
  exact absurd (howner.symm.trans hsame) (by decide)

end SimpleLink.Server
