import SimpleLink.Gagent.LocalLink
import SimpleLink.Gagent.Relay

/-!
# Payloads reach the other side unchanged

A `Source` is a packet as the protocol writes it, with what the gateway has received of it. `Relayed` is
what is expected of the gateway: each side that the packet is for is sent one packet, and it carries
that payload, or nothing is sent where the packet is longer than what was received; and the
positions in the packet objects are in order.
-/

namespace SimpleLink.Gagent

open Lib

/-! ## Packets with a payload -/

/-- Version, length, flag, command, the number of a packet that is to be acknowledged, and the
payload; the length counts from the flag on. -/
structure P0Packet where
  version : List UInt8
  len : List UInt8
  flag : UInt8
  cmd : UInt16
  sn : List UInt8
  payload : List UInt8
  hversion : version.length = 4
  hsn : sn.length = if cmd = P0_WITH_SN then 4 else 0
  hfield : fieldLen len = some len.length
  hsize : len.length ≤ 4
  hval : fieldVal len = 3 + sn.length + payload.length

def P0Packet.head (p : P0Packet) : List UInt8 := p.version ++ p.len ++ p.flag :: htons p.cmd

def P0Packet.bytes (p : P0Packet) : List UInt8 := p.head ++ (p.sn ++ p.payload)

/-- A frame of the MCU that the receiver of the gateway gives back whole. -/
structure McuFrame where
  cmd : UInt8
  sn : UInt8
  flags : UInt16
  payload : List UInt8
  hcmd : cmd = MCU_REPORT ∨ cmd = MCU_CTRL_CMD_ACK
  hfits : payload.length + MCU_LEN_NO_PAYLOAD < HAL_BUF_SIZE

def McuFrame.bytes (f : McuFrame) : List UInt8 :=
  withCheckSum ([MCU_HDR_FF, MCU_HDR_FF] ++ htons (f.payload.length + 5).toUInt16 ++ [f.cmd, f.sn] ++
    htons f.flags ++ f.payload)

/-- A PUBLISH to the topic of the device, with what may follow the device in the topic. -/
structure Publish where
  first : UInt8
  len : List UInt8
  did : List UInt8
  tail : List UInt8
  msgId : List UInt8
  msg : List UInt8
  hfirst : first &&& 0xF0 = MQTT_MSG_PUBLISH
  hfield : fieldLen len = some len.length
  hsize : len.length ≤ 4
  hdid : did.length = 22 ∧ 0x2F ∉ did
  htail : tail = [] ∨ tail.head? = some 0x2F
  hmsgId : msgId.length = if (first &&& 0x06) >>> 1 ≠ 0 then 2 else 0
  htopic : (app2dev ++ did ++ tail).length < 2 ^ 16
  hval : fieldVal len = 2 + (app2dev ++ did ++ tail).length + msgId.length + msg.length

def Publish.topic (m : Publish) : List UInt8 := app2dev ++ m.did ++ m.tail

def Publish.bytes (m : Publish) : List UInt8 :=
  m.first :: m.len ++ (htons m.topic.length.toUInt16 ++ m.topic ++ m.msgId ++ m.msg)

/-- What the gateway has received in one read of a packet that is `bytes`. -/
structure ReadOf (rx bytes : List UInt8) : Prop where
  prefixOf : rx <+: bytes
  notEmpty : rx ≠ []
  fits : rx.length ≤ GAGENT_BUF_LEN

inductive Source where
  | mcu (f : McuFrame)
  | lan (i : Channel) (p : P0Packet) (hcmd : p.cmd = GAGENT_LAN_CMD_TRANSMIT) (rx : List UInt8)
    (hrx : ReadOf rx p.bytes)
  /-- The message of `m` need not be all of `p`. -/
  | cloud (m : Publish) (p : P0Packet) (hmsg : m.msg <+: p.bytes) (rx : List UInt8)
    (hrx : ReadOf rx m.bytes)

def Source.input : Source → Input
  | .mcu f => .mcu f.bytes
  | .lan i _ _ rx _ => .lan i rx
  | .cloud _ _ _ rx _ => .cloud rx

def Source.payload : Source → List UInt8
  | .mcu f => f.payload
  | .lan _ p _ _ _ => p.payload
  | .cloud _ p _ _ _ => p.payload

/-- No length in the packet says that there is more of it than was received. -/
def Source.Whole : Source → Prop
  | .mcu _ => True
  | .lan _ p _ rx _ => rx = p.bytes
  | .cloud m p _ rx _ => rx = m.bytes ∧ m.msg = p.bytes

/-- A client in the gateway's network has logged in. -/
def Source.Admitted (h : Hub) : Source → Prop
  | .mcu _ => True
  | .lan i _ _ _ _ => (h.gateway.tcpClient i).isLogin = .success
  | .cloud _ _ _ _ _ => True

def Source.destinations (h : Hub) : Source → List Dest
  | .mcu _ =>
    (if h.gateway.isSet WIFI_CLOUD_CONNECTED then [.cloud] else []) ++
      ((List.finRange LAN_TCPCLIENT_MAX).filter h.gateway.loggedIn).map .client
  | .lan _ _ _ _ _ => [.mcu]
  | .cloud _ _ _ _ _ => [.mcu]

/-! ## What is expected -/

/-- What is sent to `d` is one packet with this payload and with lengths to match. -/
def Carries (d : Dest) (bytes payload : List UInt8) : Prop :=
  match d with
  | .mcu => ∃ sn, bytes = [0xFF, 0xFF] ++ stuff 0xFF 0x55 (frameBody MCU_CTRL_CMD sn payload)
  | .cloud => ∃ q : P0Packet, q.cmd = 0x0091 ∧ q.payload = payload ∧ q.bytes = bytes
  | .client _ => ∃ q : P0Packet, q.cmd = 0x0091 ∧ q.payload = payload ∧ q.bytes = bytes

structure Packet.Ordered (p : Packet) : Prop where
  head : p.phead ≤ p.ppayload
  payload : p.ppayload ≤ p.pend
  inside : p.pend ≤ p.allbuf.length

/-- The payload of a whole packet is passed on to each side, and nothing of a packet that is not
whole. -/
def Delivered (h : Hub) (s : Source) (sent : List (Dest × List UInt8)) : Prop :=
  (s.Whole → sent.map Prod.fst = s.destinations h ∧ ∀ x ∈ sent, Carries x.1 x.2 s.payload) ∧
    (¬ s.Whole → sent = [])

def Relayed (h : Hub) (s : Source) : Prop :=
  ∃ r, relay h s.input = some r ∧ (∀ p ∈ r.packets, p.Ordered) ∧ Delivered h s r.sent

/-- The length that the received part of a packet shows is at most three, so nothing is passed on, or
the command is not in that part. -/
def LanCut (rx : List UInt8) : Prop :=
  let buf := (receivedIn BUF_LEN rx).mem
  let len := (mqttParseRemLen (buf.drop 3)).toNat
  3 ≤ len ∧ 4 + mqttNumRemLenBytes (buf.drop 3) + len ≤ BUF_LEN ∧
    (lanCmd buf = GAGENT_LAN_CMD_TRANSMIT → len = 3)

/-- There is room for what acknowledges the packet to the client that the topic names. -/
def AckFits (h : Hub) (m : Publish) : Prop :=
  publishFits (ackTopic h.did ((m.tail.tail.takeWhile (· ≠ 0)).take PHONECLIENTID)) m.msg

instance (h : Hub) (m : Publish) : Decidable (AckFits h m) := by unfold AckFits; infer_instance

/-- The packet of a PUBLISH that was received as a whole. -/
def PublishCond (h : Hub) (m : Publish) (p : P0Packet) : Prop :=
  m.msg = p.bytes ∧ m.tail ≠ [] ∧
    (p.cmd = GAGENT_LAN_CMD_TRANSMIT ∨ p.cmd = P0_WITH_SN ∧ AckFits h m)

def RelayCond (h : Hub) : Source → Prop
  | .mcu f =>
    (Source.mcu f).destinations h = [] ∧ (f.cmd = MCU_REPORT → h.localOut = false)
  | .lan _ p _ rx _ => if rx = p.bytes then p.payload ≠ [] else LanCut rx
  | .cloud m p _ rx _ =>
    let topic := mqttParsePubTopic (mqttReceived rx).mem
    topic.1.toNat < 128 ∧
      if rx = m.bytes then PublishCond h m p else topic.2.take app2dev.length ≠ app2dev

/-! ## Fields and headers -/

theorem P0Packet.bytes_inj {p q : P0Packet} (h : p.bytes = q.bytes) : p.payload = q.payload := by
  simp only [bytes, head, List.append_assoc] at h
  obtain ⟨-, h⟩ := List.append_inj h (p.hversion.trans q.hversion.symm)
  have hlen : p.len.length = q.len.length := by
    have hp := fieldLen_append (p.flag :: htons p.cmd ++ (p.sn ++ p.payload)) p.hfield
    rw [h, fieldLen_append _ q.hfield] at hp
    exact (Option.some.inj hp).symm
  obtain ⟨-, h⟩ := List.append_inj h hlen
  have htail := List.tail_eq_of_cons_eq h
  obtain ⟨hcmd, htail⟩ := List.append_inj htail rfl
  have hsn : p.sn.length = q.sn.length := by
    have hc : p.cmd = q.cmd := by
      have hp := ntohsAt_htons [] p.cmd []
      rw [hcmd] at hp
      exact hp.symm.trans (ntohsAt_htons [] q.cmd [])
    rw [p.hsn, q.hsn, hc]
  exact (List.append_inj htail hsn).2

theorem varcDigits_spec (k : Nat) {n : Nat} (h : n < 128 ^ (k + 1)) :
    fieldLen (varcDigits (k + 1) n) = some (varcDigits (k + 1) n).length ∧
      fieldVal (varcDigits (k + 1) n) = n := by
  induction k generalizing n with
  | zero =>
    obtain ⟨hc, hv, -⟩ := digit_byte ⟨n % 128, Nat.mod_lt _ (by decide)⟩
    have hz : n / 128 = 0 := Nat.div_eq_of_lt (by simpa using h)
    simp only at hc hv
    rw [varcDigits, if_pos hz]
    simp only [fieldLen, fieldVal, hc, hv]
    exact ⟨rfl, by omega⟩
  | succ k ih =>
    obtain ⟨hc, hv, hc', hv'⟩ := digit_byte ⟨n % 128, Nat.mod_lt _ (by decide)⟩
    simp only at hc hv hc' hv'
    rw [varcDigits]
    split
    · simp only [fieldLen, fieldVal, hc, hv]
      exact ⟨rfl, by omega⟩
    · have hdiv : n / 128 < 128 ^ (k + 1) := by
        rw [Nat.pow_succ] at h
        exact Nat.div_lt_of_lt_mul (by omega)
      obtain ⟨hl, hval⟩ := ih hdiv
      simp only [fieldLen, fieldVal, hc', hv', if_true, hl, hval, Option.map_some, List.length_cons,
        true_and]
      omega

theorem length_varcDigits_le_two {n : Nat} (h : n < 16384) : (varcDigits 4 n).length ≤ 2 := by
  rw [varcDigits]
  split
  · simp
  · have hz : n / 128 / 128 = 0 := by omega
    rw [varcDigits, if_pos hz]
    simp

theorem tran2varc_eq {n : Nat} (h : n < 16384) : ∃ var, tran2varc n = some var ∧
    var.length ≤ 2 ∧ fieldLen var = some var.length ∧ fieldVal var = n := by
  have hlen := length_varcDigits_le_two h
  exact ⟨_, if_pos hlen, hlen, varcDigits_spec 3 (by omega)⟩

theorem carries_p0Header {var l payload : List UInt8} (hlen : var.length ≤ 2)
    (hfield : fieldLen var = some var.length) (hval : fieldVal var = 3 + l.length) :
    (∃ q : P0Packet, q.cmd = 0x0091 ∧ q.payload = payload ∧ q.bytes = p0Header var ++ l) ↔
      payload = l := by
  let q : P0Packet := ⟨[0, 0, 0, 3], var, 0x00, 0x0091, [], l, rfl, rfl, hfield, by omega, hval⟩
  have hq : q.bytes = p0Header var ++ l := by
    have hcmd : htons 0x0091 = [0x00, 0x91] := rfl
    simp [q, P0Packet.bytes, P0Packet.head, p0Header, hcmd]
  constructor
  · rintro ⟨q', -, rfl, hq'⟩
    exact P0Packet.bytes_inj (hq'.trans hq.symm)
  · rintro rfl
    exact ⟨q, rfl, rfl, hq⟩

/-! ## Where the payload is -/

theorem P0Packet.fields (p : P0Packet) {buf rest : List UInt8} (h : buf = p.head ++ rest) :
    mqttNumRemLenBytes (buf.drop 3) = p.len.length ∧
      (mqttParseRemLen (buf.drop 3)).toNat = (3 + p.sn.length + p.payload.length) % 2 ^ 16 ∧
      ntohsAt buf (4 + p.len.length + 1) = p.cmd := by
  obtain ⟨a, b, c, d, hversion⟩ : ∃ a b c d, p.version = [a, b, c, d] := by
    match p.version, p.hversion with
    | [a, b, c, d], _ => exact ⟨a, b, c, d, rfl⟩
  have hdrop : buf.drop 3 = d :: (p.len ++ (p.flag :: htons p.cmd ++ rest)) := by
    simp [h, P0Packet.head, hversion]
  have hfield : fieldLen (buf.drop 3).tail = some p.len.length := by
    rw [hdrop, List.tail_cons]
    exact fieldLen_append _ p.hfield
  refine ⟨mqttNumRemLenBytes_eq hfield p.hsize, ?_, ?_⟩
  · rw [toNat_mqttParseRemLen hfield, hdrop, List.tail_cons, List.take_left, p.hval]
  · have hpre : 4 + p.len.length + 1 = (p.version ++ p.len ++ [p.flag]).length := by
      simp [p.hversion, Nat.add_assoc]
    have hbuf : buf = p.version ++ p.len ++ [p.flag] ++ (htons p.cmd ++ rest) := by
      simp [h, P0Packet.head]
    rw [hpre, hbuf]
    exact ntohsAt_htons _ _ _

theorem P0Packet.length_head (p : P0Packet) : p.head.length = 4 + p.len.length + 3 := by
  simp [head, htons, p.hversion]
  omega

theorem P0Packet.length_bytes (p : P0Packet) :
    p.bytes.length = 4 + p.len.length + 3 + (p.sn.length + p.payload.length) := by
  rw [bytes, List.length_append, length_head, List.length_append]

theorem mem_receivedIn (bufcap : Nat) (rx : List UInt8) :
    (receivedIn bufcap rx).mem = rx ++ List.replicate (bufcap - rx.length) 0 := by
  have hlen : (List.replicate BUF_HEADLEN (0 : UInt8)).length = BUF_HEADLEN := List.length_replicate
  show (List.replicate BUF_HEADLEN 0 ++ rx ++ _).drop BUF_HEADLEN = _
  rw [List.append_assoc, List.drop_left' hlen]

theorem length_receivedIn {bufcap : Nat} {rx : List UInt8} (h : rx.length ≤ bufcap) :
    (receivedIn bufcap rx).allbuf.length = BUF_HEADLEN + bufcap := by
  simp only [receivedIn, List.length_append, List.length_replicate]
  omega

theorem Packet.payload_eq {p : Packet} {pre l post : List UInt8} (h : p.mem = pre ++ (l ++ post))
    (hpp : p.ppayload = p.phead + pre.length) (hpend : p.pend = p.ppayload + l.length) :
    p.payload = l := by
  have hdrop : p.allbuf.drop p.ppayload = l ++ post := by
    rw [hpp, ← List.drop_drop]
    show p.mem.drop pre.length = _
    rw [h, List.drop_left]
  rw [payload, slice, hdrop, hpend, Nat.add_sub_cancel_left, List.take_left]

theorem Packet.Ordered.length_payload {p : Packet} (hp : p.Ordered) :
    p.payload.length = p.pend - p.ppayload := by
  have := hp.inside
  rw [Packet.payload, Packet.slice, List.length_take, List.length_drop]
  omega

/-! ## A header in front of the payload -/

theorem Packet.put_front {p : Packet} {hdr : List UInt8} (hhdr : hdr.length ≤ p.ppayload)
    (hp : p.Ordered) : ∃ allbuf, p.put (p.ppayload - hdr.length) hdr = some { p with allbuf } ∧
      allbuf.length = p.allbuf.length ∧ allbuf.drop p.ppayload = p.allbuf.drop p.ppayload ∧
      (allbuf.drop (p.ppayload - hdr.length)).take (hdr.length + (p.pend - p.ppayload)) =
        hdr ++ p.payload := by
  have horder := hp.payload
  have hinside := hp.inside
  have hroom : p.ppayload - hdr.length + hdr.length ≤ p.allbuf.length := by omega
  have hto : p.ppayload - hdr.length + hdr.length = p.ppayload := by omega
  have hpre : (p.allbuf.take (p.ppayload - hdr.length)).length = p.ppayload - hdr.length := by
    rw [List.length_take]
    omega
  refine ⟨_, if_pos hroom, length_overwrite hroom, ?_, ?_⟩
  · have hlen : (p.allbuf.take (p.ppayload - hdr.length) ++ hdr).length = p.ppayload := by
      rw [List.length_append, hpre, hto]
    rw [overwrite, hto, List.drop_left' hlen]
  · rw [overwrite, hto, List.append_assoc, List.drop_left' hpre, List.take_length_add_append]
    rfl

theorem lanSendTcpData_eq {g : Gateway} {p : Packet} (hp : p.Ordered) (hfront : 9 ≤ p.ppayload)
    (hsize : p.payload.length + 3 < 16384) : ∃ p' var, p'.Ordered ∧ var.length ≤ 2 ∧
      fieldLen var = some var.length ∧ fieldVal var = 3 + p.payload.length ∧
      lanSendTcpData g p = some (p', ((List.finRange LAN_TCPCLIENT_MAX).filter g.loggedIn).map
        fun i => (.client i, p0Header var ++ p.payload)) := by
  have hlen := hp.length_payload
  obtain ⟨var, hvar, htwo, hfield, hval⟩ := tran2varc_eq (n := p.pend - p.ppayload +
    LAN_PROTOCOL_CMD_LEN + LAN_PROTOCOL_FLAG_LEN) (by
      simp only [LAN_PROTOCOL_CMD_LEN, LAN_PROTOCOL_FLAG_LEN]
      omega)
  have hhdr : (p0Header var).length ≤ p.ppayload := by
    simp only [p0Header, List.length_append, List.length_cons, List.length_nil]
    omega
  have hnot : ¬ p.ppayload < (p0Header var).length := by omega
  obtain ⟨allbuf, hput, hsame, -, hdata⟩ := Packet.put_front (p := p) hhdr hp
  have hput' : Packet.put { p with phead := p.ppayload - (p0Header var).length }
      (p.ppayload - (p0Header var).length) (p0Header var) =
        some { p with phead := p.ppayload - (p0Header var).length, allbuf } := by
    rw [Packet.put] at hput ⊢
    split at hput
    · rename_i hle
      obtain rfl := congrArg Packet.allbuf (Option.some.inj hput)
      rw [if_pos hle]
    · cases hput
  refine ⟨{ p with phead := p.ppayload - (p0Header var).length, allbuf }, var, ⟨?_, hp.payload, ?_⟩,
    htwo, hfield, ?_, ?_⟩
  · exact Nat.sub_le _ _
  · exact hsame ▸ hp.inside
  · rw [hval, hlen, LAN_PROTOCOL_CMD_LEN, LAN_PROTOCOL_FLAG_LEN]
    omega
  · have hend : p.pend - (p.ppayload - (p0Header var).length) =
        (p0Header var).length + (p.pend - p.ppayload) := by
      have := hp.payload
      omega
    rw [lanSendTcpData, hvar]
    simp only [Option.bind_eq_bind, Option.bind_some, if_neg hnot]
    rw [hput']
    simp only [Option.bind_some, Packet.slice, hend, hdata]

theorem mqttSenData_some {did : List UInt8} {p p' : Packet} {sent : List (Dest × List UInt8)}
    (hp : p.Ordered) (hsize : p.payload.length + 3 < 16384)
    (h : mqttSenData did p (p.pend - p.ppayload) = some (p', sent)) :
    p'.Ordered ∧ p'.payload = p.payload ∧ p'.ppayload = p.ppayload ∧
      ∀ x ∈ sent, ∃ var, var.length ≤ 2 ∧ fieldLen var = some var.length ∧
        fieldVal var = 3 + p.payload.length ∧ x = (.cloud, p0Header var ++ p.payload) := by
  have hlen := hp.length_payload
  rw [mqttSenData] at h
  split at h
  · cases h
    exact ⟨hp, rfl, rfl, fun x hx => absurd hx List.not_mem_nil⟩
  obtain ⟨var, hvar, htwo, hfield, hval⟩ := tran2varc_eq (n := 1 + 2 + (p.pend - p.ppayload))
    (by omega)
  rw [hvar] at h
  simp only [Option.bind_eq_bind, Option.bind_some] at h
  split at h
  · cases h
  rename_i hnot
  obtain ⟨allbuf, hput, hsame, htail, hdata⟩ := Packet.put_front (Nat.le_of_not_lt hnot) hp
  rw [hput] at h
  simp only [Option.bind_some] at h
  split at h
  · cases h
    refine ⟨⟨hp.head, hp.payload, hsame ▸ hp.inside⟩, ?_, rfl, fun x hx => ?_⟩
    · show (allbuf.drop p.ppayload).take _ = _
      rw [htail]
      rfl
    · refine ⟨var, htwo, hfield, by omega, ?_⟩
      rw [List.mem_singleton.1 hx]
      exact congrArg (Prod.mk Dest.cloud) hdata
  · cases h

/-! ## To the MCU -/

theorem length_moveOneByte {buf buf' : List UInt8} {pos n : Nat}
    (h : moveOneByte buf pos n = some buf') : buf'.length = buf.length := by
  induction n generalizing buf with
  | zero => rw [← Option.some.inj h]
  | succ n ih =>
    rw [moveOneByte] at h
    split at h
    · rw [ih h, List.length_set]
    · cases h

theorem length_adapterLoop {buf : List UInt8} {r : List UInt8 × Nat} {pos n i dataLen j : Nat}
    (h : adapterLoop pos n buf i dataLen j = some r) : r.1.length = buf.length := by
  induction n generalizing buf i dataLen j with
  | zero => cases h
  | succ n ih =>
    rw [adapterLoop] at h
    split at h
    · split at h
      · split at h
        · cases h
        · rename_i hmove
          rw [ih h, List.length_set, length_moveOneByte hmove]
      · exact ih h
    · rw [← Option.some.inj h]

theorem localDataWriteP0_ordered {p p' : Packet} {cmd sn : UInt8} {bytes : List UInt8}
    (hp : p.Outgoing) (h : localDataWriteP0 p cmd sn = some (p', bytes)) : p'.Ordered := by
  obtain ⟨pre, rest, hpre, hlen, heq⟩ := localDataWriteP0_eq hp cmd sn
  rw [heq] at h
  cases rest with
  | nil => cases h
  | cons x post =>
    obtain ⟨r, hr, hp'⟩ := Option.map_eq_some_iff.1 h
    obtain rfl := (congrArg Prod.fst hp').symm
    rw [localDataAdapter, Option.map_eq_some_iff] at hr
    obtain ⟨r', hr', rfl⟩ := hr
    have horder := hp.order
    have hinside := hp.inside
    have hpay : p.payload.length = p.pend - p.ppayload := by
      rw [Packet.payload, Packet.slice, List.length_take, List.length_drop]
      omega
    have hbuf := length_adapterLoop hr'
    simp only [List.length_append, List.length_cons, List.length_nil, length_frameBody] at hbuf hlen
    refine ⟨?_, ?_, ?_⟩
    · show pre.length ≤ p.ppayload
      omega
    · show p.ppayload ≤ p.pend + 1
      omega
    · show p.pend + 1 ≤ r'.1.length
      omega

theorem dealLocal_eq (h : Hub) {p : Packet} (hp : p.Outgoing)
    (hroom : p.pend + p.payload.length + 9 ≤ p.allbuf.length) :
    ∃ p', p'.Ordered ∧ dealLocal h p = some (p', [(.mcu, [0xFF, 0xFF] ++
      stuff 0xFF 0x55 (frameBody MCU_CTRL_CMD h.newSN p.payload))]) := by
  have hcount : (frameBody MCU_CTRL_CMD h.newSN p.payload).count 0xFF ≤ p.payload.length + 7 :=
    length_frameBody MCU_CTRL_CMD h.newSN p.payload ▸ List.count_le_length
  have hfree : p.Room MCU_CTRL_CMD h.newSN := ⟨by omega, fun _ => by omega⟩
  obtain ⟨p', hwrite⟩ := localDataWriteP0_sent hp hfree
  refine ⟨p', localDataWriteP0_ordered hp hwrite, ?_⟩
  rw [dealLocal, hwrite]
  rfl

theorem length_of_carries {sn : UInt8} {payload l : List UInt8}
    (h : Carries .mcu ([0xFF, 0xFF] ++ stuff 0xFF 0x55 (frameBody MCU_CTRL_CMD sn l)) payload) :
    payload.length = l.length := by
  obtain ⟨sn', hsn⟩ := h
  have hbody := congrArg (destuff 0xFF 0x55) (List.append_cancel_left hsn)
  rw [destuff_stuff, destuff_stuff] at hbody
  have hlen := congrArg List.length hbody
  rw [length_frameBody, length_frameBody] at hlen
  omega

/-! ## Frames of the MCU -/

def McuFrame.front (f : McuFrame) : List UInt8 :=
  [0xFF, 0xFF] ++ (htons (f.payload.length + 5).toUInt16 ++ f.cmd :: f.sn :: htons f.flags)

theorem McuFrame.bytes_eq (f : McuFrame) : ∃ chk, f.bytes = f.front ++ (f.payload ++ [chk]) ∧
    chk = setCheckSum f.bytes (f.payload.length + 8) := by
  have hlen : ([MCU_HDR_FF, MCU_HDR_FF] ++ htons (f.payload.length + 5).toUInt16 ++
      [f.cmd, f.sn] ++ htons f.flags ++ f.payload).length = f.payload.length + 8 := by
    simp [htons]
  refine ⟨setCheckSum ([MCU_HDR_FF, MCU_HDR_FF] ++ htons (f.payload.length + 5).toUInt16 ++
    [f.cmd, f.sn] ++ htons f.flags ++ f.payload) (f.payload.length + 8), ?_, ?_⟩
  · rw [bytes, withCheckSum, hlen]
    simp [MCU_HDR_FF, front]
  · rw [bytes, withCheckSum, ← hlen, setCheckSum_append]

theorem McuFrame.valid (f : McuFrame) : localDataValidityCheck f.bytes = none ∧
    byteAt f.bytes MCU_CMD_POS = f.cmd ∧ f.bytes.length = f.payload.length + 9 := by
  obtain ⟨chk, hbytes, hchk⟩ := f.bytes_eq
  have hlen : f.bytes.length = f.payload.length + 9 := by
    rw [hbytes]
    simp [front, htons]
  have hlast : byteAt f.bytes (f.bytes.length - 1) = chk := by
    have hpos : f.bytes.length - 1 = (f.front ++ f.payload).length + 0 := by
      rw [hlen]
      simp [front, htons]
    rw [hpos, hbytes, ← List.append_assoc, byteAt_append_right]
    rfl
  have hsum : setCheckSum f.bytes (f.bytes.length - 1) = chk := by
    rw [hlen]
    exact hchk.symm
  have hcmd : byteAt f.bytes MCU_CMD_POS = f.cmd := by
    rw [hbytes]
    rfl
  have hfront : byteAt f.bytes 0 = 0xFF ∧ byteAt f.bytes 1 = 0xFF := by
    rw [hbytes]
    exact ⟨rfl, rfl⟩
  have hmcu : isMcuCmd f.cmd = true := by
    rcases f.hcmd with h | h <;> rw [h] <;> rfl
  refine ⟨?_, hcmd, hlen⟩
  rw [localDataValidityCheck, if_neg (by simp [hfront]), if_neg (by rw [hsum, hlast]; simp), hcmd,
    if_pos hmcu]

theorem McuFrame.parsed (f : McuFrame) {bufcap : Nat} (hcap : HAL_BUF_SIZE ≤ bufcap) :
    ∃ chk, let p := parsePacket .localDataIn (receivedIn bufcap f.bytes)
      p.Ordered ∧ p.ppayload = 136 ∧ p.payload = f.payload ++ [chk] := by
  obtain ⟨chk, hbytes, -⟩ := f.bytes_eq
  obtain ⟨-, -, hlen⟩ := f.valid
  have hfits := f.hfits
  have hmem := mem_receivedIn bufcap f.bytes
  have hfront : f.front.length = 8 := rfl
  have hdata : (ntohsAt (receivedIn bufcap f.bytes).mem 2).toNat = f.payload.length + 5 := by
    have hbuf : (receivedIn bufcap f.bytes).mem = [0xFF, 0xFF] ++
        (htons (f.payload.length + 5).toUInt16 ++ (f.cmd :: f.sn :: htons f.flags ++ (f.payload ++ [chk])
          ++ List.replicate (bufcap - f.bytes.length) 0)) := by
      rw [hmem, hbytes]
      simp [front]
    have hn : (f.payload.length + 5).toUInt16.toNat = f.payload.length + 5 :=
      UInt16.toNat_ofNat_of_lt' (by
        show f.payload.length + 5 < 65536
        simp only [HAL_BUF_SIZE, MCU_LEN_NO_PAYLOAD] at hfits
        omega)
    rw [hbuf]
    exact (congrArg UInt16.toNat (ntohsAt_htons [0xFF, 0xFF] _ _)).trans hn
  have hall : (receivedIn bufcap f.bytes).allbuf.length = BUF_HEADLEN + bufcap :=
    length_receivedIn (by
      simp only [HAL_BUF_SIZE, MCU_LEN_NO_PAYLOAD] at hfits hcap
      omega)
  refine ⟨chk, ⟨?_, ?_, ?_⟩, rfl, ?_⟩
  · exact Nat.le_add_right _ _
  · show BUF_HEADLEN + 8 ≤ BUF_HEADLEN + ((ntohsAt (receivedIn bufcap f.bytes).mem 2).toNat + 4)
    omega
  · show BUF_HEADLEN + ((ntohsAt (receivedIn bufcap f.bytes).mem 2).toNat + 4) ≤
      (receivedIn bufcap f.bytes).allbuf.length
    simp only [HAL_BUF_SIZE, MCU_LEN_NO_PAYLOAD] at hfits hcap
    omega
  · have hparts : (parsePacket .localDataIn (receivedIn bufcap f.bytes)).mem =
        f.front ++ (f.payload ++ [chk] ++ List.replicate (bufcap - f.bytes.length) 0) := by
      show (receivedIn bufcap f.bytes).mem = _
      rw [hmem, hbytes]
      simp
    refine Packet.payload_eq hparts rfl ?_
    show BUF_HEADLEN + ((ntohsAt (receivedIn bufcap f.bytes).mem 2).toNat + 4) =
      BUF_HEADLEN + 8 + (f.payload ++ [chk]).length
    rw [hdata, List.length_append, List.length_singleton]
    omega

/-- What is sent is `l` behind a header. -/
def Headed (l : List UInt8) (x : Dest × List UInt8) : Prop :=
  x.1 ≠ .mcu ∧ ∃ var : List UInt8, var.length ≤ 2 ∧ fieldLen var = some var.length ∧
    fieldVal var = 3 + l.length ∧ x.2 = p0Header var ++ l

theorem Headed.carries {l payload : List UInt8} {x : Dest × List UInt8} (h : Headed l x)
    (hc : Carries x.1 x.2 payload) : payload = l := by
  obtain ⟨d, bytes⟩ := x
  obtain ⟨hd, var, htwo, hfield, hval, rfl⟩ := h
  cases d with
  | mcu => exact absurd rfl hd
  | cloud => exact (carries_p0Header htwo hfield hval).1 hc
  | client i => exact (carries_p0Header htwo hfield hval).1 hc

theorem dealOut_headed {h : Hub} {p : Packet} {r : Relay} (hp : p.Ordered)
    (hfront : 9 ≤ p.ppayload) (hsize : p.payload.length + 3 < 16384)
    (hr : dealOut h false p = some r) : ∀ x ∈ r.sent, Headed p.payload x := by
  rw [dealOut] at hr
  obtain ⟨⟨p₀, toMcu⟩, h₀, hr⟩ := Option.bind_eq_some_iff.1 hr
  cases h₀
  obtain ⟨⟨p₁, toCloud⟩, h₁, hr⟩ := Option.bind_eq_some_iff.1 hr
  have hcloud : p₁.Ordered ∧ p₁.payload = p.payload ∧ p₁.ppayload = p.ppayload ∧
      ∀ x ∈ toCloud, Headed p.payload x := by
    rw [dealCloud] at h₁
    split at h₁
    · obtain ⟨hord, hpay, hpp, hall⟩ := mqttSenData_some hp hsize h₁
      refine ⟨hord, hpay, hpp, fun x hx => ?_⟩
      obtain ⟨var, htwo, hfield, hval, rfl⟩ := hall x hx
      exact ⟨nofun, var, htwo, hfield, hval, rfl⟩
    · cases h₁
      exact ⟨hp, rfl, rfl, fun x hx => absurd hx List.not_mem_nil⟩
  obtain ⟨hord, hpay, hpp, hall⟩ := hcloud
  obtain ⟨p₂, var, -, htwo, hfield, hval, hsend⟩ := lanSendTcpData_eq (g := h.gateway) hord
    (hpp ▸ hfront) (hpay ▸ hsize)
  dsimp only at hr
  rw [hsend] at hr
  cases hr
  intro x hx
  rw [List.nil_append, List.mem_append] at hx
  rcases hx with hx | hx
  · exact hall x hx
  · obtain ⟨i, -, rfl⟩ := List.mem_map.1 hx
    rw [hpay] at hval
    exact ⟨nofun, var, htwo, hfield, hval, by rw [hpay]⟩

theorem dealOut_localOut {h : Hub} {p : Packet} {r : Relay} (hr : dealOut h true p = some r) :
    .mcu ∈ r.sent.map Prod.fst := by
  rw [dealOut] at hr
  obtain ⟨⟨p₀, toMcu⟩, h₀, hr⟩ := Option.bind_eq_some_iff.1 hr
  obtain ⟨⟨p₁, toCloud⟩, -, hr⟩ := Option.bind_eq_some_iff.1 hr
  obtain ⟨⟨p₂, toClients⟩, -, hr⟩ := Option.bind_eq_some_iff.1 hr
  cases hr
  obtain ⟨⟨q, bytes⟩, -, hq⟩ := Option.bind_eq_some_iff.1 h₀
  cases hq
  simp

theorem dealOut_quiet {h : Hub} {p : Packet} (hp : p.Ordered) (hfront : 9 ≤ p.ppayload)
    (hsize : p.payload.length + 3 < 16384) (hcloud : h.gateway.isSet WIFI_CLOUD_CONNECTED = false)
    (hlan : (List.finRange LAN_TCPCLIENT_MAX).filter h.gateway.loggedIn = []) :
    ∃ r, dealOut h false p = some r ∧ (∀ q ∈ r.packets, q.Ordered) ∧ r.sent = [] := by
  obtain ⟨p₂, var, hord, -, -, -, hsend⟩ := lanSendTcpData_eq (g := h.gateway) hp hfront hsize
  rw [hlan, List.map_nil] at hsend
  refine ⟨⟨[p, p, p, p₂], [], []⟩, ?_, ?_, rfl⟩
  · have hsame : dealCloud h p = some (p, []) := by
      rw [dealCloud, hcloud]
      rfl
    rw [dealOut]
    simp only [Bool.false_eq_true, if_false, Option.bind_eq_bind, Option.bind_some, hsame, hsend,
      List.append_nil]
  · intro q hq
    simp only [List.mem_cons, List.not_mem_nil, or_false] at hq
    rcases hq with rfl | rfl | rfl | rfl
    · exact hp
    · exact hp
    · exact hp
    · exact hord

theorem McuFrame.handled (f : McuFrame) (h : Hub) :
    (f.cmd = MCU_CTRL_CMD_ACK ∧ relay h (.mcu f.bytes) = some ⟨[], [], []⟩) ∨
      ∃ p chk b, relay h (.mcu f.bytes) = dealOut h b p ∧ p.Ordered ∧ 9 ≤ p.ppayload ∧
        p.payload = f.payload ++ [chk] ∧ (b = true ↔ f.cmd = MCU_REPORT ∧ h.localOut = true) := by
  obtain ⟨hvalid, hcmd, hlen⟩ := f.valid
  have hne : MCU_CTRL_CMD_ACK ≠ MCU_REPORT := by decide
  rw [relay, localDataHandle, if_neg (by rw [hvalid]; simp), hcmd]
  rcases f.hcmd with hc | hc
  · obtain ⟨chk, hord, hpp, hpay⟩ := f.parsed (show HAL_BUF_SIZE ≤ BUF_LEN by decide)
    refine .inr ⟨_, chk, h.localOut, ?_, hord, by rw [hpp]; decide, hpay, ?_⟩
    · rw [if_pos hc]
    · rw [hc]
      exact ⟨fun hb => ⟨rfl, hb⟩, And.right⟩
  · rw [if_neg (hc ▸ hne)]
    by_cases h9 : 9 < f.bytes.length
    · obtain ⟨chk, hord, hpp, hpay⟩ := f.parsed (show HAL_BUF_SIZE ≤ ACKBUF_LEN by decide)
      refine .inr ⟨_, chk, false, ?_, hord, by rw [hpp]; decide, hpay, ?_⟩
      · rw [if_pos ⟨hc, h9⟩]
      · rw [hc]
        exact ⟨fun hb => Bool.noConfusion hb, fun hb => absurd hb.1 hne⟩
    · refine .inl ⟨hc, ?_⟩
      rw [if_neg fun hb => h9 hb.2]

theorem relayed_mcu (h : Hub) (f : McuFrame) : Relayed h (.mcu f) ↔ RelayCond h (.mcu f) := by
  have hfits := f.hfits
  simp only [HAL_BUF_SIZE, MCU_LEN_NO_PAYLOAD] at hfits
  rcases f.handled h with ⟨hcmd, hrelay⟩ | ⟨p, chk, b, hrelay, hord, hfront, hpay, hb⟩
  · have hne : f.cmd ≠ MCU_REPORT := hcmd ▸ by decide
    constructor
    · rintro ⟨r, hr, -, hsent⟩
      obtain rfl := Option.some.inj (hrelay.symm.trans hr)
      exact ⟨(hsent.1 trivial).1.symm, fun he => absurd he hne⟩
    · intro hcond
      exact ⟨_, hrelay, fun q hq => absurd hq List.not_mem_nil,
        fun _ => ⟨hcond.1.symm, fun x hx => absurd hx List.not_mem_nil⟩, fun hn => absurd trivial hn⟩
  have hsize : p.payload.length + 3 < 16384 := by
    rw [hpay, List.length_append, List.length_singleton]
    omega
  constructor
  · rintro ⟨r, hr, -, hsent⟩
    have hdeal : dealOut h b p = some r := hrelay.symm.trans hr
    obtain ⟨hdest, hcarry⟩ := hsent.1 trivial
    have hfalse : b = false := by
      by_contra ht
      rw [Bool.not_eq_false] at ht
      rw [ht] at hdeal
      have hmem := dealOut_localOut hdeal
      rw [hdest] at hmem
      simp [Source.destinations] at hmem
    rw [hfalse] at hdeal hb
    have hnil : r.sent = [] := by
      by_contra hne
      obtain ⟨x, hx⟩ := List.exists_mem_of_ne_nil _ hne
      have heq := (dealOut_headed hord hfront hsize hdeal x hx).carries (hcarry x hx)
      rw [hpay] at heq
      have hlen := congrArg List.length heq
      simp [Source.payload] at hlen
    rw [hnil] at hdest
    refine ⟨hdest.symm, fun hc => ?_⟩
    by_contra hl
    exact Bool.noConfusion (hb.2 ⟨hc, Bool.not_eq_false _ ▸ hl⟩)
  · rintro ⟨hdest, hlocal⟩
    obtain ⟨hcloud, hlan⟩ := List.append_eq_nil_iff.1 hdest
    have hfalse : b = false := by
      by_contra ht
      obtain ⟨hc, hl⟩ := hb.1 (Bool.not_eq_false _ ▸ ht)
      exact Bool.noConfusion ((hlocal hc).symm.trans hl)
    rw [hfalse] at hrelay
    obtain ⟨r, hdeal, hall, hsent⟩ := dealOut_quiet hord hfront hsize (by simpa using hcloud)
      (List.map_eq_nil_iff.1 hlan)
    refine ⟨r, hrelay.trans hdeal, hall, fun _ => ?_, fun hn => absurd trivial hn⟩
    rw [hsent]
    exact ⟨hdest.symm, fun x hx => absurd hx List.not_mem_nil⟩

/-! ## Packets of a client -/

theorem dealLocal_sent {h : Hub} {p p' : Packet} {sent : List (Dest × List UInt8)}
    (hs : dealLocal h p = some (p', sent)) : ∃ bytes, sent = [(.mcu, bytes)] := by
  obtain ⟨⟨q, bytes⟩, -, hq⟩ := Option.bind_eq_some_iff.1 hs
  cases hq
  exact ⟨bytes, rfl⟩

theorem relayed_of_frame {h : Hub} {s : Source} {q q' : Packet} {sn : UInt8}
    {acks : List (List UInt8 × List UInt8)}
    (hrelay : relay h s.input = some ⟨[q, q'], [(.mcu, [0xFF, 0xFF] ++
      stuff 0xFF 0x55 (frameBody MCU_CTRL_CMD sn s.payload))], acks⟩)
    (hq : q.Ordered) (hq' : q'.Ordered) (hwhole : s.Whole) (hdest : s.destinations h = [.mcu]) :
    Relayed h s := by
  refine ⟨_, hrelay, fun p hp => ?_, fun _ => ⟨hdest.symm, fun x hx => ?_⟩,
    fun hn => absurd hwhole hn⟩
  · rcases List.mem_cons.1 hp with rfl | hp
    · exact hq
    · rw [List.mem_singleton.1 hp]
      exact hq'
  · rw [List.mem_singleton.1 hx]
    exact ⟨sn, rfl⟩

theorem lanCheckAuthorization_success {g : Gateway} {i : Channel}
    (h : (g.tcpClient i).isLogin = .success) : (lanCheckAuthorization g i).2.2 = true := by
  rw [lanCheckAuthorization, if_neg]
  rw [h]
  exact fun hn => nomatch hn.1

/-- The positions of a packet of a client are in order when its length is that of a packet and does
not reach out of the buffer. -/
theorem lan_ordered {rx : List UInt8} (hrx : rx.length ≤ GAGENT_BUF_LEN) :
    (parsePacket .lanTcpDataIn (receivedIn BUF_LEN rx)).Ordered ↔
      3 ≤ (mqttParseRemLen ((receivedIn BUF_LEN rx).mem.drop 3)).toNat ∧
        4 + mqttNumRemLenBytes ((receivedIn BUF_LEN rx).mem.drop 3) +
          (mqttParseRemLen ((receivedIn BUF_LEN rx).mem.drop 3)).toNat ≤ BUF_LEN := by
  have hall : (receivedIn BUF_LEN rx).allbuf.length = BUF_HEADLEN + BUF_LEN :=
    length_receivedIn (by
      simp only [GAGENT_BUF_LEN, BUF_LEN] at hrx ⊢
      omega)
  generalize hlen : (mqttParseRemLen ((receivedIn BUF_LEN rx).mem.drop 3)).toNat = len
  generalize hv : mqttNumRemLenBytes ((receivedIn BUF_LEN rx).mem.drop 3) = v
  have hparse : parsePacket .lanTcpDataIn (receivedIn BUF_LEN rx) =
      { receivedIn BUF_LEN rx with
        ppayload := BUF_HEADLEN + 4 + v + 1 + 2, pend := BUF_HEADLEN + 4 + v + len } := by
    rw [← hlen, ← hv]
    rfl
  rw [hparse]
  constructor
  · rintro ⟨-, hpay, hin⟩
    simp only [hall] at hpay hin
    omega
  · rintro ⟨hthree, hin⟩
    refine ⟨?_, ?_, ?_⟩
    · show BUF_HEADLEN ≤ BUF_HEADLEN + 4 + v + 1 + 2
      omega
    · show BUF_HEADLEN + 4 + v + 1 + 2 ≤ BUF_HEADLEN + 4 + v + len
      omega
    · show BUF_HEADLEN + 4 + v + len ≤ (receivedIn BUF_LEN rx).allbuf.length
      rw [hall]
      omega

theorem P0Packet.lan_parsed (p : P0Packet) (hcmd : p.cmd = GAGENT_LAN_CMD_TRANSMIT)
    (hfits : p.bytes.length ≤ GAGENT_BUF_LEN) :
    let q := parsePacket .lanTcpDataIn (receivedIn BUF_LEN p.bytes)
    lanCmd (receivedIn BUF_LEN p.bytes).mem = GAGENT_LAN_CMD_TRANSMIT ∧ q.Outgoing ∧
      q.payload = p.payload ∧ q.ppayload = BUF_HEADLEN + (4 + p.len.length + 3) ∧
      q.pend = q.ppayload + p.payload.length ∧ q.allbuf.length = BUF_HEADLEN + BUF_LEN ∧
      q.Ordered := by
  have hsn : p.sn = [] := by
    have hlen := p.hsn
    rw [hcmd, if_neg (by decide)] at hlen
    exact List.length_eq_zero_iff.1 hlen
  have hmem : (receivedIn BUF_LEN p.bytes).mem = p.head ++
      (p.payload ++ List.replicate (BUF_LEN - p.bytes.length) 0) := by
    rw [mem_receivedIn, bytes, hsn]
    simp
  have hsize := p.length_bytes
  rw [hsn, List.length_nil, Nat.zero_add] at hsize
  obtain ⟨hv, hlen, hc⟩ := p.fields hmem
  rw [hsn, List.length_nil, Nat.add_zero, Nat.mod_eq_of_lt (by
    simp only [GAGENT_BUF_LEN] at hfits
    omega)] at hlen
  have hall : (receivedIn BUF_LEN p.bytes).allbuf.length = BUF_HEADLEN + BUF_LEN :=
    length_receivedIn (by
      simp only [GAGENT_BUF_LEN, BUF_LEN] at hfits ⊢
      omega)
  have hpp : (parsePacket .lanTcpDataIn (receivedIn BUF_LEN p.bytes)).ppayload =
      BUF_HEADLEN + (4 + p.len.length + 3) := by
    show BUF_HEADLEN + 4 + mqttNumRemLenBytes ((receivedIn BUF_LEN p.bytes).mem.drop 3) + 1 + 2 = _
    rw [hv]
    omega
  have hpend : (parsePacket .lanTcpDataIn (receivedIn BUF_LEN p.bytes)).pend =
      BUF_HEADLEN + (4 + p.len.length + 3) + p.payload.length := by
    show BUF_HEADLEN + 4 + mqttNumRemLenBytes ((receivedIn BUF_LEN p.bytes).mem.drop 3) +
      (mqttParseRemLen ((receivedIn BUF_LEN p.bytes).mem.drop 3)).toNat = _
    rw [hv, hlen]
    omega
  have hord : (parsePacket .lanTcpDataIn (receivedIn BUF_LEN p.bytes)).Ordered := by
    rw [lan_ordered hfits, hv, hlen]
    simp only [GAGENT_BUF_LEN, BUF_LEN] at hfits ⊢
    omega
  refine ⟨?_, ⟨?_, hord.payload, hord.inside, Nat.le_of_eq hall⟩, ?_, hpp, ?_, hall, hord⟩
  · rw [lanCmd, hv, LAN_PROTOCOL_HEAD_LEN, LAN_PROTOCOL_FLAG_LEN]
    have hpos : 4 + 1 + p.len.length = 4 + p.len.length + 1 := by omega
    rw [hpos, hc, hcmd]
  · simp only [hpp, MCU_HDR_LEN, BUF_HEADLEN]
    omega
  · refine Packet.payload_eq (p := parsePacket .lanTcpDataIn (receivedIn BUF_LEN p.bytes)) hmem ?_ ?_
    · rw [hpp, p.length_head]
      rfl
    · rw [hpp, hpend]
  · rw [hpp, hpend]

variable {h : Hub} {i : Channel} {p : P0Packet} {rx : List UInt8}

theorem relayed_lan_whole (hcmd : p.cmd = GAGENT_LAN_CMD_TRANSMIT) (hrx : ReadOf rx p.bytes)
    (hlogin : (h.gateway.tcpClient i).isLogin = .success) (hwhole : rx = p.bytes) :
    Relayed h (.lan i p hcmd rx hrx) ↔ p.payload ≠ [] := by
  subst hwhole
  obtain ⟨hc, hout, hpay, hpp, hpend, hall, hord⟩ := p.lan_parsed hcmd hrx.fits
  have hsize := p.length_bytes
  have hfits := hrx.fits
  have hsent : (lanTransmit h.gateway i p.bytes).2 = true ↔ p.payload ≠ [] := by
    rw [lanTransmit, decide_eq_true_iff, lanCheckAuthorization_success hlogin, hpend,
      ← List.length_pos_iff_ne_nil]
    exact ⟨fun hb => by omega, fun hb => ⟨hc, rfl, by omega⟩⟩
  constructor
  · rintro ⟨r, hr, -, hdel⟩
    by_contra hnil
    have hrelay : relay h (.lan i p.bytes) = some ⟨[_], [], []⟩ := if_neg fun ht => hsent.1 ht hnil
    obtain rfl := Option.some.inj (hrelay.symm.trans hr)
    exact nomatch (hdel.1 rfl).1
  · intro hne
    have hroom : (parsePacket .lanTcpDataIn (receivedIn BUF_LEN p.bytes)).pend +
        (parsePacket .lanTcpDataIn (receivedIn BUF_LEN p.bytes)).payload.length + 9 ≤
          (parsePacket .lanTcpDataIn (receivedIn BUF_LEN p.bytes)).allbuf.length := by
      rw [hpay, hall, hpend, hpp]
      simp only [GAGENT_BUF_LEN, BUF_LEN] at hfits ⊢
      omega
    obtain ⟨p', hord', hdeal⟩ := dealLocal_eq h hout hroom
    rw [hpay] at hdeal
    have hrelay : relay h (.lan i p.bytes) =
        some ⟨[parsePacket .lanTcpDataIn (receivedIn BUF_LEN p.bytes), p'], [(.mcu, [0xFF, 0xFF] ++
          stuff 0xFF 0x55 (frameBody MCU_CTRL_CMD h.newSN p.payload))], []⟩ := by
      refine (if_pos (hsent.2 hne)).trans ?_
      show (dealLocal h (parsePacket .lanTcpDataIn (receivedIn BUF_LEN p.bytes))).bind _ = _
      rw [hdeal]
      rfl
    exact relayed_of_frame (s := .lan i p hcmd p.bytes hrx) hrelay hord hord' rfl rfl

theorem relayed_lan_cut (hcmd : p.cmd = GAGENT_LAN_CMD_TRANSMIT) (hrx : ReadOf rx p.bytes)
    (hlogin : (h.gateway.tcpClient i).isLogin = .success) (hcut : rx ≠ p.bytes) :
    Relayed h (.lan i p hcmd rx hrx) ↔ LanCut rx := by
  have hord := lan_ordered hrx.fits
  have hsent : (lanTransmit h.gateway i rx).2 = true ↔
      lanCmd (receivedIn BUF_LEN rx).mem = GAGENT_LAN_CMD_TRANSMIT ∧
        3 < (mqttParseRemLen ((receivedIn BUF_LEN rx).mem.drop 3)).toNat := by
    rw [lanTransmit, decide_eq_true_iff, lanCheckAuthorization_success hlogin]
    have hpos : (parsePacket .lanTcpDataIn (receivedIn BUF_LEN rx)).ppayload <
        (parsePacket .lanTcpDataIn (receivedIn BUF_LEN rx)).pend ↔
          3 < (mqttParseRemLen ((receivedIn BUF_LEN rx).mem.drop 3)).toNat := by
      show BUF_HEADLEN + 4 + mqttNumRemLenBytes ((receivedIn BUF_LEN rx).mem.drop 3) + 1 + 2 <
        BUF_HEADLEN + 4 + mqttNumRemLenBytes ((receivedIn BUF_LEN rx).mem.drop 3) +
          (mqttParseRemLen ((receivedIn BUF_LEN rx).mem.drop 3)).toNat ↔ _
      omega
    exact and_congr_right fun _ => ⟨fun hb => hpos.1 hb.2, fun hb => ⟨rfl, hpos.2 hb⟩⟩
  constructor
  · rintro ⟨r, hr, hall, hdel⟩
    have hnil := hdel.2 hcut
    have hno : ¬ (lanTransmit h.gateway i rx).2 = true := by
      intro ht
      have hrelay := (if_pos ht).symm.trans hr
      obtain ⟨⟨p', sent⟩, hdeal, hp'⟩ := Option.bind_eq_some_iff.1 hrelay
      cases hp'
      obtain ⟨bytes, rfl⟩ := dealLocal_sent hdeal
      exact nomatch hnil
    have hrelay : relay h (.lan i rx) = some ⟨[_], [], []⟩ := if_neg hno
    obtain rfl := Option.some.inj (hrelay.symm.trans hr)
    obtain ⟨hthree, hin⟩ := hord.1 (hall _ List.mem_cons_self)
    refine ⟨hthree, hin, fun hc => ?_⟩
    exact Nat.le_antisymm (Nat.le_of_not_lt fun hlt => hno (hsent.2 ⟨hc, hlt⟩)) hthree
  · rintro ⟨hthree, hin, hc⟩
    have hno : ¬ (lanTransmit h.gateway i rx).2 = true := by
      intro ht
      obtain ⟨hcmd', hlt⟩ := hsent.1 ht
      exact absurd (hc hcmd') (Nat.ne_of_gt hlt)
    refine ⟨⟨[_], [], []⟩, if_neg hno, fun q hq => ?_, fun hw => absurd hw hcut, fun _ => rfl⟩
    rw [List.mem_singleton.1 hq]
    exact hord.2 ⟨hthree, hin⟩

/-! ## Packets of the cloud -/

variable {m : Publish}

theorem Publish.take_topic (m : Publish) : m.topic.take app2dev.length = app2dev := by
  rw [Publish.topic, List.append_assoc, List.take_left]

theorem mem_mqttReceived (rx : List UInt8) :
    (mqttReceived rx).mem = rx ++ List.replicate (BUF_LEN - rx.length) 0 := mem_receivedIn BUF_LEN rx

/-- A PUBLISH to any topic. -/
structure PublishForm where
  first : UInt8
  len : List UInt8
  topic : List UInt8
  msgId : List UInt8
  payload : List UInt8
  hfield : fieldLen len = some len.length
  hsize : len.length ≤ 4
  htopic : topic.length < 2 ^ 16
  hmsgId : msgId.length = if (first &&& 0x06) >>> 1 ≠ 0 then 2 else 0
  hval : fieldVal len = 2 + topic.length + msgId.length + payload.length

def PublishForm.bytes (m : PublishForm) : List UInt8 :=
  m.first :: m.len ++ (htons m.topic.length.toUInt16 ++ m.topic ++ m.msgId ++ m.payload)

def Publish.form (m : Publish) : PublishForm where
  first := m.first
  len := m.len
  topic := m.topic
  msgId := m.msgId
  payload := m.msg
  hfield := m.hfield
  hsize := m.hsize
  htopic := m.htopic
  hmsgId := m.hmsgId
  hval := m.hval

theorem PublishForm.fields (m : PublishForm) {buf rest : List UInt8} (h : buf = m.bytes ++ rest)
    (hfits : m.bytes.length ≤ GAGENT_BUF_LEN) :
    mqttParsePubTopic buf = (m.topic.length.toUInt16, m.topic) ∧
      m.topic.length.toUInt16.toNat = m.topic.length ∧
      (m.topic.length < 128 → ∃ off : UInt8,
        mqttParsePublishMsg buf = (off, m.payload.length.toUInt16) ∧
          off.toNat = (m.first :: m.len ++ htons m.topic.length.toUInt16 ++ m.topic ++ m.msgId).length) := by
  have htl : m.topic.length.toUInt16.toNat = m.topic.length := UInt16.toNat_ofNat_of_lt' m.htopic
  have hbuf : buf = m.first :: m.len ++
      (htons m.topic.length.toUInt16 ++ (m.topic ++ (m.msgId ++ m.payload ++ rest))) := by
    rw [h, bytes]
    simp
  have hfield : fieldLen buf.tail = some m.len.length := by
    rw [hbuf, List.cons_append, List.tail_cons]
    exact fieldLen_append _ m.hfield
  have hrlb := mqttNumRemLenBytes_eq hfield m.hsize
  have hpre : (m.first :: m.len).length = 1 + m.len.length := by
    rw [List.length_cons, Nat.add_comm]
  have hntohs : ntohsAt buf (1 + m.len.length) = m.topic.length.toUInt16 := by
    rw [hbuf, ← hpre]
    exact ntohsAt_htons _ _ _
  have hdrop : buf.drop (1 + m.len.length + 2) = m.topic ++ (m.msgId ++ m.payload ++ rest) := by
    rw [hbuf, ← hpre, ← List.drop_drop, List.drop_left]
    rfl
  refine ⟨?_, htl, fun htopic => ?_⟩
  · rw [mqttParsePubTopic, hrlb, hntohs, hdrop, htl, List.take_left]
  have hsize : m.bytes.length = 1 + m.len.length + (2 + m.topic.length + m.msgId.length + m.payload.length) := by
    rw [bytes]
    simp [htons]
    omega
  have hrem : (mqttParseRemLen buf).toNat =
      2 + m.topic.length + m.msgId.length + m.payload.length := by
    have htake : buf.tail.take m.len.length = m.len := by
      rw [hbuf, List.cons_append, List.tail_cons, List.take_left]
    rw [toNat_mqttParseRemLen hfield, htake, m.hval]
    show (2 + m.topic.length + m.msgId.length + m.payload.length) % 2 ^ 16 = _
    simp only [GAGENT_BUF_LEN] at hfits
    omega
  have hlow : byteAt buf (1 + m.len.length + 1) = m.topic.length.toUInt16.toUInt8 := by
    rw [hbuf, ← hpre]
    exact byteAt_append_right (m.first :: m.len) _ 1
  have hqos : mqttParseMessageQos buf = (m.first &&& 0x06) >>> 1 := by
    rw [hbuf]
    rfl
  have hsize' := m.hsize
  have hlowNat := toNat_lo m.topic.length
  have hmsgId := m.hmsgId
  have hoff : ∃ off : UInt8, (mqttParsePublishMsg buf).1 = off ∧
      off.toNat = 1 + m.len.length + 2 + m.topic.length + m.msgId.length := by
    refine ⟨_, rfl, ?_⟩
    simp only [mqttParsePublishMsg, hrlb, hlow, hqos]
    have hbase : (m.topic.length.toUInt16.toUInt8 + UInt8.ofNat (1 + m.len.length + 2)).toNat =
        m.topic.length + (1 + m.len.length + 2) := by
      rw [UInt8.toNat_add, hlowNat, UInt8.toNat_ofNat']
      omega
    split at hmsgId
    · rename_i hq
      have htwo : (2 : UInt8).toNat = 2 := rfl
      rw [if_pos hq, UInt8.toNat_add, hbase, hmsgId, htwo]
      omega
    · rename_i hq
      rw [if_neg hq, hbase, hmsgId]
      omega
  obtain ⟨off, hoffeq, hoffNat⟩ := hoff
  refine ⟨off, Prod.ext hoffeq ?_, ?_⟩
  · have hint : ((mqttParseRemLen buf).toNat : Int) -
        ((((mqttParsePublishMsg buf).1.toNat : Nat) : Int) - ((mqttNumRemLenBytes buf : Nat) + 1)) =
          (m.payload.length : Nat) := by
      rw [hoffeq, hrem, hrlb, hoffNat]
      omega
    show UInt16.ofInt (((mqttParseRemLen buf).toNat : Int) -
      ((((mqttParsePublishMsg buf).1.toNat : Nat) : Int) - ((mqttNumRemLenBytes buf : Nat) + 1))) = _
    rw [hint, uint16_ofInt_natCast]
  · rw [hoffNat]
    simp [htons]
    omega

theorem Publish.fields (m : Publish) {buf rest : List UInt8} (h : buf = m.bytes ++ rest)
    (hfits : m.bytes.length ≤ GAGENT_BUF_LEN) :
    mqttParsePubTopic buf = (m.topic.length.toUInt16, m.topic) ∧
      m.topic.length.toUInt16.toNat = m.topic.length ∧
      (m.topic.length < 128 → ∃ off : UInt8,
        mqttParsePublishMsg buf = (off, m.msg.length.toUInt16) ∧
          off.toNat = (m.first :: m.len ++ htons m.topic.length.toUInt16 ++ m.topic ++ m.msgId).length) :=
  m.form.fields h hfits

theorem afterDid_append {l : List UInt8} (hl : 0x2F ∉ l) (t : List UInt8) (i : Nat) :
    afterDid (l ++ t) i = afterDid t (i + l.length) := by
  induction l generalizing i with
  | nil => rfl
  | cons c cs ih =>
    have hc : c ≠ 0x2F := fun he => hl (he ▸ List.mem_cons_self)
    have hcs : 0x2F ∉ cs := fun he => hl (List.mem_cons_of_mem _ he)
    rw [List.cons_append, afterDid, if_neg hc, ih hcs, List.length_cons, Nat.add_assoc,
      Nat.add_comm 1]

theorem Publish.afterDid_topic (m : Publish) :
    afterDid (m.topic.drop app2dev.length) 0 = if m.tail = [] then none else some m.tail.tail := by
  have hdrop : m.topic.drop app2dev.length = m.did ++ m.tail := by
    rw [topic, List.append_assoc, List.drop_left]
  rw [hdrop, afterDid_append m.hdid.2, m.hdid.1]
  rcases m.htail with h | h
  · rw [h]
    rfl
  · cases ht : m.tail with
    | nil => rfl
    | cons c cs =>
      rw [ht] at h
      cases h
      rfl

theorem publishFits_congr {msg msg' : List UInt8} (topic : List UInt8) (h : msg.length = msg'.length) :
    publishFits topic msg ↔ publishFits topic msg' := by
  unfold publishFits publishLen
  rw [h]

theorem dispatch_whole (h : Hub) (hmsg : m.msg = p.bytes)
    (hfits : m.bytes.length ≤ GAGENT_BUF_LEN) (htopic : m.topic.length < 128) :
    ∃ (q : Packet) (rest : List UInt8) (acks : List (List UInt8 × List UInt8)),
      q.mem = p.bytes ++ rest ∧ q.phead = BUF_HEADLEN ∧ q.ppayload = BUF_HEADLEN ∧
        q.allbuf.length = BUF_HEADLEN + BUF_LEN ∧
        mqttDispatchPublishPacket h (mqttReceived m.bytes) =
          if m.tail = [] ∨ p.cmd = P0_WITH_SN ∧ ¬ AckFits h m then none
          else some (q, p.bytes.length, acks) := by
  obtain ⟨htop, htl, hparts⟩ := m.fields (mem_mqttReceived m.bytes) hfits
  obtain ⟨off, hpub, hoff⟩ := hparts htopic
  rw [hmsg] at hpub
  have hsplit : m.bytes = m.first :: m.len ++ htons m.topic.length.toUInt16 ++ m.topic ++ m.msgId ++
      p.bytes := by
    rw [Publish.bytes, hmsg]
    simp
  have hlen : m.bytes.length = off.toNat + p.bytes.length := by
    rw [hoff, ← List.length_append, ← hsplit]
  simp only [GAGENT_BUF_LEN] at hfits
  have hn : p.bytes.length.toUInt16.toNat = p.bytes.length :=
    UInt16.toNat_ofNat_of_lt' (by
      show p.bytes.length < 65536
      omega)
  have hpos : p.bytes.length.toUInt16 ≠ 0 := by
    intro h0
    have := p.length_bytes
    rw [h0] at hn
    have hz : (0 : UInt16).toNat = 0 := rfl
    omega
  have hall : (mqttReceived m.bytes).allbuf.length = BUF_HEADLEN + BUF_LEN :=
    length_receivedIn (by
      simp only [BUF_LEN]
      omega)
  have hbehind : (mqttReceived m.bytes).allbuf.drop ((mqttReceived m.bytes).phead + off.toNat) =
      p.bytes ++ List.replicate (BUF_LEN - m.bytes.length) 0 := by
    rw [← List.drop_drop]
    show (mqttReceived m.bytes).mem.drop off.toNat = _
    have hdrop : m.bytes.drop off.toNat = p.bytes := by rw [hsplit, hoff, List.drop_left]
    rw [mem_mqttReceived, List.drop_append_of_le_length (by omega), hdrop]
  have hslice : (mqttReceived m.bytes).slice ((mqttReceived m.bytes).phead + off.toNat)
      p.bytes.length = p.bytes := by
    rw [Packet.slice, hbehind, List.take_left]
  have hroom : (mqttReceived m.bytes).phead + p.bytes.length ≤
      (mqttReceived m.bytes).allbuf.length := by
    rw [hall]
    show BUF_HEADLEN + p.bytes.length ≤ _
    simp only [BUF_LEN]
    omega
  have hhead : p.bytes ++ List.replicate (BUF_LEN - m.bytes.length) 0 =
      p.head ++ (p.sn ++ p.payload ++ List.replicate (BUF_LEN - m.bytes.length) 0) := by
    rw [P0Packet.bytes, List.append_assoc]
  obtain ⟨hvarlen, -, hcmd⟩ := p.fields hhead
  refine ⟨{ mqttReceived m.bytes with
      allbuf := overwrite (mqttReceived m.bytes).allbuf (mqttReceived m.bytes).phead p.bytes },
    (mqttReceived m.bytes).allbuf.drop ((mqttReceived m.bytes).phead + p.bytes.length),
    if p.cmd = P0_WITH_SN then
      [(ackTopic h.did ((m.tail.tail.takeWhile (· ≠ 0)).take PHONECLIENTID),
        (overwrite ((overwrite (mqttReceived m.bytes).allbuf (mqttReceived m.bytes).phead
          p.bytes).drop ((mqttReceived m.bytes).phead + off.toNat)) (4 + p.len.length + 1)
            [0x00, 0x94]).take p.bytes.length)]
    else [], ?_, rfl, rfl, (length_overwrite hroom).trans hall, ?_⟩
  · show (overwrite (mqttReceived m.bytes).allbuf BUF_HEADLEN p.bytes).drop BUF_HEADLEN = _
    have hpre : ((mqttReceived m.bytes).allbuf.take BUF_HEADLEN).length = BUF_HEADLEN := by
      rw [List.length_take, hall]
      exact Nat.min_eq_left (Nat.le_add_right _ _)
    rw [overwrite, List.append_assoc, List.drop_left' hpre]
    rfl
  have hput : (mqttReceived m.bytes).put (mqttReceived m.bytes).phead p.bytes =
      some { mqttReceived m.bytes with
        allbuf := overwrite (mqttReceived m.bytes).allbuf (mqttReceived m.bytes).phead p.bytes } :=
    if_pos hroom
  have henough : ¬ (mqttReceived m.bytes).allbuf.length <
      (mqttReceived m.bytes).phead + off.toNat + p.bytes.length := by
    rw [hall]
    show ¬ BUF_HEADLEN + BUF_LEN < BUF_HEADLEN + off.toNat + p.bytes.length
    simp only [BUF_LEN]
    omega
  rw [mqttDispatchPublishPacket]
  simp only [htop, hpub, htl, hn]
  rw [if_neg (by omega), if_neg (by rw [m.take_topic]; simp), if_neg hpos, m.afterDid_topic]
  by_cases htail : m.tail = []
  · rw [if_pos htail, if_pos (.inl htail)]
    rfl
  rw [if_neg htail]
  simp only [Option.bind_eq_bind, Option.bind_some, if_neg henough, hslice, hput, hbehind, hvarlen,
    hcmd]
  have hdata : ((overwrite ((overwrite (mqttReceived m.bytes).allbuf (mqttReceived m.bytes).phead
      p.bytes).drop ((mqttReceived m.bytes).phead + off.toNat)) (4 + p.len.length + 1)
        [0x00, 0x94]).take p.bytes.length).length = m.msg.length := by
    have hregion : ((overwrite (mqttReceived m.bytes).allbuf (mqttReceived m.bytes).phead
        p.bytes).drop ((mqttReceived m.bytes).phead + off.toNat)).length =
          BUF_HEADLEN + BUF_LEN - (BUF_HEADLEN + off.toNat) := by
      rw [List.length_drop, length_overwrite hroom, hall]
      rfl
    have hbytes := p.length_bytes
    rw [hmsg, List.length_take, length_overwrite (by
      rw [hregion]
      simp only [BUF_LEN, List.length_cons, List.length_nil]
      omega), hregion]
    simp only [BUF_LEN]
    omega
  have hack (topic : List UInt8) := publishFits_congr topic hdata
  by_cases hsn : p.cmd = P0_WITH_SN
  · simp only [if_pos hsn]
    by_cases hfit : AckFits h m
    · rw [if_pos ((hack _).2 hfit), if_neg (by tauto)]
    · rw [if_neg (mt (hack _).1 hfit), if_pos (.inr ⟨hsn, hfit⟩)]
  · simp only [if_neg hsn]
    rw [if_neg (by tauto)]

theorem P0Packet.cloud_parsed (p : P0Packet) {q : Packet} {rest : List UInt8}
    (hmem : q.mem = p.bytes ++ rest) (hhead : q.phead = BUF_HEADLEN)
    (hpp : q.ppayload = BUF_HEADLEN) (hall : q.allbuf.length = BUF_HEADLEN + BUF_LEN)
    (hfits : p.bytes.length ≤ GAGENT_BUF_LEN) :
    (parsePacket .cloudDataIn q).Ordered ∧ (parsePacket .cloudDataIn q).Outgoing ∧
      (parsePacket .cloudDataIn q).pend = BUF_HEADLEN + p.bytes.length ∧
      (parsePacket .cloudDataIn q).payload =
        if p.cmd = GAGENT_LAN_CMD_TRANSMIT ∨ p.cmd = P0_WITH_SN then p.payload else p.bytes := by
  have hsize := p.length_bytes
  simp only [GAGENT_BUF_LEN] at hfits
  have hbuf : q.mem = p.head ++ (p.sn ++ p.payload ++ rest) := by
    rw [hmem, bytes]
    simp
  obtain ⟨hv, hlen, hcmd⟩ := p.fields hbuf
  rw [Nat.mod_eq_of_lt (by omega)] at hlen
  have hpend : (parsePacket .cloudDataIn q).pend = BUF_HEADLEN + p.bytes.length := by
    show q.phead + 4 + mqttNumRemLenBytes (q.mem.drop 3) + (mqttParseRemLen (q.mem.drop 3)).toNat = _
    rw [hhead, hv, hlen, hsize]
    omega
  have hppayload : (parsePacket .cloudDataIn q).ppayload =
      if p.cmd = P0_WITH_SN then BUF_HEADLEN + 4 + p.len.length + 1 + 2 + 4
      else if p.cmd = GAGENT_LAN_CMD_TRANSMIT then BUF_HEADLEN + 4 + p.len.length + 1 + 2
      else BUF_HEADLEN := by
    show (if ntohsAt q.mem (4 + mqttNumRemLenBytes (q.mem.drop 3) + 1) = P0_WITH_SN then
      q.phead + 4 + mqttNumRemLenBytes (q.mem.drop 3) + 1 + 2 + 4 else _) = _
    rw [hv, hcmd, hhead, hpp]
  have hsn := p.hsn
  have hpay : ∃ pre, (parsePacket .cloudDataIn q).ppayload = BUF_HEADLEN + pre ∧
      pre ≤ p.bytes.length ∧ p.bytes.drop pre =
        if p.cmd = GAGENT_LAN_CMD_TRANSMIT ∨ p.cmd = P0_WITH_SN then p.payload else p.bytes := by
    rw [hppayload]
    have hdrop : p.bytes.drop (4 + p.len.length + 3 + p.sn.length) = p.payload := by
      rw [bytes, ← p.length_head, ← List.drop_drop, List.drop_left, List.drop_left]
    split at hsn
    · rename_i hc
      refine ⟨4 + p.len.length + 3 + p.sn.length, ?_, by omega, ?_⟩
      · rw [if_pos hc]
        omega
      · rw [hdrop, if_pos (.inr hc)]
    · rename_i hc
      by_cases ht : p.cmd = GAGENT_LAN_CMD_TRANSMIT
      · refine ⟨4 + p.len.length + 3 + p.sn.length, ?_, by omega, ?_⟩
        · rw [if_neg hc, if_pos ht]
          omega
        · rw [hdrop, if_pos (.inl ht)]
      · refine ⟨0, ?_, Nat.zero_le _, ?_⟩
        · rw [if_neg hc, if_neg ht, Nat.add_zero]
        · rw [if_neg (not_or.2 ⟨ht, hc⟩), List.drop_zero]
  obtain ⟨pre, hpre, hle, hdrop⟩ := hpay
  have hord : (parsePacket .cloudDataIn q).Ordered := by
    refine ⟨?_, ?_, ?_⟩
    · show q.phead ≤ _
      rw [hhead, hpre]
      exact Nat.le_add_right _ _
    · rw [hpre, hpend]
      omega
    · show _ ≤ q.allbuf.length
      rw [hpend, hall]
      simp only [BUF_LEN]
      omega
  refine ⟨hord, ⟨?_, hord.payload, hord.inside, Nat.le_of_eq hall⟩, hpend, ?_⟩
  · rw [hpre, MCU_HDR_LEN]
    simp only [BUF_HEADLEN]
    omega
  · rw [← hdrop]
    have hparts : (parsePacket .cloudDataIn q).mem =
        p.bytes.take pre ++ (p.bytes.drop pre ++ rest) := by
      show q.mem = _
      rw [hmem, ← List.append_assoc, List.take_append_drop]
    refine Packet.payload_eq hparts ?_ ?_
    · show _ = q.phead + _
      rw [hpre, hhead, List.length_take, Nat.min_eq_left hle]
    · rw [hpend, hpre, List.length_drop]
      omega

/-- What is done with a PUBLISH: only one whose topic has room and is the device's is passed on. -/
theorem relay_publish (hrx : ReadOf rx m.bytes) {r : Relay} (hr : relay h (.cloud rx) = some r) :
    (mqttParsePubTopic (mqttReceived rx).mem).1.toNat < 128 ∧
      ((mqttParsePubTopic (mqttReceived rx).mem).2.take app2dev.length = app2dev →
        ∃ bytes, r.sent = [(.mcu, bytes)]) := by
  have htype : mqttParseMessageType rx = MQTT_MSG_PUBLISH := by
    obtain ⟨rest, hrest⟩ := hrx.prefixOf
    obtain ⟨b, bs, rfl⟩ := List.exists_cons_of_ne_nil hrx.notEmpty
    obtain rfl : b = m.first := (List.cons.inj hrest).1
    exact m.hfirst
  rw [relay, if_pos htype] at hr
  obtain ⟨⟨q, n, acks⟩, hd, hr⟩ := Option.bind_eq_some_iff.1 hr
  have hcases : (mqttParsePubTopic (mqttReceived rx).mem).1.toNat < 128 ∧
      ((mqttParsePubTopic (mqttReceived rx).mem).2.take app2dev.length = app2dev → 0 < n) := by
    rw [mqttDispatchPublishPacket] at hd
    dsimp only at hd
    split at hd
    · cases hd
    rename_i htopic
    refine ⟨by omega, fun hdev => ?_⟩
    rw [if_neg (not_not.2 hdev)] at hd
    split at hd
    · cases hd
    rename_i hlen
    have hpos : 0 < (mqttParsePublishMsg (mqttReceived rx).mem).2.toNat :=
      Nat.pos_of_ne_zero fun h0 => hlen (UInt16.toNat_inj.1 h0)
    obtain ⟨client, -, hd⟩ := Option.bind_eq_some_iff.1 hd
    split at hd
    · cases hd
    obtain ⟨q', -, hd⟩ := Option.bind_eq_some_iff.1 hd
    split at hd
    · split at hd
      · obtain ⟨-, hn⟩ := Prod.mk.inj (Option.some.inj hd)
        exact (Prod.mk.inj hn).1 ▸ hpos
      · cases hd
    · obtain ⟨-, hn⟩ := Prod.mk.inj (Option.some.inj hd)
      exact (Prod.mk.inj hn).1 ▸ hpos
  refine ⟨hcases.1, fun hdev => ?_⟩
  dsimp only at hr
  rw [if_pos (hcases.2 hdev)] at hr
  obtain ⟨⟨q', sent⟩, hdeal, hq'⟩ := Option.bind_eq_some_iff.1 hr
  cases hq'
  exact dealLocal_sent hdeal

theorem relay_other_topic
    (htopic : (mqttParsePubTopic (mqttReceived rx).mem).1.toNat < 128)
    (hdev : (mqttParsePubTopic (mqttReceived rx).mem).2.take app2dev.length ≠ app2dev) :
    relay h (.cloud rx) = some ⟨[mqttReceived rx], [], []⟩ := by
  have hd : mqttDispatchPublishPacket h (mqttReceived rx) = some (mqttReceived rx, 0, []) := by
    rw [mqttDispatchPublishPacket]
    dsimp only
    rw [if_neg (by omega), if_pos hdev]
  rw [relay]
  split
  · rw [hd]
    rfl
  · rfl

theorem mqttReceived_ordered (hrx : rx.length ≤ GAGENT_BUF_LEN) : (mqttReceived rx).Ordered := by
  refine ⟨Nat.le_refl _, Nat.le_add_right _ _, ?_⟩
  show BUF_HEADLEN + rx.length ≤ (receivedIn BUF_LEN rx).allbuf.length
  simp only [GAGENT_BUF_LEN] at hrx
  rw [length_receivedIn (by simp only [BUF_LEN]; omega)]
  simp only [BUF_LEN]
  omega

theorem relay_whole (hmsg : m.msg = p.bytes) (hrx : ReadOf m.bytes m.bytes)
    (htopic : m.topic.length < 128) : ∃ (q q' : Packet) (acks : List (List UInt8 × List UInt8)),
      q.Ordered ∧ q'.Ordered ∧
        q.payload = (if p.cmd = GAGENT_LAN_CMD_TRANSMIT ∨ p.cmd = P0_WITH_SN then p.payload else p.bytes) ∧
        relay h (.cloud m.bytes) =
          if m.tail = [] ∨ p.cmd = P0_WITH_SN ∧ ¬ AckFits h m then none
          else some ⟨[q, q'], [(.mcu, [0xFF, 0xFF] ++
            stuff 0xFF 0x55 (frameBody MCU_CTRL_CMD h.newSN q.payload))], acks⟩ := by
  obtain ⟨q, rest, acks, hmem, hhead, hpp, hall, hd⟩ := dispatch_whole h hmsg hrx.fits htopic
  have hsize : m.bytes.length = 1 + m.len.length + (2 + m.topic.length + m.msgId.length + p.bytes.length) := by
    rw [Publish.bytes, hmsg]
    simp [htons]
    omega
  have hfits := hrx.fits
  obtain ⟨hord, hout, hpend, hpay⟩ := p.cloud_parsed hmem hhead hpp hall (by omega)
  have hroom : (parsePacket .cloudDataIn q).pend + (parsePacket .cloudDataIn q).payload.length + 9 ≤
      (parsePacket .cloudDataIn q).allbuf.length := by
    show _ ≤ q.allbuf.length
    rw [hall, hpend, hord.length_payload, hpend]
    simp only [GAGENT_BUF_LEN, BUF_LEN, BUF_HEADLEN] at hfits ⊢
    omega
  obtain ⟨q', hord', hdeal⟩ := dealLocal_eq h hout hroom
  refine ⟨_, q', acks, hord, hord', hpay, ?_⟩
  have hpos : 0 < p.bytes.length := by
    have := p.length_bytes
    omega
  have htype : mqttParseMessageType m.bytes = MQTT_MSG_PUBLISH := m.hfirst
  rw [relay, if_pos htype, hd]
  split
  · rfl
  · simp only [Option.bind_eq_bind, Option.bind_some, if_pos hpos, hdeal]

theorem relayed_cloud (hmsg : m.msg <+: p.bytes) (hrx : ReadOf rx m.bytes) :
    Relayed h (.cloud m p hmsg rx hrx) ↔ RelayCond h (.cloud m p hmsg rx hrx) := by
  by_cases hall : rx = m.bytes
  · subst hall
    obtain ⟨htop, htl, -⟩ := m.fields (mem_mqttReceived m.bytes) hrx.fits
    have hcond : RelayCond h (.cloud m p hmsg m.bytes hrx) ↔
        m.topic.length < 128 ∧ PublishCond h m p := by
      simp only [RelayCond, htop, htl, if_true]
    rw [hcond]
    constructor
    · rintro ⟨r, hr, -, hdel⟩
      obtain ⟨htopic, hsent⟩ := relay_publish hrx hr
      rw [htop, htl] at htopic
      rw [htop, m.take_topic] at hsent
      obtain ⟨bytes, hbytes⟩ := hsent rfl
      have heq : m.msg = p.bytes := by
        by_contra hne
        have hnil := hdel.2 fun hw => hne hw.2
        rw [hbytes] at hnil
        exact nomatch hnil
      obtain ⟨q, q', acks, -, -, hpay, hwhole⟩ := relay_whole (h := h) heq hrx htopic
      have hok := hwhole.symm.trans hr
      split at hok
      · cases hok
      rename_i hno
      cases hok
      have hcarry := (hdel.1 ⟨rfl, heq⟩).2 _ List.mem_cons_self
      have hlen := length_of_carries hcarry
      refine ⟨htopic, heq, fun ht => hno (.inl ht), ?_⟩
      by_contra hcmd
      have hcmd' : ¬ (p.cmd = GAGENT_LAN_CMD_TRANSMIT ∨ p.cmd = P0_WITH_SN) := by
        rintro (ht | hs)
        · exact hcmd (.inl ht)
        · exact hcmd (.inr ⟨hs, by_contra fun hf => hno (.inr ⟨hs, hf⟩)⟩)
      rw [hpay, if_neg hcmd', p.length_bytes] at hlen
      simp only [Source.payload] at hlen
      omega
    · rintro ⟨htopic, heq, htail, hcmd⟩
      obtain ⟨q, q', acks, hord, hord', hpay, hwhole⟩ := relay_whole (h := h) heq hrx htopic
      have hcmd' : p.cmd = GAGENT_LAN_CMD_TRANSMIT ∨ p.cmd = P0_WITH_SN := hcmd.imp_right And.left
      rw [if_pos hcmd'] at hpay
      have hno : ¬ (m.tail = [] ∨ p.cmd = P0_WITH_SN ∧ ¬ AckFits h m) := by
        rintro (ht | ⟨hs, hf⟩)
        · exact htail ht
        · rcases hcmd with ht | hs'
          · rw [ht] at hs
            exact absurd hs (by decide)
          · exact hf hs'.2
      rw [if_neg hno, hpay] at hwhole
      exact relayed_of_frame (s := .cloud m p hmsg m.bytes hrx) hwhole hord hord' ⟨rfl, heq⟩ rfl
  · have hcut : ¬ (Source.cloud m p hmsg rx hrx).Whole := fun hw => hall hw.1
    have hcond : RelayCond h (.cloud m p hmsg rx hrx) ↔
        (mqttParsePubTopic (mqttReceived rx).mem).1.toNat < 128 ∧
          (mqttParsePubTopic (mqttReceived rx).mem).2.take app2dev.length ≠ app2dev := by
      simp only [RelayCond, if_neg hall]
    rw [hcond]
    constructor
    · rintro ⟨r, hr, -, hdel⟩
      obtain ⟨htopic, hsent⟩ := relay_publish hrx hr
      refine ⟨htopic, fun hdev => ?_⟩
      obtain ⟨bytes, hbytes⟩ := hsent hdev
      have hnil := hdel.2 hcut
      rw [hbytes] at hnil
      exact nomatch hnil
    · rintro ⟨htopic, hdev⟩
      refine ⟨_, relay_other_topic htopic hdev, fun q hq => ?_, fun hw => absurd hw hcut,
        fun _ => rfl⟩
      rw [List.mem_singleton.1 hq]
      exact mqttReceived_ordered hrx.fits

/-! ## Every source -/

/-- A payload reaches every side that it is for, as it was, exactly under `RelayCond`. -/
theorem payload_relay (h : Hub) (s : Source) (hs : s.Admitted h) : Relayed h s ↔ RelayCond h s := by
  cases s with
  | mcu f => exact relayed_mcu h f
  | lan i p hcmd rx hrx =>
    by_cases hwhole : rx = p.bytes
    · rw [relayed_lan_whole hcmd hrx hs hwhole, RelayCond, if_pos hwhole]
    · rw [relayed_lan_cut hcmd hrx hs hwhole, RelayCond, if_neg hwhole]
  | cloud m p hmsg rx hrx => exact relayed_cloud hmsg hrx

/-- A gateway that the first client has logged in to. -/
def clientHub : Hub where
  gateway := ⟨fun i => if i = 0 then ⟨5, 14, .success⟩ else ⟨-1, 0, .fail⟩, 1, 0, 0, [], 0⟩
  did := List.replicate 22 0x61
  hdid := by decide
  newSN := 1
  localOut := false

/-- Three bytes for the MCU. -/
def threeBytes : P0Packet where
  version := [0, 0, 0, 3]
  len := [6]
  flag := 0
  cmd := GAGENT_LAN_CMD_TRANSMIT
  sn := []
  payload := [0x01, 0xFF, 0x02]
  hversion := rfl
  hsn := rfl
  hfield := rfl
  hsize := by decide
  hval := rfl

def threeBytesRead : Source :=
  .lan 0 threeBytes rfl threeBytes.bytes ⟨List.prefix_refl _, by decide, by decide⟩

theorem payload_relay_transmit : threeBytesRead.Admitted clientHub ∧ Relayed clientHub threeBytesRead :=
  ⟨rfl, (payload_relay clientHub threeBytesRead rfl).2 (by
    show if threeBytes.bytes = threeBytes.bytes then threeBytes.payload ≠ []
      else LanCut threeBytes.bytes
    rw [if_pos rfl]
    decide)⟩

/-- A report of the MCU with two bytes. -/
def twoByteReport : McuFrame where
  cmd := MCU_REPORT
  sn := 1
  flags := 0
  payload := [0x10, 0x20]
  hcmd := .inl rfl
  hfits := by decide

/-- The client is sent the checksum of the frame as a third byte. -/
theorem checksum_relayed : ¬ ∀ (h : Hub) (s : Source), s.Admitted h → Relayed h s := by
  intro hall
  have hdest := ((relayed_mcu clientHub twoByteReport).1
    (hall clientHub (.mcu twoByteReport) trivial)).1
  revert hdest
  decide

end SimpleLink.Gagent
