import SimpleLink.Client.ConnectFail

/-!
# The bytes of a CONNECT (`mqtt_client.c`)

`mqtt_client_ctx_will_register` and `mqtt_client_ctx_info_register` store what a CONNECT is to say.
`Registration` is what they accept: a will message belongs to a will, a password to a user name.
Whatever was registered, the packet that `connect_msg_send` builds has the strings in their order
behind the flags that announce them (`connectBuild_framed`).
-/

namespace SimpleLink.Client.Send

open SimpleLink.Lib SimpleLink.Mqtt
open SimpleLink.Server (MqttQos)

/-! ## Registering -/

/-- `is_valid_utf8_string`; the buffer may be NULL. -/
def isValidUtf8String (utf8 : Option Utf8String) : Bool := utf8.any fun t => !t.content.isEmpty

/-- `WILL_RETAIN_VAL`. -/
def willRetainVal : UInt8 := 0x20

/-- `mqtt_client_ctx_will_register`; the strings and their buffers may be NULL. -/
def willRegister (c : ConnInfo) (willTop willMsg : Option (Option Utf8String)) (willQos : MqttQos)
    (retain : Bool) : ConnInfo × Int :=
  if willTop.isNone && willMsg.isSome then (c, -1)
  else
    match willTop with
    | none => ({ c with willTop := none, willMsg := none, willOpts := 0 }, 0)
    | some top =>
      if !isValidUtf8String top then (c, -1)
      else
        let b := qosVal willQos <<< 3
        let b := if retain then b ||| willRetainVal else b
        if willMsg.any fun msg => !isValidUtf8String msg then (c, -1)
        else ({ c with willTop := top, willMsg := willMsg.join, willOpts := b }, 0)

/-- `mqtt_client_ctx_info_register`. -/
def infoRegister (c : ConnInfo) (clientId userName passWord : Option (Option Utf8String)) :
    ConnInfo × Int :=
  if clientId.any fun id => !isValidUtf8String id then (c, -1)
  else
    match userName with
    | none => ({ c with clientId := clientId.join, userName := none, password := none }, 0)
    | some user =>
      if !isValidUtf8String user then (c, -1)
      else if passWord.any fun pwd => !isValidUtf8String pwd then (c, -1)
      else ({ c with clientId := clientId.join, userName := user, password := passWord.join }, 0)

inductive RegisterCall where
  | will (willTop willMsg : Option (Option Utf8String)) (willQos : MqttQos) (retain : Bool)
  | info (clientId userName passWord : Option (Option Utf8String))

def registerStep (c : ConnInfo) : RegisterCall → ConnInfo × Int
  | .will willTop willMsg willQos retain => willRegister c willTop willMsg willQos retain
  | .info clientId userName passWord => infoRegister c clientId userName passWord

/-- What `client_reset` leaves. -/
def resetInfo : ConnInfo := ⟨none, none, none, none, none, 0⟩

def registered (calls : List RegisterCall) : ConnInfo :=
  calls.foldl (fun c call => (registerStep c call).1) resetInfo

/-! ## What is registered -/

structure Will where
  top : Utf8String
  msg : Option Utf8String
  qos : MqttQos
  retain : Bool

structure User where
  name : Utf8String
  passWord : Option Utf8String

structure Registration where
  clientId : Option Utf8String
  will : Option Will
  user : Option User

/-- `will_opts`. -/
def Will.opts (w : Will) : UInt8 :=
  if w.retain then qosVal w.qos <<< 3 ||| willRetainVal else qosVal w.qos <<< 3

def Registration.info (r : Registration) : ConnInfo where
  clientId := r.clientId
  willTop := r.will.map Will.top
  willMsg := r.will.bind Will.msg
  userName := r.user.map User.name
  password := r.user.bind User.passWord
  willOpts := (r.will.map Will.opts).getD 0

def Allowed (utf8 : Option (Option Utf8String)) : Bool := utf8.all isValidUtf8String

def Registration.register (r : Registration) : RegisterCall → Registration
  | .will none none _ _ => { r with will := none }
  | .will (some (some top)) willMsg qos retain =>
    if isValidUtf8String (some top) && Allowed willMsg then
      { r with will := some ⟨top, willMsg.join, qos, retain⟩ }
    else r
  | .will _ _ _ _ => r
  | .info clientId none _ =>
    if Allowed clientId then { r with clientId := clientId.join, user := none } else r
  | .info clientId (some (some name)) passWord =>
    if Allowed clientId && isValidUtf8String (some name) && Allowed passWord then
      { r with clientId := clientId.join, user := some ⟨name, passWord.join⟩ }
    else r
  | .info _ _ _ => r

def registrationOf (calls : List RegisterCall) : Registration :=
  calls.foldl Registration.register ⟨none, none, none⟩

theorem any_not_valid (utf8 : Option (Option Utf8String)) :
    utf8.any (fun u => !isValidUtf8String u) = !Allowed utf8 := by
  cases utf8 <;> rfl

theorem registerStep_info (r : Registration) (call : RegisterCall) :
    (registerStep r.info call).1 = (r.register call).info := by
  cases call with
  | will willTop willMsg willQos retain =>
    show (willRegister r.info willTop willMsg willQos retain).1 = _
    unfold willRegister
    match willTop with
    | none =>
      cases willMsg with
      | none => rfl
      | some msg => rfl
    | some none => rfl
    | some (some top) =>
      simp only [any_not_valid, Registration.register]
      cases isValidUtf8String (some top) with
      | false => rfl
      | true =>
        cases Allowed willMsg with
        | false => rfl
        | true => rfl
  | info clientId userName passWord =>
    show (infoRegister r.info clientId userName passWord).1 = _
    unfold infoRegister
    match userName with
    | none =>
      simp only [any_not_valid, Registration.register]
      cases Allowed clientId <;> rfl
    | some none =>
      simp only [any_not_valid, Registration.register]
      cases Allowed clientId <;> rfl
    | some (some name) =>
      simp only [any_not_valid, Registration.register]
      cases Allowed clientId with
      | false => rfl
      | true =>
        cases isValidUtf8String (some name) with
        | false => rfl
        | true =>
          cases Allowed passWord with
          | false => rfl
          | true => rfl

theorem registered_info (calls : List RegisterCall) :
    registered calls = (registrationOf calls).info := by
  have hrun : ∀ (cs : List RegisterCall) (r : Registration),
      cs.foldl (fun c call => (registerStep c call).1) r.info = (cs.foldl Registration.register r).info := by
    intro cs
    induction cs with
    | nil => exact fun r => rfl
    | cons call cs ih =>
      intro r
      rw [List.foldl_cons, List.foldl_cons, registerStep_info, ih]
  exact hrun calls ⟨none, none, none⟩

/-! ## The payload -/

/-- What `wr_connect_pl` is to write, and the options after it. -/
def connectPl : List (Nat × UInt8 × Option Utf8String) → UInt8 → List UInt8 × UInt8
  | [], connOpts => ([], connOpts)
  | (i, sel, utf8) :: us, connOpts =>
    if utf8.isNone && i ≠ 0 && !(i = 2 && connOpts &&& 0x04 ≠ 0) then connectPl us connOpts
    else
      let r := connectPl us (connOpts ||| sel)
      (prefixed ((utf8.map Utf8String.content).getD []) ++ r.1, r.2)

theorem prefixed_ne_nil (xs : List UInt8) : prefixed xs ≠ [] := by
  unfold prefixed be16
  exact List.cons_ne_nil _ _

theorem wrUtf8_bytes (utf8 : Option Utf8String) :
    let content := (utf8.map Utf8String.content).getD []
    (if (2 + content.length) % 2 ^ 16 = 2 then be16 0 else prefixed content) = prefixed content := by
  intro content
  have hlen : content.length < 2 ^ 16 := by
    cases utf8 with
    | none => exact Nat.two_pow_pos 16
    | some t => exact t.length_lt
  split
  · next h2 =>
    have hnil : content = [] := List.eq_nil_of_length_eq_zero (by omega)
    rw [hnil]
    rfl
  · rfl

theorem wrConnectLoop_ok {ref fsz : Nat} {us : List (Nat × UInt8 × Option Utf8String)}
    {buffer buffer' : List UInt8} {buf buf' : Nat} {connOpts connOpts' : UInt8}
    (h : wrConnectLoop ref fsz us buffer buf connOpts = some (.ok (buffer', buf', connOpts')))
    (hbuf : buf ≤ buffer.length ∨ (connectPl us connOpts).1 ≠ []) :
    buf + (connectPl us connOpts).1.length ≤ buffer.length ∧
      buffer' = overwrite buffer buf (connectPl us connOpts).1 ∧
      buf' = buf + (connectPl us connOpts).1.length ∧ connOpts' = (connectPl us connOpts).2 := by
  induction us generalizing buffer buf connOpts with
  | nil =>
    rcases hbuf with hbuf | hne
    · cases h
      exact ⟨hbuf, (overwrite_nil ..).symm, rfl, rfl⟩
    · exact absurd rfl hne
  | cons u us ih =>
    obtain ⟨i, sel, utf8⟩ := u
    unfold wrConnectLoop at h
    unfold connectPl at hbuf ⊢
    split at h
    · next hskip =>
      rw [if_pos hskip] at hbuf ⊢
      exact ih h hbuf
    · next hskip =>
      rw [if_neg hskip]
      dsimp only at h ⊢
      rw [wrUtf8_bytes utf8] at h
      generalize (utf8.map Utf8String.content).getD [] = content at h ⊢
      split at h
      · cases h
      · split at h
        · cases h
        · next buffer₁ hst =>
          obtain ⟨hfit, rfl⟩ := storeBytes_eq_some hst (prefixed_ne_nil content)
          have hlen := length_overwrite hfit
          obtain ⟨hin, hbuffer, hend, hopts⟩ := ih h (.inl (by omega))
          rw [hlen] at hin
          rw [overwrite_overwrite (by omega)] at hbuffer
          rw [List.length_append]
          exact ⟨by omega, hbuffer, by omega, hopts⟩

def Registration.payload (r : Registration) : List UInt8 :=
  let str (utf8 : Option Utf8String) : List UInt8 := prefixed ((utf8.map Utf8String.content).getD [])
  str r.clientId ++
    ((match r.will with
      | none => []
      | some w => str (some w.top) ++ str w.msg) ++
    (match r.user with
      | none => []
      | some u => str (some u.name) ++ (if u.passWord.isSome then str u.passWord else [])))

/-- `conn_opts` behind the payload. -/
def Registration.connOpts (r : Registration) (cleanSession : Bool) : UInt8 :=
  (if cleanSession then 0x02 else 0) ||| (if r.will.isSome then 0x04 else 0) |||
    (if r.user.isSome then 0x80 else 0) ||| (if (r.user.bind User.passWord).isSome then 0x40 else 0)

def Registration.connFlags (r : Registration) (cleanSession : Bool) : UInt8 :=
  r.info.willOpts ||| r.connOpts cleanSession

theorem connectPl_info (r : Registration) (cleanSession : Bool) :
    connectPl r.info.utf8s (if cleanSession then 0x02 else 0) =
      (r.payload, r.connOpts cleanSession) := by
  unfold Registration.connOpts
  obtain ⟨clientId, will, user⟩ := r
  have hskip : ∀ b : Bool, (if b then (0x02 : UInt8) else 0) &&& 0x04 = 0 := by decide
  have hwill : ∀ b : Bool, ((if b then (0x02 : UInt8) else 0) ||| 0x04) &&& 0x04 ≠ 0 := by decide
  cases will with
  | none =>
    cases user with
    | none => simp [connectPl, Registration.info, ConnInfo.utf8s, Registration.payload, hskip]
    | some u =>
      obtain ⟨name, passWord⟩ := u
      cases passWord with
      | none => simp [connectPl, Registration.info, ConnInfo.utf8s, Registration.payload, hskip]
      | some pwd => simp [connectPl, Registration.info, ConnInfo.utf8s, Registration.payload, hskip]
  | some w =>
    obtain ⟨top, msg, qos, retain⟩ := w
    cases user with
    | none => simp [connectPl, Registration.info, ConnInfo.utf8s, Registration.payload, hwill]
    | some u =>
      obtain ⟨name, passWord⟩ := u
      cases passWord with
      | none => simp [connectPl, Registration.info, ConnInfo.utf8s, Registration.payload, hwill]
      | some pwd => simp [connectPl, Registration.info, ConnInfo.utf8s, Registration.payload, hwill]

/-! ## Packets that were written -/

/-- A packet as `mqp_client_send_alloc` gives it. -/
def newPacket (buffer : List UInt8) (msgType : UInt8) : MqttPacket :=
  { mqpBufferAttach buffer maxFhLen with msgType := msgType }

def holding (buffer : List UInt8) (msgType : UInt8) (msgId : UInt16) (vh pl : List UInt8) :
    MqttPacket :=
  { newPacket buffer msgType with
    msgId := msgId
    vhLen := vh.length
    plLen := pl.length
    buffer := overwrite buffer maxFhLen (vh ++ pl) }

theorem framed_holding {buffer vh pl : List UInt8} {msgType flags : UInt8} {msgId : UInt16} {n : Nat}
    {mqp : MqttPacket} (hprep : mqpPrepFh (holding buffer msgType msgId vh pl) flags = some (n, mqp))
    (hmax : buffer.length < 2 ^ 32) (hin : maxFhLen + (vh ++ pl).length ≤ buffer.length) :
    Framed (makeFhByte1 msgType flags) mqp.handed (vh ++ pl) := by
  have hsame : (holding buffer msgType msgId vh pl).maxlen = buffer.length := length_overwrite hin
  have hinside : (holding buffer msgType msgId vh pl).endAt ≤
      (holding buffer msgType msgId vh pl).maxlen := by
    rw [hsame]
    rw [List.length_append] at hin
    show maxFhLen + 0 + vh.length + pl.length ≤ buffer.length
    omega
  have hbuilt : Built (holding buffer msgType msgId vh pl) :=
    ⟨rfl, Nat.le_refl _, hinside, lt_of_eq_of_lt hsame hmax⟩
  have hheld : (holding buffer msgType msgId vh pl).held = vh ++ pl := by
    show ((overwrite buffer maxFhLen (vh ++ pl)).drop maxFhLen).take (vh.length + pl.length) = _
    rw [← List.length_append]
    exact slice_overwrite (by omega) _
  have hframed := hbuilt.framed hprep
  rw [hheld] at hframed
  exact hframed

/-! ## The CONNECT -/

def connectVh (protoV31 : Bool) (r : Registration) (cleanSession : Bool) (kaSecs : UInt16) :
    List UInt8 :=
  protoBytes protoV31 ++ [r.connFlags cleanSession] ++ be16 kaSecs.toNat

theorem length_connectVh (protoV31 : Bool) (r : Registration) (cleanSession : Bool)
    (kaSecs : UInt16) :
    (connectVh protoV31 r cleanSession kaSecs).length = getConnectVhLen protoV31 := by
  simp only [connectVh, getConnectVhLen, List.length_append, List.length_singleton, length_be16]

theorem connectVh_ne_nil (protoV31 : Bool) (r : Registration) (cleanSession : Bool)
    (kaSecs : UInt16) : connectVh protoV31 r cleanSession kaSecs ≠ [] := by
  intro h
  have hlen := length_connectVh protoV31 r cleanSession kaSecs
  rw [h, getConnectVhLen, List.length_nil] at hlen
  omega

def connectBody (protoV31 : Bool) (r : Registration) (cleanSession : Bool) (kaSecs : UInt16) :
    List UInt8 :=
  connectVh protoV31 r cleanSession kaSecs ++ r.payload

theorem Registration.payload_ne_nil (r : Registration) : r.payload ≠ [] :=
  List.append_ne_nil_of_left_ne_nil (prefixed_ne_nil _) _

theorem connectBuild_framed {buffer : List UInt8} (hmax : buffer.length < 2 ^ 32)
    {protoV31 cleanSession : Bool} {r : Registration} {kaSecs : UInt16} {pkt : MqttPacket}
    (h : connectBuild (newPacket buffer 0x01) protoV31 r.info cleanSession kaSecs =
      some (.ok pkt)) :
    Framed 0x10 pkt.handed (connectBody protoV31 r cleanSession kaSecs) := by
  unfold connectBuild at h
  dsimp only at h
  split at h
  · cases h
  · split at h
    · cases h
    · cases h
    · next buffer₁ buf connOpts hloop =>
      -- the payload first, the variable header in front of it
      obtain ⟨hin, rfl, rfl, rfl⟩ := wrConnectLoop_ok hloop (.inr (by
        rw [connectPl_info]
        exact r.payload_ne_nil))
      rw [connectPl_info] at hin h
      split at h
      · cases h
      · next buffer₂ hst =>
        obtain ⟨⟨n, mqp'⟩, hprep, heq⟩ := Option.map_eq_some_iff.1 h
        obtain rfl := Except.ok.inj heq
        generalize hvl : getConnectVhLen protoV31 = vhl at hin hst hprep
        change maxFhLen + vhl + r.payload.length ≤ buffer.length at hin
        change storeBytes (overwrite buffer (maxFhLen + vhl) r.payload) (maxFhLen + vhl - vhl)
          (connectVh protoV31 r cleanSession kaSecs) = some buffer₂ at hst
        have hvh := length_connectVh protoV31 r cleanSession kaSecs
        rw [hvl] at hvh
        rw [Nat.add_sub_cancel] at hst
        obtain ⟨-, rfl⟩ := storeBytes_eq_some hst
          (connectVh_ne_nil protoV31 r cleanSession kaSecs)
        have hjoin : overwrite (overwrite buffer (maxFhLen + vhl) r.payload) maxFhLen
            (connectVh protoV31 r cleanSession kaSecs) =
            overwrite buffer maxFhLen (connectBody protoV31 r cleanSession kaSecs) := by
          rw [← hvh]
          exact overwrite_before (by omega) _
        change mqpPrepFh { newPacket buffer 0x01 with
          vhLen := vhl
          plLen := maxFhLen + vhl + r.payload.length - (maxFhLen + vhl)
          buffer := overwrite (overwrite buffer (maxFhLen + vhl) r.payload) maxFhLen
            (connectVh protoV31 r cleanSession kaSecs) } _ = some (n, mqp') at hprep
        rw [hjoin, Nat.add_sub_cancel_left, ← hvh] at hprep
        have hfirst : makeFhByte1 0x01 (makeFhFlags false .qos0 false) = 0x10 := by decide
        have hframed := @framed_holding buffer (connectVh protoV31 r cleanSession kaSecs) r.payload
          0x01 _ 0 n mqp' hprep hmax (by
            rw [List.length_append]
            omega)
        rw [hfirst] at hframed
        exact hframed

end SimpleLink.Client.Send
