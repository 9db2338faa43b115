import SimpleLink.Server.Contexts
import SimpleLink.Server.PublishRx

/-!
# CONNECT packets (`server_pkts.c`)

`connectRead` is `proc_connect_vh_rx` followed by `proc_connect_pl_rx`, with the cursor
`buf` of the C code as an index into the payload. A byte that is not in the payload has no
value, and neither has a string that was not read; a parser that needs one has no outcome.

`ConnectFields` is what a CONNECT consists of. `ConnectExact` says that the parsers keep to
the payload, accept it if and only if it is a CONNECT, and that a connection whose CONNECT
is none is refused before the core hears of it. The first string is read without a look at
the answer, so the cursor goes back by one where the string is not there; the flags are
read without a look at the end; and nothing looks for bytes behind the last string
(`connectExact_iff`).
-/

namespace SimpleLink.Server

open Lib Mqtt

/-! ## Reading at a cursor -/

/-- The byte of the payload at `buf`. -/
def rdByte (payload : List UInt8) (buf : Int) : Option UInt8 :=
  if buf < 0 then none else payload[buf.toNat]?

/-- `struct utf8_string`; `buffer` is an index into the payload. -/
structure Utf8Ref where
  buffer : Int
  length : Nat
  deriving DecidableEq

def Utf8Ref.content (payload : List UInt8) (utf8 : Utf8Ref) : List UInt8 :=
  (payload.drop utf8.buffer.toNat).take utf8.length

/-- `mqp_buf_rd_utf8`: what it returns, and the string if it sets it. -/
def mqpBufRdUtf8At (payload : List UInt8) (buf : Int) : Option (Int × Option Utf8Ref) :=
  if (payload.length : Int) - buf < 2 then some (-1, none)
  else
    match rdByte payload buf, rdByte payload (buf + 1) with
    | some hi, some lo =>
      let len := (bufRdNbo2B hi lo).toNat
      if (payload.length : Int) - (buf + 2) < len then some (-1, none)
      else some (2 + len, some ⟨buf + 2, len⟩)
    | _, _ => none

/-- The comparison of the bytes from `buf` on, which ends at the first that differs. -/
def bytesAre (payload : List UInt8) (buf : Int) : List UInt8 → Option Bool
  | [] => some true
  | b :: bs =>
    match rdByte payload buf with
    | none => none
    | some x => if x = b then bytesAre payload (buf + 1) bs else some false

/-- One of the two tests of `proc_protocol_info`. -/
def protocolIs (payload : List UInt8) (utf8 : Utf8Ref) (ver : UInt8) (name : List UInt8)
    (version : UInt8) : Option Bool :=
  if name.length = utf8.length then
    (bytesAre payload utf8.buffer name).map fun same => same && version == ver
  else some false

/-- `proc_protocol_info`. -/
def procProtocolInfoAt (payload : List UInt8) (utf8 : Utf8Ref) (ver : UInt8) : Option Bool :=
  match protocolIs payload utf8 ver [0x4D, 0x51, 0x54, 0x54] 0x04 with
  | none => none
  | some true => some true
  | some false => protocolIs payload utf8 ver [0x4D, 0x51, 0x49, 0x73, 0x64, 0x70] 0x03

/-- `proc_connect_vh_rx`: the flags, the time-out and where the payload of the message starts, or what
CONNACK says. -/
def procConnectVhRxAt (payload : List UInt8) : Option (Except UInt16 (UInt8 × UInt16 × Int)) :=
  match mqpBufRdUtf8At payload 0 with
  | none => none
  | some (buf, utf8) =>
    if (payload.length : Int) - buf < 1 then some (.error connackRcBadProtov)
    else
      match rdByte payload buf, utf8 with
      | some ver, some utf8 =>
        match procProtocolInfoAt payload utf8 ver with
        | none => none
        | some false => some (.error connackRcBadProtov)
        | some true =>
          match rdByte payload (buf + 1) with
          | none => none
          | some connFlags =>
            if (payload.length : Int) - (buf + 2) < 2 then some (.error 0xFF)
            else
              match rdByte payload (buf + 2), rdByte payload (buf + 3) with
              | some hi, some lo =>
                let kaSecs := bufRdNbo2B hi lo
                some (.ok (connFlags, kaSecs + kaSecs >>> 1, buf + 4))
              | _, _ => none
      | _, _ => none

/-- `RET_IF_RD_CONN_ERROR`: no outcome, an error, or the string and the cursor behind it. -/
def rdConnUtf8 (payload : List UInt8) (buf : Int) : Option (Option (List UInt8 × Int)) :=
  match mqpBufRdUtf8At payload buf with
  | none => none
  | some (len, utf8) =>
    if len < 0 then some none
    else utf8.map fun utf8 => some (utf8.content payload, buf + len)

def rdThen {α β : Type} (x : Option (Option α)) (f : α → Option (Option β)) :
    Option (Option β) :=
  match x with
  | none => none
  | some none => some none
  | some (some a) => f a

/-- A string that is there if `b` is set. -/
def rdConnUtf8If (b : Bool) (payload : List UInt8) (buf : Int) :
    Option (Option (Option (List UInt8) × Int)) :=
  if b then rdThen (rdConnUtf8 payload buf) fun r => some (some (some r.1, r.2))
  else some (some (none, buf))

/-- `proc_connect_pl_rx`, and the cursor after it. -/
def procConnectPlRxAt (payload : List UInt8) (connFlags : UInt8) (buf : Int) :
    Option (Option (ConnUtf8s × Int)) :=
  let will := connFlags &&& willConfigVal != 0
  let user := connFlags &&& userNameOpval != 0
  let pass := connFlags &&& passWordOpval != 0
  rdThen (rdConnUtf8 payload buf) fun (clientId, buf) =>
  rdThen (rdConnUtf8If will payload buf) fun (willTop, buf) =>
  rdThen (rdConnUtf8If will payload buf) fun (willMsg, buf) =>
  if !user && pass then some none
  else
    rdThen (rdConnUtf8If user payload buf) fun (userName, buf) =>
    rdThen (rdConnUtf8If pass payload buf) fun (passWord, buf) =>
    some (some (⟨clientId, willTop, willMsg, userName, passWord⟩, buf))

def connectRead (payload : List UInt8) :
    Option (Except UInt16 (UInt8 × UInt16 × ConnUtf8s)) :=
  match procConnectVhRxAt payload with
  | none => none
  | some (.error rc) => some (.error rc)
  | some (.ok (connFlags, kaSecs, buf)) =>
    (procConnectPlRxAt payload connFlags buf).map fun
      | none => .error 0x00FF
      | some (utf8s, _) => .ok (connFlags, kaSecs, utf8s)

/-! ## What a CONNECT consists of -/

def optBytes : Option (List UInt8) → List UInt8
  | none => []
  | some xs => prefixed xs

def ConnUtf8s.bytes (u : ConnUtf8s) : List UInt8 :=
  prefixed u.clientId ++ (optBytes u.willTop ++ (optBytes u.willMsg ++
    (optBytes u.userName ++ optBytes u.passWord)))

def OptFits (o : Option (List UInt8)) : Prop := ∀ xs ∈ o, xs.length < 2 ^ 16

/-- The strings that the flags announce; a password is announced together with a user name only. -/
structure ConnUtf8s.Announced (u : ConnUtf8s) (connFlags : UInt8) : Prop where
  clientId : u.clientId.length < 2 ^ 16
  willTop : OptFits u.willTop ∧ u.willTop.isSome = (connFlags &&& willConfigVal != 0)
  willMsg : OptFits u.willMsg ∧ u.willMsg.isSome = (connFlags &&& willConfigVal != 0)
  userName : OptFits u.userName ∧ u.userName.isSome = (connFlags &&& userNameOpval != 0)
  passWord : OptFits u.passWord ∧ u.passWord.isSome = (connFlags &&& passWordOpval != 0)
  both : u.passWord.isSome → u.userName.isSome

structure ConnectFields where
  name : List UInt8
  ver : UInt8
  connFlags : UInt8
  kaSecs : UInt16
  utf8s : ConnUtf8s

def ConnectFields.bytes (f : ConnectFields) : List UInt8 :=
  prefixed f.name ++ f.ver :: f.connFlags :: (be16 f.kaSecs.toNat ++ f.utf8s.bytes)

/-- The server supports the protocol, and the strings are those of the flags. -/
structure ConnectFields.Valid (f : ConnectFields) : Prop where
  protocol : procProtocolInfo f.name f.ver = true
  announced : f.utf8s.Announced f.connFlags

def IsConnect (payload : List UInt8) : Prop := ∃ f : ConnectFields, f.Valid ∧ payload = f.bytes

/-- The name ends in the payload, a supported version is not its last byte, and nothing is behind the
last string. -/
structure ConnectRegular (payload : List UInt8) : Prop where
  name : ∃ name rest, name.length < 2 ^ 16 ∧ payload = prefixed name ++ rest
  flags : ∀ name ver, procProtocolInfo name ver = true → payload ≠ prefixed name ++ [ver]
  last : ∀ (f : ConnectFields) t, f.Valid → payload = f.bytes ++ t → t = []

/-! ## The cursor -/

/-- The cursor is where `rest` begins. -/
def CursorAt (payload : List UInt8) (buf : Int) (rest : List UInt8) : Prop :=
  ∃ pre, payload = pre ++ rest ∧ buf = (pre.length : Int)

theorem CursorAt.start (payload : List UInt8) : CursorAt payload 0 payload := ⟨[], rfl, rfl⟩

theorem CursorAt.left {payload rest : List UInt8} {buf : Int} (h : CursorAt payload buf rest) :
    (payload.length : Int) - buf = rest.length := by
  obtain ⟨pre, rfl, rfl⟩ := h
  rw [List.length_append]
  omega

theorem CursorAt.skip {payload xs rest : List UInt8} {buf n : Int}
    (h : CursorAt payload buf (xs ++ rest)) (hn : n = xs.length) :
    CursorAt payload (buf + n) rest := by
  obtain ⟨pre, rfl, rfl⟩ := h
  refine ⟨pre ++ xs, (List.append_assoc ..).symm, ?_⟩
  rw [List.length_append]
  omega

theorem CursorAt.byte {payload rest : List UInt8} {buf : Int} {b : UInt8}
    (h : CursorAt payload buf (b :: rest)) : rdByte payload buf = some b := by
  obtain ⟨pre, rfl, rfl⟩ := h
  unfold rdByte
  rw [if_neg (by omega), Int.toNat_natCast, List.getElem?_append_right (Nat.le_refl _),
    Nat.sub_self]
  rfl

theorem CursorAt.stop {payload : List UInt8} {buf : Int} (h : CursorAt payload buf []) :
    rdByte payload buf = none := by
  obtain ⟨pre, rfl, rfl⟩ := h
  unfold rdByte
  rw [if_neg (by omega), Int.toNat_natCast, List.append_nil]
  exact List.getElem?_eq_none (Nat.le_refl _)

theorem CursorAt.next {payload rest : List UInt8} {buf : Int} {b : UInt8}
    (h : CursorAt payload buf (b :: rest)) : CursorAt payload (buf + 1) rest :=
  @CursorAt.skip payload [b] rest buf 1 h rfl

theorem CursorAt.content {payload xs rest : List UInt8} {buf : Int}
    (h : CursorAt payload buf (xs ++ rest)) :
    Utf8Ref.content payload ⟨buf, xs.length⟩ = xs := by
  obtain ⟨pre, rfl, rfl⟩ := h
  unfold Utf8Ref.content
  rw [Int.toNat_natCast, List.drop_left]
  exact List.take_left

/-! ## A string -/

theorem mqpBufRdUtf8_eq_some {buf xs t : List UInt8} :
    mqpBufRdUtf8 buf = some (xs, t) ↔ xs.length < 2 ^ 16 ∧ buf = prefixed xs ++ t := by
  constructor
  · intro h
    match buf with
    | [] => cases h
    | [_] => cases h
    | hi :: lo :: rest =>
      simp only [mqpBufRdUtf8, toNat_bufRdNbo2B] at h
      split at h
      · cases h
      · next hge =>
        cases h
        rcases prefixed_or_short hi lo rest with hlt | ⟨ys, t, heq, hlen, rfl, rfl⟩
        · exact absurd hlt hge
        · exact ⟨lt_of_eq_of_lt hlen (be16Val_lt hi lo), heq⟩
  · rintro ⟨hlen, rfl⟩
    show mqpBufRdUtf8 (UInt8.ofNat (xs.length / 256) :: UInt8.ofNat xs.length :: (xs ++ t)) = _
    simp only [mqpBufRdUtf8, toNat_bufRdNbo2B, be16Val_be16 hlen]
    rw [if_neg (by rw [List.length_append]; omega), List.take_left, List.drop_left]

/-- `mqp_buf_rd_utf8` at a cursor. -/
theorem CursorAt.rdUtf8 {payload rest : List UInt8} {buf : Int} (h : CursorAt payload buf rest) :
    mqpBufRdUtf8At payload buf = match mqpBufRdUtf8 rest with
      | none => some (-1, none)
      | some (xs, _) => some (2 + xs.length, some ⟨buf + 2, xs.length⟩) := by
  have hleft := h.left
  unfold mqpBufRdUtf8At
  match rest with
  | [] =>
    rw [List.length_nil] at hleft
    rw [if_pos (by omega)]
    rfl
  | [_] =>
    rw [List.length_singleton] at hleft
    rw [if_pos (by omega)]
    rfl
  | hi :: lo :: rest =>
    rw [List.length_cons, List.length_cons] at hleft
    rw [if_neg (by omega), h.byte, h.next.byte]
    simp only [mqpBufRdUtf8]
    generalize (bufRdNbo2B hi lo).toNat = len
    by_cases hlt : rest.length < len
    · rw [if_pos (by omega), if_pos hlt]
    · rw [if_neg (by omega), if_neg hlt]
      simp only [List.length_take_of_le (Nat.not_lt.1 hlt)]

/-- The parser on the payload and the parser on the bytes at the cursor do the same. -/
def Agrees {α : Type} (payload : List UInt8) :
    Option (α × List UInt8) → Option (Option (α × Int)) → Prop
  | none, y => y = some none
  | some (a, rest), y => ∃ buf, y = some (some (a, buf)) ∧ CursorAt payload buf rest

theorem Agrees.bind {α β : Type} {payload : List UInt8} {x : Option (α × List UInt8)}
    {y : Option (Option (α × Int))} {f : α × List UInt8 → Option (β × List UInt8)}
    {g : α × Int → Option (Option (β × Int))} (h : Agrees payload x y)
    (hf : ∀ a rest buf, CursorAt payload buf rest → Agrees payload (f (a, rest)) (g (a, buf))) :
    Agrees payload (x.bind f) (rdThen y g) := by
  match x with
  | none =>
    obtain rfl : y = some none := h
    exact rfl
  | some (a, rest) =>
    obtain ⟨buf, rfl, hat⟩ := h
    exact hf a rest buf hat

theorem CursorAt.rdConnUtf8 {payload rest : List UInt8} {buf : Int}
    (h : CursorAt payload buf rest) :
    Agrees payload (mqpBufRdUtf8 rest) (rdConnUtf8 payload buf) := by
  unfold Server.rdConnUtf8
  rw [h.rdUtf8]
  match hr : mqpBufRdUtf8 rest with
  | none => exact rfl
  | some (xs, t) =>
    obtain ⟨-, rfl⟩ := mqpBufRdUtf8_eq_some.1 hr
    rw [prefixed, List.append_assoc] at h
    have hbody : CursorAt payload (buf + 2) (xs ++ t) := h.skip rfl
    refine ⟨buf + (2 + xs.length), ?_, ?_⟩
    · dsimp only
      rw [if_neg (by omega), Option.map_some, hbody.content]
    · rw [← Int.add_assoc]
      exact hbody.skip rfl

theorem CursorAt.rdConnUtf8If {payload rest : List UInt8} {buf : Int}
    (h : CursorAt payload buf rest) (b : Bool) :
    Agrees payload (rdUtf8If b rest) (rdConnUtf8If b payload buf) := by
  unfold Server.rdUtf8If Server.rdConnUtf8If
  cases b with
  | false => exact ⟨buf, rfl, h⟩
  | true =>
    rw [if_pos rfl, if_pos rfl, Option.map_eq_bind]
    exact h.rdConnUtf8.bind fun xs t buf' hat => ⟨buf', rfl, hat⟩

/-- `proc_connect_pl_rx` at a cursor. -/
theorem CursorAt.procConnectPlRx {payload rest : List UInt8} {buf : Int}
    (h : CursorAt payload buf rest) (connFlags : UInt8) :
    Agrees payload (procConnectPlRx connFlags rest) (procConnectPlRxAt payload connFlags buf) := by
  unfold Server.procConnectPlRx procConnectPlRxAt
  refine h.rdConnUtf8.bind fun clientId rest buf h => ?_
  refine (h.rdConnUtf8If _).bind fun willTop rest buf h => ?_
  refine (h.rdConnUtf8If _).bind fun willMsg rest buf h => ?_
  dsimp only
  split
  · exact rfl
  · refine (h.rdConnUtf8If _).bind fun userName rest buf h => ?_
    refine (h.rdConnUtf8If _).bind fun passWord rest buf h => ?_
    exact ⟨buf, rfl, h⟩

/-! ## The variable header -/

theorem CursorAt.bytesAre {payload xs rest name : List UInt8} {buf : Int}
    (h : CursorAt payload buf (xs ++ rest)) (hlen : name.length = xs.length) :
    bytesAre payload buf name = some (xs == name) := by
  induction name generalizing xs buf with
  | nil =>
    obtain rfl := List.eq_nil_of_length_eq_zero hlen.symm
    rfl
  | cons b name ih =>
    match xs with
    | [] => cases hlen
    | x :: xs =>
      have h : CursorAt payload buf (x :: (xs ++ rest)) := h
      unfold Server.bytesAre
      rw [h.byte]
      dsimp only
      by_cases hx : x = b
      · rw [if_pos hx, ih h.next (Nat.succ.inj hlen), hx]
        simp
      · rw [if_neg hx]
        simp [hx]

theorem CursorAt.protocolIs {payload xs rest : List UInt8} {buf : Int}
    (h : CursorAt payload buf (xs ++ rest)) (ver version : UInt8) (name : List UInt8) :
    protocolIs payload ⟨buf, xs.length⟩ ver name version =
      some (xs == name && ver == version) := by
  unfold Server.protocolIs
  by_cases hlen : name.length = xs.length
  · rw [if_pos hlen, h.bytesAre hlen, Option.map_some]
    congr 2
    exact Bool.eq_iff_iff.2 (by rw [beq_iff_eq, beq_iff_eq, eq_comm])
  · rw [if_neg hlen]
    have hne : (xs == name) = false := beq_eq_false_iff_ne.2 fun he => hlen (he ▸ rfl)
    rw [hne, Bool.false_and]

theorem CursorAt.procProtocolInfo {payload xs rest : List UInt8} {buf : Int}
    (h : CursorAt payload buf (xs ++ rest)) (ver : UInt8) :
    procProtocolInfoAt payload ⟨buf, xs.length⟩ ver = some (procProtocolInfo xs ver) := by
  unfold procProtocolInfoAt Server.procProtocolInfo
  rw [h.protocolIs, h.protocolIs]
  cases xs == [0x4D, 0x51, 0x54, 0x54] && ver == 0x04 <;> rfl

theorem connectRead_no_name {payload : List UInt8} (h : mqpBufRdUtf8 payload = none) :
    connectRead payload = none := by
  have hread : mqpBufRdUtf8At payload 0 = some (-1, none) := by
    rw [(CursorAt.start payload).rdUtf8, h]
  have hleft : ¬ (payload.length : Int) - -1 < 1 := by omega
  unfold connectRead procConnectVhRxAt
  rw [hread]
  dsimp only
  rw [if_neg hleft]
  rfl

def connectRest (name : List UInt8) : List UInt8 → Option (Except UInt16 (UInt8 × UInt16 × ConnUtf8s))
  | [] => some (.error connackRcBadProtov)
  | ver :: rest =>
    if !procProtocolInfo name ver then some (.error connackRcBadProtov)
    else
      match rest with
      | [] => none
      | connFlags :: hi :: lo :: rest =>
        some (match procConnectPlRx connFlags rest with
          | none => .error 0x00FF
          | some (utf8s, _) =>
            .ok (connFlags, bufRdNbo2B hi lo + bufRdNbo2B hi lo >>> 1, utf8s))
      | _ => some (.error 0xFF)

/-- What `proc_connect_vh_rx` makes of it. -/
def connectVhRest (name : List UInt8) : List UInt8 → Option (Except UInt16 (UInt8 × UInt16 × Int))
  | [] => some (.error connackRcBadProtov)
  | ver :: rest =>
    if !procProtocolInfo name ver then some (.error connackRcBadProtov)
    else
      match rest with
      | [] => none
      | connFlags :: hi :: lo :: _ =>
        some (.ok (connFlags, bufRdNbo2B hi lo + bufRdNbo2B hi lo >>> 1, 2 + name.length + 4))
      | _ => some (.error 0xFF)

theorem procConnectVhRxAt_name {name rest : List UInt8} (hlen : name.length < 2 ^ 16) :
    procConnectVhRxAt (prefixed name ++ rest) = connectVhRest name rest := by
  have hstart := CursorAt.start (prefixed name ++ rest)
  have hname : CursorAt (prefixed name ++ rest) 2 (name ++ rest) := by
    unfold prefixed at hstart ⊢
    rw [List.append_assoc] at hstart ⊢
    exact hstart.skip (n := 2) rfl
  have hrest : CursorAt (prefixed name ++ rest) (2 + name.length) rest := hname.skip rfl
  have hread : mqpBufRdUtf8At (prefixed name ++ rest) 0 =
      some ((2 : Int) + name.length, some ⟨2, name.length⟩) := by
    rw [hstart.rdUtf8, mqpBufRdUtf8_eq_some.2 ⟨hlen, rfl⟩]
    rfl
  have hleft := hrest.left
  unfold procConnectVhRxAt
  rw [hread]
  dsimp only
  generalize hbuf : (2 : Int) + name.length = buf at hrest hleft
  generalize prefixed name ++ rest = payload at hname hrest hleft
  rw [hleft]
  match rest with
  | [] => rw [if_pos (by simp)]; rfl
  | ver :: rest =>
    rw [if_neg (by rw [List.length_cons]; omega), hrest.byte]
    dsimp only
    rw [hname.procProtocolInfo]
    unfold connectVhRest
    dsimp only
    cases procProtocolInfo name ver with
    | false => rfl
    | true =>
      dsimp only
      rw [Bool.not_true, if_neg Bool.false_ne_true]
      match rest with
      | [] => rw [hrest.next.stop]
      | connFlags :: rest =>
        have hflags := hrest.next.next
        have hleft' := hflags.left
        rw [hrest.next.byte]
        rw [Int.add_assoc] at hflags hleft'
        change CursorAt payload (buf + 2) rest at hflags
        change (payload.length : Int) - (buf + 2) = rest.length at hleft'
        dsimp only
        rw [hleft']
        match rest with
        | [] => rw [if_pos (by simp)]
        | [_] => rw [if_pos (by simp)]
        | hi :: lo :: rest =>
          have hlo := hflags.next
          rw [Int.add_assoc] at hlo
          rw [if_neg (by rw [List.length_cons, List.length_cons]; omega), hflags.byte]
          change CursorAt payload (buf + 3) (lo :: rest) at hlo
          rw [hlo.byte, hbuf]

theorem cursorAt_connectPl (name rest : List UInt8) (ver connFlags hi lo : UInt8) :
    CursorAt (prefixed name ++ ver :: connFlags :: hi :: lo :: rest) (2 + name.length + 4) rest := by
  have hpl : CursorAt (prefixed name ++ ver :: connFlags :: hi :: lo :: rest) (0 + (name.length + 2))
      (ver :: connFlags :: hi :: lo :: rest) :=
    (CursorAt.start _).skip (by rw [length_prefixed]; rfl)
  have hnext := hpl.next.next.next.next
  rw [show (2 : Int) + name.length + 4 = 0 + (name.length + 2) + 1 + 1 + 1 + 1 by omega]
  exact hnext

theorem connectRead_name {name rest : List UInt8} (hlen : name.length < 2 ^ 16) :
    connectRead (prefixed name ++ rest) = connectRest name rest := by
  unfold connectRead
  rw [procConnectVhRxAt_name hlen]
  unfold connectVhRest connectRest
  match rest with
  | [] => rfl
  | ver :: rest =>
    dsimp only
    cases procProtocolInfo name ver with
    | false => rfl
    | true =>
      rw [Bool.not_true, if_neg Bool.false_ne_true, if_neg Bool.false_ne_true]
      match rest with
      | [] => rfl
      | [_] => rfl
      | [_, _] => rfl
      | connFlags :: hi :: lo :: rest =>
        have hagree := (cursorAt_connectPl name rest ver connFlags hi lo).procConnectPlRx connFlags
        dsimp only
        match hr : Server.procConnectPlRx connFlags rest with
        | none =>
          rw [hr] at hagree
          rw [show procConnectPlRxAt _ connFlags (2 + name.length + 4) = some none from hagree]
          rfl
        | some (utf8s, left) =>
          rw [hr] at hagree
          obtain ⟨buf', heq, -⟩ := hagree
          rw [heq]
          rfl

/-! ## The strings -/

theorem rdUtf8If_eq_some {b : Bool} {buf t : List UInt8} {o : Option (List UInt8)} :
    rdUtf8If b buf = some (o, t) ↔ (OptFits o ∧ o.isSome = b) ∧ buf = optBytes o ++ t := by
  unfold rdUtf8If
  cases b with
  | false =>
    rw [if_neg Bool.false_ne_true, Option.some.injEq, Prod.mk.injEq]
    constructor
    · rintro ⟨rfl, rfl⟩
      exact ⟨⟨nofun, rfl⟩, rfl⟩
    · rintro ⟨⟨-, hnone⟩, rfl⟩
      obtain rfl := Option.isNone_iff_eq_none.1 (by rw [← Option.not_isSome, hnone]; rfl)
      exact ⟨rfl, rfl⟩
  | true =>
    rw [if_pos rfl, Option.map_eq_some_iff]
    constructor
    · rintro ⟨⟨xs, t'⟩, hr, heq⟩
      obtain ⟨rfl, rfl⟩ := Prod.mk.inj heq
      obtain ⟨hlen, hbuf⟩ := mqpBufRdUtf8_eq_some.1 hr
      exact ⟨⟨fun ys hy => Option.some.inj hy ▸ hlen, rfl⟩, hbuf⟩
    · rintro ⟨⟨hfits, hsome⟩, rfl⟩
      obtain ⟨xs, rfl⟩ := Option.isSome_iff_exists.1 hsome
      exact ⟨(xs, t), mqpBufRdUtf8_eq_some.2 ⟨hfits xs rfl, rfl⟩, rfl⟩

/-- The payload of the message is accepted if and only if it begins with the strings that the flags
announce. -/
theorem procConnectPlRx_eq_some {connFlags : UInt8} {buf t : List UInt8} {u : ConnUtf8s} :
    procConnectPlRx connFlags buf = some (u, t) ↔
      u.Announced connFlags ∧ buf = u.bytes ++ t := by
  unfold procConnectPlRx
  simp only [bind, Option.bind_eq_some_iff, Prod.exists]
  constructor
  · rintro ⟨clientId, b1, h1, willTop, b2, h2, willMsg, b3, h3, h⟩
    split at h
    · cases h
    · next hboth =>
      simp only [Option.bind_eq_some_iff, Prod.exists] at h
      obtain ⟨userName, b4, h4, passWord, b5, h5, heq⟩ := h
      cases heq
      obtain ⟨hid, rfl⟩ := mqpBufRdUtf8_eq_some.1 h1
      obtain ⟨htop, rfl⟩ := rdUtf8If_eq_some.1 h2
      obtain ⟨hmsg, rfl⟩ := rdUtf8If_eq_some.1 h3
      obtain ⟨huser, rfl⟩ := rdUtf8If_eq_some.1 h4
      obtain ⟨hpass, rfl⟩ := rdUtf8If_eq_some.1 h5
      refine ⟨⟨hid, htop, hmsg, huser, hpass, fun hp => ?_⟩, ?_⟩
      · rw [hpass.2] at hp
        rw [huser.2]
        simpa [hp] using hboth
      · simp only [ConnUtf8s.bytes, List.append_assoc]
  · rintro ⟨ha, rfl⟩
    simp only [ConnUtf8s.bytes, List.append_assoc]
    have hboth : (!(connFlags &&& userNameOpval != 0) && (connFlags &&& passWordOpval != 0)) ≠ true := by
      rw [← ha.userName.2, ← ha.passWord.2]
      cases hp : u.passWord.isSome with
      | false => simp
      | true => simp [ha.both hp]
    refine ⟨u.clientId, _, mqpBufRdUtf8_eq_some.2 ⟨ha.clientId, rfl⟩,
      u.willTop, _, rdUtf8If_eq_some.2 ⟨ha.willTop, rfl⟩,
      u.willMsg, _, rdUtf8If_eq_some.2 ⟨ha.willMsg, rfl⟩, ?_⟩
    rw [if_neg hboth]
    simp only [Option.bind_eq_some_iff, Prod.exists]
    exact ⟨u.userName, _, rdUtf8If_eq_some.2 ⟨ha.userName, rfl⟩,
      u.passWord, _, rdUtf8If_eq_some.2 ⟨ha.passWord, rfl⟩, rfl⟩

/-! ## Both parsers -/

theorem connectRead_accepts {payload : List UInt8} {p : UInt8 × UInt16 × ConnUtf8s}
    (h : connectRead payload = some (.ok p)) :
    ∃ (f : ConnectFields) (t : List UInt8), f.Valid ∧ payload = f.bytes ++ t := by
  match hname : mqpBufRdUtf8 payload with
  | none =>
    rw [connectRead_no_name hname] at h
    cases h
  | some (name, rest) =>
    obtain ⟨hlen, rfl⟩ := mqpBufRdUtf8_eq_some.1 hname
    rw [connectRead_name hlen] at h
    match rest with
    | [] => cases h
    | ver :: rest =>
      unfold connectRest at h
      dsimp only at h
      split at h
      · cases h
      · next hproto =>
        match rest with
        | [] => cases h
        | [_] => cases h
        | [_, _] => cases h
        | connFlags :: hi :: lo :: rest =>
          match hpl : procConnectPlRx connFlags rest with
          | none =>
            dsimp only at h
            rw [hpl] at h
            cases h
          | some (u, t) =>
            obtain ⟨ha, rfl⟩ := procConnectPlRx_eq_some.1 hpl
            refine ⟨⟨name, ver, connFlags, bufRdNbo2B hi lo, u⟩, t, ⟨?_, ha⟩, ?_⟩
            · simpa using hproto
            · simp only [ConnectFields.bytes, toNat_bufRdNbo2B, be16_val, List.append_assoc,
                List.cons_append, List.nil_append]

theorem procProtocolInfo_length {name : List UInt8} {ver : UInt8}
    (h : procProtocolInfo name ver = true) : name.length < 2 ^ 16 := by
  unfold procProtocolInfo at h
  simp only [Bool.or_eq_true, Bool.and_eq_true, beq_iff_eq] at h
  rcases h with ⟨rfl, -⟩ | ⟨rfl, -⟩ <;> decide

theorem ConnectFields.Valid.connectRead {f : ConnectFields} (h : f.Valid) (t : List UInt8) :
    ∃ p, connectRead (f.bytes ++ t) = some (.ok p) := by
  have hlen := procProtocolInfo_length h.protocol
  have hpl : procConnectPlRx f.connFlags (f.utf8s.bytes ++ t) = some (f.utf8s, t) :=
    procConnectPlRx_eq_some.2 ⟨h.announced, rfl⟩
  have hbytes : f.bytes ++ t = prefixed f.name ++ f.ver :: f.connFlags ::
      UInt8.ofNat (f.kaSecs.toNat / 256) :: UInt8.ofNat f.kaSecs.toNat :: (f.utf8s.bytes ++ t) := by
    simp only [ConnectFields.bytes, be16, List.append_assoc, List.cons_append, List.nil_append]
  rw [hbytes, connectRead_name hlen]
  unfold connectRest
  dsimp only
  rw [h.protocol, Bool.not_true, if_neg Bool.false_ne_true, hpl]
  exact ⟨_, rfl⟩

theorem connectRead_isSome {payload : List UInt8} :
    (connectRead payload).isSome ↔
      (∃ name rest, name.length < 2 ^ 16 ∧ payload = prefixed name ++ rest) ∧
        ∀ name ver, procProtocolInfo name ver = true → payload ≠ prefixed name ++ [ver] := by
  match hname : mqpBufRdUtf8 payload with
  | none =>
    rw [connectRead_no_name hname]
    refine iff_of_false Bool.false_ne_true fun ⟨⟨name, rest, hlen, heq⟩, _⟩ => ?_
    rw [mqpBufRdUtf8_eq_some.2 ⟨hlen, heq⟩] at hname
    cases hname
  | some (name, rest) =>
    obtain ⟨hlen, rfl⟩ := mqpBufRdUtf8_eq_some.1 hname
    rw [connectRead_name hlen]
    have hno : (∀ name' ver, procProtocolInfo name' ver = true →
        prefixed name ++ rest ≠ prefixed name' ++ [ver]) ↔
        ∀ ver, procProtocolInfo name ver = true → rest ≠ [ver] := by
      constructor
      · rintro h ver hp rfl
        exact h name ver hp rfl
      · intro h name' ver hp heq
        obtain ⟨rfl, rfl⟩ := prefixed_inj hlen (procProtocolInfo_length hp) heq
        exact h ver hp rfl
    rw [hno, and_iff_right ⟨name, rest, hlen, rfl⟩]
    match rest with
    | [] => exact iff_of_true rfl nofun
    | ver :: rest =>
      unfold connectRest
      dsimp only
      split
      · next hproto =>
        refine iff_of_true rfl fun ver' hp heq => ?_
        obtain rfl := (List.cons.inj heq).1
        rw [hp] at hproto
        cases hproto
      · next hproto =>
        have hp : procProtocolInfo name ver = true := by simpa using hproto
        match rest with
        | [] => exact iff_of_false Bool.false_ne_true fun h => h ver hp rfl
        | [_] => exact iff_of_true rfl fun _ _ heq => by cases heq
        | [_, _] => exact iff_of_true rfl fun _ _ heq => by cases heq
        | _ :: _ :: _ :: _ => exact iff_of_true rfl fun _ _ heq => by cases heq

/-! ## The library -/

theorem connectParse_refused {kaSecs : UInt16} {rx : Pkts.Rx} {rc : UInt16}
    (h : connectRead rx.pkt.payload = some (.error rc)) :
    (Pkts.connectParse kaSecs rx).2 = .error rc := by
  match hname : mqpBufRdUtf8 rx.pkt.payload with
  | none =>
    rw [connectRead_no_name hname] at h
    cases h
  | some (name, rest) =>
    obtain ⟨hlen, heq⟩ := mqpBufRdUtf8_eq_some.1 hname
    rw [heq, connectRead_name hlen] at h
    unfold Pkts.connectParse procConnectVhRx
    rw [hname]
    dsimp only
    match rest with
    | [] =>
      obtain rfl := Except.error.inj (Option.some.inj h)
      rfl
    | ver :: rest =>
      unfold connectRest at h
      dsimp only at h ⊢
      split at h
      · next hproto =>
        obtain rfl := Except.error.inj (Option.some.inj h)
        rw [if_pos hproto]
      · next hproto =>
        rw [if_neg hproto]
        match rest with
        | [] => cases h
        | [_] =>
          obtain rfl := Except.error.inj (Option.some.inj h)
          rfl
        | [_, _] =>
          obtain rfl := Except.error.inj (Option.some.inj h)
          rfl
        | connFlags :: hi :: lo :: rest =>
          dsimp only at h ⊢
          match hpl : procConnectPlRx connFlags rest with
          | none =>
            rw [hpl] at h
            obtain rfl := Except.error.inj (Option.some.inj h)
            rfl
          | some (u, t) =>
            rw [hpl] at h
            cases h

section Library

open Pkts

variable {σ U A : Type}

/-- No client has come of the packet: the core has not been asked, no context has got a handle, and the
connection is to be closed. -/
structure Refused (s : State σ U) (r : State σ U × Bool) : Prop where
  ret : r.2 = false
  core : r.1.core = s.core
  usr : ∀ c, (r.1.ctxs c).usr = (s.ctxs c).usr

/-- The parsers keep to the payload and accept it if and only if it is a CONNECT; the connection is
refused if it is none. -/
def ConnectExact (cbs : MsgCbs σ U A) (s : State σ U) (c : CtxIdx) (rx : Rx) : Prop :=
  ∃ r, connectRead rx.pkt.payload = some r ∧
    ((∃ p, r = .ok p) ↔ IsConnect rx.pkt.payload) ∧
    (¬ IsConnect rx.pkt.payload → Refused s (procConnectRx cbs s c rx))

theorem vhMsgSend_keeps (s : State σ U) (c : CtxIdx) (sent : Bool) :
    (vhMsgSend s c sent).core = s.core ∧
      ∀ d, ((vhMsgSend s c sent).ctxs d).usr = (s.ctxs d).usr := by
  unfold vhMsgSend clCtxSend doNetCloseTx
  split
  · exact ⟨rfl, fun _ => rfl⟩
  · split
    · exact ⟨rfl, fun _ => rfl⟩
    · refine ⟨rfl, fun d => ?_⟩
      rcases eq_or_ne d c with rfl | hne
      · simp [State.setCtx]
      · simp [State.setCtx, hne]

theorem procConnectRx_refused {s : State σ U} {c : CtxIdx} {rx : Rx} {rc : UInt16}
    (cbs : MsgCbs σ U A) (h : (connectParse (s.ctxs c).kaSecs rx).2 = .error rc) :
    Refused s (procConnectRx cbs s c rx) := by
  unfold procConnectRx
  dsimp only
  rw [h]
  dsimp only
  generalize hs' : (s.setCtx c { s.ctxs c with
    rcvdConnMsg := true, kaSecs := (connectParse (s.ctxs c).kaSecs rx).1 }).report
      (.connect c none) = s'
  have hcore : s'.core = s.core := by
    rw [← hs']
    rfl
  have husr : ∀ d, (s'.ctxs d).usr = (s.ctxs d).usr := by
    intro d
    rw [← hs']
    rcases eq_or_ne d c with rfl | hne
    · simp [State.setCtx, State.report]
    · simp [State.setCtx, State.report, hne]
  refine ⟨rfl, ?_, fun d => ?_⟩
  · dsimp only
    split
    · rw [(vhMsgSend_keeps s' c rx.sent).1, hcore]
    · exact hcore
  · dsimp only
    split
    · rw [(vhMsgSend_keeps s' c rx.sent).2 d, husr d]
    · exact husr d

/-- CONNECT parsing is bounded and exact for the payloads whose name ends in them, that have their
flags, and that end with their last string; and for no others. -/
theorem connectExact_iff (cbs : MsgCbs σ U A) (s : State σ U) (c : CtxIdx) (rx : Rx) :
    ConnectExact cbs s c rx ↔ ConnectRegular rx.pkt.payload := by
  constructor
  · rintro ⟨r, hr, hacc, -⟩
    obtain ⟨hname, hflags⟩ := connectRead_isSome.1 (by rw [hr]; rfl : (connectRead _).isSome)
    refine ⟨hname, hflags, fun f t hf heq => ?_⟩
    obtain ⟨p, hp⟩ := hf.connectRead t
    rw [← heq, hr] at hp
    obtain ⟨g, hg, hpay⟩ := hacc.1 ⟨p, Option.some.inj hp⟩
    -- the two messages are read from the same bytes
    have hfbytes := heq.symm.trans hpay
    simp only [ConnectFields.bytes, List.append_assoc] at hfbytes
    obtain ⟨hfg, hrest⟩ := prefixed_inj (procProtocolInfo_length hf.protocol)
      (procProtocolInfo_length hg.protocol) hfbytes
    simp only [be16, List.cons_append, List.nil_append, List.cons.injEq] at hrest
    obtain ⟨-, hcf, -, -, hbytes⟩ := hrest
    have h1 : procConnectPlRx f.connFlags (f.utf8s.bytes ++ t) = some (f.utf8s, t) :=
      procConnectPlRx_eq_some.2 ⟨hf.announced, rfl⟩
    have h2 := procConnectPlRx_eq_some.2 ⟨hg.announced, (List.append_nil _).symm⟩
    rw [hbytes, hcf, h2] at h1
    exact (Prod.mk.inj (Option.some.inj h1)).2.symm
  · rintro ⟨hname, hflags, hlast⟩
    obtain ⟨r, hr⟩ := Option.isSome_iff_exists.1 (connectRead_isSome.2 ⟨hname, hflags⟩)
    have hacc : (∃ p, r = .ok p) ↔ IsConnect rx.pkt.payload := by
      constructor
      · rintro ⟨p, rfl⟩
        obtain ⟨f, t, hf, heq⟩ := connectRead_accepts hr
        obtain rfl := hlast f t hf heq
        exact ⟨f, hf, heq.trans (List.append_nil _)⟩
      · rintro ⟨f, hf, heq⟩
        obtain ⟨p, hp⟩ := hf.connectRead []
        rw [List.append_nil, ← heq, hr] at hp
        exact ⟨p, Option.some.inj hp⟩
    refine ⟨r, hr, hacc, fun hno => ?_⟩
    cases r with
    | ok p => exact absurd (hacc.1 ⟨p, rfl⟩) hno
    | error rc => exact procConnectRx_refused cbs (connectParse_refused hr)

end Library

def nameBehindEnd : List UInt8 := [0x00, 0x05, 0x4D, 0x51]

theorem nameBehindEnd_read : connectRead nameBehindEnd = none := by decide

theorem connect_not_exact :
    ¬ ∀ (cbs : Pkts.MsgCbs Unit Unit Unit) (s : Pkts.State Unit Unit) (c : Pkts.CtxIdx)
      (rx : Pkts.Rx), ConnectExact cbs s c rx := by
  intro hall
  let cbs : Pkts.MsgCbs Unit Unit Unit :=
    { pluginConnect := fun _ _ => ⟨(), 0, []⟩
      clConnectRx := fun _ _ _ _ => ⟨(), .ok ((), false), []⟩
      onConnackSend := fun _ _ _ => ⟨(), (), []⟩
      subMsgRx := fun _ _ _ => ⟨(), false, []⟩
      unSubMsg := fun _ _ _ => ⟨(), false, []⟩
      pubMsgRx := fun _ _ _ => ⟨(), false, []⟩
      ackNotify := fun _ _ _ => ⟨(), false, []⟩
      onClNetClose := fun _ _ _ => ⟨(), (), []⟩
      app := fun _ _ => ⟨(), (), []⟩
      plugin_msb := fun _ _ => rfl }
  obtain ⟨r, hr, -⟩ := hall cbs (Pkts.clCtxInit ()) 0
    ⟨⟨0x10, [0x04], nameBehindEnd⟩, 0, true, []⟩
  rw [nameBehindEnd_read] at hr
  cases hr

end SimpleLink.Server
