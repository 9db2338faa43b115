import SimpleLink.Http.Frames
import SimpleLink.Http.Isolation

/-!
# Receiving frames (`WSCore_DataRecv`)

Several connections receive the frames of their clients, in packets that come in any order.
`received` is what each connection has received.
-/

namespace SimpleLink.Http.Reception

open Lib Strings Conn Requests WebSocket Loop Progress Isolation Frames

structure Sockets extends Server where
  received : ConnId → Bytes

/-- A packet of a connection is handled, or nothing is said when that does not return or memory
outside of a buffer is used. -/
def recvStep (env : Env) (s : Sockets) (act : ConnId × Bytes) : Option (Sockets × Unit) :=
  match Loop.pass env (receivedPacket act.2) (receivedPacket act.2) (s.load act.1) with
  | .ok (t, .returns true) =>
    some ({
      toServer := s.store act.1 t
      received := fun d => if d = act.1 then s.received d ++ act.2 else s.received d }, ())
  | _ => none

/-! ## The property and the condition -/

/-- The application has received the payloads of the data frames of each connection, and no pong has
been sent where there was no ping. -/
def Delivered (s₀ s : Sockets) : Prop :=
  ∀ c fs part, s.received c = encodeAll fs ++ part → NoFrame part →
    (s.connections c).handled = (s₀.connections c).handled ++
      ((fs.filter fun f => f.opcode = .text ∨ f.opcode = .binary).map Frame.payload) ∧
    ((∀ f ∈ fs, f.opcode ≠ .ping) → (s.connections c).sent = (s₀.connections c).sent)

/-- A frame that is received as it should be: a data frame, of a length that is not taken for a
longer form and that the heap can hold, and with something to be unmasked. -/
structure Receivable (env : Env) (f : Frame) : Prop where
  data : f.opcode = .text ∨ f.opcode = .binary
  form : f.form = .bits16 → f.payload.length ≠ 127
  masked : f.maskKey.isSome → f.payload ≠ []
  size : f.payload.length < 2 ^ 32
  room : env.malloc f.payload.length

/-- A packet is of one frame, with its whole header when it is the first one of it, and no other
connection waits for the rest of a frame. -/
structure InTurn (env : Env) (s : Sockets) (act : ConnId × Bytes) : Prop where
  upgraded : (s.connections act.1).connectionState = .webSocketDataRecv
  packet : act.2 ≠ [] ∧ act.2.length ≤ httpCoreMaxPacketSizeReceived
  frame : ∃ fs part f, s.received act.1 = encodeAll fs ++ part ∧ part ++ act.2 <+: f.encode ∧
    Receivable env f ∧ (part = [] → f.header.length ≤ act.2.length)
  others : ∀ d, d ≠ act.1 → ∃ fs, s.received d = encodeAll fs

/-- No frame has been begun, and no ping has come. -/
structure Fresh (s : Sockets) : Prop where
  recvMore : s.globals.webSock.recvMore = false
  ping : s.globals.webSock.ping = false
  overruns : s.globals.webSock.overruns = 0
  received : ∀ c, s.received c = []

/-! ## A packet -/

theorem skip_append {a b : Bytes} {n : Nat} (h : a.length + n < 2 ^ 16) :
    HttpBlob.skip ⟨a ++ b, a.length + n⟩ a.length = ⟨b, n⟩ := by
  have hlength : (a.length + n + 2 ^ 16 - a.length) % 2 ^ 16 = n := by omega
  unfold HttpBlob.skip
  dsimp only
  rw [List.drop_left, hlength]

theorem readLength_eq {f : Frame} (hform : f.form = .bits16 → f.payload.length ≠ 127) {rest : Bytes}
    {n : Nat} (hn : 8 + n < 2 ^ 16) :
    readLength (lengthByte f.form f.payload.length)
      (HttpBlob.mk (lengthBytes f.form f.payload.length ++ rest)
        ((lengthBytes f.form f.payload.length).length + n)) =
      ((f.payload.length : Int), HttpBlob.mk rest n) := by
  have hfits := f.fits
  unfold readLength
  cases hf : f.form with
  | bits7 =>
    rw [hf] at hfits
    have hshort : f.payload.length < 126 := hfits
    have hother : lengthByte .bits7 f.payload.length ≠ 0x7E := Nat.ne_of_lt hshort
    rw [if_neg hother]
    dsimp only
    rw [if_neg (by rw [lengthByte]; omega)]
    unfold lengthByte lengthBytes
    rw [List.nil_append, List.length_nil, Nat.zero_add]
  | bits16 =>
    rw [hf] at hfits
    have hlength := length_bigEndian 2 f.payload.length
    have htake : (bigEndian 2 f.payload.length ++ rest).take 2 = bigEndian 2 f.payload.length := by
      rw [← hlength]
      exact List.take_left
    have hskip := skip_append (a := bigEndian 2 f.payload.length) (b := rest) (n := n) (by
      rw [hlength]
      omega)
    rw [hlength] at hskip
    unfold lengthByte lengthBytes
    dsimp only
    rw [if_pos rfl, htake, hlength, hskip,
      payloadlength_bigEndian hfits (Nat.lt_trans hfits (by decide))]
    dsimp only
    rw [if_neg (by have := hform hf; omega)]
  | bits64 =>
    rw [hf] at hfits
    have hlength := length_bigEndian 8 f.payload.length
    have htake : (bigEndian 8 f.payload.length ++ rest).take 8 = bigEndian 8 f.payload.length := by
      rw [← hlength]
      exact List.take_left
    have hskip := skip_append (a := bigEndian 8 f.payload.length) (b := rest) (n := n) (by
      rw [hlength]
      omega)
    rw [hlength] at hskip
    unfold lengthByte lengthBytes
    have hother : ¬ (127 : Nat) = 0x7E := by decide
    rw [if_neg hother]
    dsimp only
    rw [if_pos (by decide), htake, hlength, hskip,
      payloadlength_bigEndian (Nat.lt_trans hfits (by decide)) hfits]

/-- The buffer has so much of the payload of a frame. -/
structure Holds (ws : WebSock) (f : Frame) (got : Bytes) : Prop where
  globPayloadLen : ws.globPayloadLen = f.payload.length
  length : ws.globRecvBuf.length = f.payload.length
  globRecvBuf : ws.globRecvBuf.take got.length = got
  mask : ws.mask = f.maskKey.isSome
  maskKey : ∀ key, f.maskKey = some key → ws.maskKey = key.toList

/-- The globals when so much of the payload of a frame has been received. -/
structure UnderWay (ws : WebSock) (f : Frame) (got : Bytes) : Prop extends Holds ws f got where
  globRecvLen : ws.globRecvLen = got.length

theorem copyPayload_eq {f : Frame} {s : Session} {got xs rest : Bytes}
    (h : Holds s.webSock f got) (hfits : got.length + xs.length ≤ f.payload.length) :
    ∃ ws, copyPayload s got.length ⟨xs ++ rest, xs.length⟩ = .ok { s with webSock := ws } ∧
      UnderWay ws f (got ++ xs) ∧ ws.recvMore = s.webSock.recvMore ∧ ws.ping = s.webSock.ping ∧
      ws.overruns = s.webSock.overruns := by
  have hbytes : HttpBlob.bytes ⟨xs ++ rest, xs.length⟩ = xs := List.take_left
  unfold copyPayload
  rw [if_pos ⟨by simp, Int.natCast_nonneg _, by rw [h.length]; exact_mod_cast hfits⟩, hbytes]
  refine ⟨_, rfl, ⟨⟨h.globPayloadLen, ?_, ?_, h.mask, h.maskKey⟩, ?_⟩, rfl, rfl, rfl⟩
  · dsimp only
    rw [Int.toNat_natCast, length_overwrite (by rw [h.length]; exact hfits), h.length]
  · dsimp only
    rw [Int.toNat_natCast, List.length_append,
      take_overwrite (by rw [h.length]; omega), h.globRecvBuf]
  · dsimp only
    rw [List.length_append]
    push_cast
    rfl

theorem wsCoreDataDone_eq {env : Env} {f : Frame} {s : Session} (h : Holds s.webSock f f.content)
    (hmasked : f.maskKey.isSome → f.payload ≠ []) (hping : s.webSock.ping = false) :
    ∃ ws, wsCoreDataDone env s = .ok ({ s with
        webSock := ws
        handled := s.handled ++ [f.payload] }, true) ∧
      ws.recvMore = false ∧ ws.ping = false ∧ ws.overruns = s.webSock.overruns + 1 := by
  have hbuf : s.webSock.globRecvBuf = f.content := by
    have htake := h.globRecvBuf
    rwa [f.length_content, ← h.length, List.take_length] at htake
  have hpayload : (if s.webSock.mask then unmask s.webSock.maskKey s.webSock.globRecvBuf
      else s.webSock.globRecvBuf) = f.payload := by
    rw [hbuf, h.mask]
    unfold Frame.content
    cases hkey : f.maskKey with
    | none => rfl
    | some key =>
      rw [h.maskKey key hkey]
      exact unmask_unmask _ _
  unfold wsCoreDataDone
  dsimp only
  rw [if_neg, hpayload, hping, if_neg Bool.false_ne_true]
  · exact ⟨_, rfl, rfl, rfl, rfl⟩
  · rw [h.globPayloadLen, h.length]
    rintro (hne | ⟨hmask, hzero⟩)
    · exact hne rfl
    · rw [h.mask] at hmask
      exact hmasked hmask (List.length_eq_zero_iff.1 (by omega))

/-- What a packet comes to, when so much of the payload of a frame has been received with it. -/
def Receives (s : Session) (f : Frame) (got : Bytes) (r : Except Halt (Session × Bool)) : Prop :=
  ∃ ws : WebSock, ws.ping = false ∧
    if got.length = f.payload.length then
      r = .ok ({ s with webSock := ws, handled := s.handled ++ [f.payload] }, true) ∧
        ws.recvMore = false ∧ ws.overruns = s.webSock.overruns + 1
    else
      r = .ok ({ s with webSock := ws }, true) ∧ ws.recvMore = true ∧ UnderWay ws f got ∧
        ws.overruns = s.webSock.overruns

theorem content_of_length {f : Frame} {got : Bytes} (hgot : got <+: f.content)
    (h : got.length = f.payload.length) : got = f.content :=
  hgot.eq_of_length (h.trans f.length_content.symm)

theorem wsCoreDataRecv_more {env : Env} {f : Frame} (hf : Receivable env f) {s : Session}
    {got xs : Bytes} (hmore : s.webSock.recvMore = true) (hping : s.webSock.ping = false)
    (h : UnderWay s.webSock f got) (hxs : got ++ xs <+: f.content) :
    Receives s f (got ++ xs) (wsCoreDataRecv env (receivedPacket xs) s) := by
  have hfits : got.length + xs.length ≤ f.payload.length := by
    have hle := hxs.length_le
    rwa [List.length_append, f.length_content] at hle
  obtain ⟨ws, hcopy, hunder, hmore', hping', hoverruns⟩ := @copyPayload_eq f s
    got xs (List.replicate (httpCoreMaxPacketSizeReceived - xs.length) 0) h.toHolds hfits
  unfold wsCoreDataRecv receivedPacket
  rw [if_pos hmore, h.globRecvLen, hcopy]
  dsimp only
  rw [hunder.globRecvLen, hunder.globPayloadLen]
  unfold Receives
  by_cases hlen : (got ++ xs).length = f.payload.length
  · have hall := content_of_length hxs hlen
    rw [hall] at hunder
    obtain ⟨ws', hdone, hmore'', hping'', hoverruns'⟩ := @wsCoreDataDone_eq env f
      { s with webSock := ws } hunder.toHolds hf.masked (hping'.trans hping)
    refine ⟨ws', hping'', ?_⟩
    rw [if_pos hlen, if_neg (by omega), hdone]
    exact ⟨rfl, hmore'', by rw [hoverruns', hoverruns]⟩
  · have hlt : (got ++ xs).length < f.payload.length := by
      rw [List.length_append] at hlen ⊢
      omega
    refine ⟨ws, hping'.trans hping, ?_⟩
    rw [if_neg hlen, if_pos (by exact_mod_cast hlt)]
    exact ⟨rfl, hmore'.trans hmore, hunder, hoverruns⟩

theorem firstByte_code (opcode : Opcode) : (firstByte opcode).toNat % 16 = opcode.code := by
  cases opcode <;> rfl

theorem secondByte_toNat {f : Frame} :
    (secondByte f.maskKey.isSome f.form f.payload.length).toNat =
      (if f.maskKey.isSome then 0x80 else 0) + lengthByte f.form f.payload.length := by
  have hlt := lengthByte_lt f.fits
  unfold secondByte
  rw [UInt8.toNat_ofNat']
  split <;> omega

theorem receivedPacket_header (f : Frame) (xs : Bytes) :
    ∃ pad, receivedPacket (f.header ++ xs) =
      ⟨[firstByte f.opcode] ++ ([secondByte f.maskKey.isSome f.form f.payload.length] ++
        (lengthBytes f.form f.payload.length ++ (keyBytes f.maskKey ++ (xs ++ pad)))),
        1 + (1 + ((lengthBytes f.form f.payload.length).length +
          ((keyBytes f.maskKey).length + xs.length)))⟩ := by
  refine ⟨List.replicate (httpCoreMaxPacketSizeReceived - (f.header ++ xs).length) 0, ?_⟩
  have hheader : (f.header ++ xs).length = 1 + (1 + ((lengthBytes f.form f.payload.length).length +
      ((keyBytes f.maskKey).length + xs.length))) := by
    unfold Frame.header
    simp only [List.length_append, List.length_cons]
    omega
  unfold receivedPacket
  rw [hheader]
  unfold Frame.header
  simp only [List.cons_append, List.nil_append, List.append_assoc]

theorem length_header_le (f : Frame) :
    (lengthBytes f.form f.payload.length).length ≤ 8 ∧ (keyBytes f.maskKey).length ≤ 4 := by
  constructor
  · unfold lengthBytes
    split
    · exact Nat.zero_le _
    · rw [length_bigEndian]
      decide
    · exact Nat.le_of_eq (length_bigEndian _ _)
  · unfold keyBytes
    split
    · exact Nat.zero_le _
    · exact Nat.le_of_eq Vector.length_toList

theorem wsCoreDataFrame_eq {env : Env} {f : Frame} (hf : Receivable env f) {s : Session}
    {xs pad : Bytes} (hping : s.webSock.ping = false) (hxs : xs <+: f.content)
    (hlen : xs.length ≤ httpCoreMaxPacketSizeReceived) :
    Receives s f xs (wsCoreDataFrame env
      ⟨[secondByte f.maskKey.isSome f.form f.payload.length] ++
        (lengthBytes f.form f.payload.length ++ (keyBytes f.maskKey ++ (xs ++ pad))),
        1 + ((lengthBytes f.form f.payload.length).length +
          ((keyBytes f.maskKey).length + xs.length))⟩ s) := by
  obtain ⟨hlength, hkey⟩ := length_header_le f
  have hlen : xs.length ≤ 1000 := hlen
  have hbyte : (secondByte f.maskKey.isSome f.form f.payload.length).toNat % 0x80 =
      lengthByte f.form f.payload.length := by
    have hlt := lengthByte_lt f.fits
    rw [secondByte_toNat]
    split <;> omega
  have hmask : (0x80 ≤ secondByte f.maskKey.isSome f.form f.payload.length) ↔ f.maskKey.isSome := by
    have hlt := lengthByte_lt f.fits
    rw [UInt8.le_iff_toNat_le, secondByte_toNat]
    split
    · simp [*]
    · simp [*]
  generalize secondByte f.maskKey.isSome f.form f.payload.length = b at hbyte hmask ⊢
  have hle : xs.length ≤ f.payload.length := f.length_content ▸ hxs.length_le
  have hsize : ((f.payload.length : Int) % 2 ^ 32).toNat = f.payload.length := by
    have := hf.size
    omega
  have hdata : (if 0x80 ≤ b then
      HttpBlob.skip ⟨keyBytes f.maskKey ++ (xs ++ pad), (keyBytes f.maskKey).length + xs.length⟩ 4
      else ⟨keyBytes f.maskKey ++ (xs ++ pad), (keyBytes f.maskKey).length + xs.length⟩) =
      HttpBlob.mk (xs ++ pad) xs.length := by
    cases hkey' : f.maskKey with
    | none =>
      rw [if_neg (by rw [hmask, hkey']; decide)]
      unfold keyBytes
      rw [List.nil_append, List.length_nil, Nat.zero_add]
    | some key =>
      have hskip := skip_append (a := key.toList) (b := xs ++ pad) (n := xs.length)
        (by rw [Vector.length_toList]; omega)
      rw [Vector.length_toList] at hskip
      rw [if_pos (by rw [hmask, hkey']; rfl)]
      unfold keyBytes
      dsimp only
      rw [Vector.length_toList]
      exact hskip
  have hskip := skip_append (a := [b])
    (b := lengthBytes f.form f.payload.length ++ (keyBytes f.maskKey ++ (xs ++ pad)))
    (n := (lengthBytes f.form f.payload.length).length + ((keyBytes f.maskKey).length + xs.length))
    (by rw [List.length_singleton]; omega)
  have hread := @readLength_eq f hf.form (keyBytes f.maskKey ++ (xs ++ pad))
    ((keyBytes f.maskKey).length + xs.length) (by omega)
  let ws : WebSock := { s.webSock with
    globRecvBuf := List.replicate f.payload.length 0
    globPayloadLen := f.payload.length
    mask := 0x80 ≤ b
    maskKey := if 0x80 ≤ b then (keyBytes f.maskKey ++ (xs ++ pad)).take 4 else s.webSock.maskKey }
  have hholds : Holds ws f [] := by
    refine ⟨rfl, List.length_replicate, rfl, ?_, fun key hkey' => ?_⟩
    · simp [ws, hmask]
    · have htake : (key.toList ++ (xs ++ pad)).take 4 = key.toList :=
        List.take_left' Vector.length_toList
      dsimp only [ws]
      rw [if_pos (by rw [hmask, hkey']; rfl), hkey']
      exact htake
  obtain ⟨ws₁, hcopy, hunder, hmore₁, hping₁, hoverruns⟩ := @copyPayload_eq f
    { s with webSock := ws } [] xs pad hholds (by rw [List.length_nil]; omega)
  have hcopy : copyPayload { s with webSock := ws } 0 (HttpBlob.mk (xs ++ pad) xs.length) =
      .ok { s with webSock := ws₁ } := hcopy
  unfold wsCoreDataFrame
  rw [List.length_singleton] at hskip
  rw [hskip]
  dsimp only [List.singleton_append]
  rw [hbyte, hread]
  dsimp only
  rw [hsize, if_neg (not_not_intro hf.room), hdata, hcopy]
  dsimp only
  unfold Receives
  by_cases hall : xs.length = f.payload.length
  · have hcontent := content_of_length hxs hall
    rw [List.nil_append, hcontent] at hunder
    obtain ⟨ws₂, hdone, hmore₂, hping₂, hoverruns₂⟩ := @wsCoreDataDone_eq env f
      { s with webSock := ws₁ } hunder.toHolds hf.masked (hping₁.trans hping)
    refine ⟨ws₂, hping₂, ?_⟩
    rw [if_pos hall, if_neg (by omega), hdone]
    exact ⟨rfl, hmore₂, by rw [hoverruns₂, hoverruns]⟩
  · have hunder' : UnderWay { ws₁ with recvMore := true } f xs :=
      ⟨⟨hunder.globPayloadLen, hunder.length, hunder.globRecvBuf, hunder.mask, hunder.maskKey⟩,
        hunder.globRecvLen⟩
    refine ⟨{ ws₁ with recvMore := true }, hping₁.trans hping, ?_⟩
    rw [if_neg hall, if_pos (by omega)]
    exact ⟨rfl, rfl, hunder', hoverruns⟩

theorem wsCoreDataRecv_first {env : Env} {f : Frame} (hf : Receivable env f) {s : Session}
    {xs : Bytes} (hmore : s.webSock.recvMore = false) (hping : s.webSock.ping = false)
    (hxs : xs <+: f.content) (hlen : (f.header ++ xs).length ≤ httpCoreMaxPacketSizeReceived) :
    Receives s f xs (wsCoreDataRecv env (receivedPacket (f.header ++ xs)) s) := by
  have hcode : f.opcode.code ≠ wsClose ∧ f.opcode.code ≠ wsPing := by
    rcases hf.data with hdata | hdata
    · rw [hdata]
      decide
    · rw [hdata]
      decide
  obtain ⟨hlength, hkey⟩ := length_header_le f
  have hshort : xs.length ≤ httpCoreMaxPacketSizeReceived := by
    rw [List.length_append] at hlen
    omega
  have hshort' : xs.length ≤ 1000 := hshort
  obtain ⟨pad, hpacket⟩ := receivedPacket_header f xs
  have hskip := skip_append (a := [firstByte f.opcode])
    (b := [secondByte f.maskKey.isSome f.form f.payload.length] ++
      (lengthBytes f.form f.payload.length ++ (keyBytes f.maskKey ++ (xs ++ pad))))
    (n := 1 + ((lengthBytes f.form f.payload.length).length +
      ((keyBytes f.maskKey).length + xs.length))) (by rw [List.length_singleton]; omega)
  have hframe := @wsCoreDataFrame_eq env f hf s xs pad hping hxs hshort
  rw [hpacket]
  unfold wsCoreDataRecv
  rw [hmore, if_neg Bool.false_ne_true]
  rw [List.length_singleton] at hskip
  dsimp only [List.singleton_append] at hskip hframe ⊢
  rw [firstByte_code, if_neg hcode.1, if_neg hcode.2, hskip]
  exact hframe

/-! ## The invariant -/

/-- What a connection has received of a frame that is not there as a whole. -/
def partOf (under : Option (ConnId × Frame × Bytes)) (c : ConnId) : Bytes :=
  match under with
  | none => []
  | some (d, f, got) => if d = c then f.header ++ got else []

/-- The connections have received these frames, and a part of that one. -/
structure Inv (s₀ s : Sockets) (frames : ConnId → List Frame)
    (under : Option (ConnId × Frame × Bytes)) : Prop where
  data : ∀ c, ∀ f ∈ frames c, f.opcode = .text ∨ f.opcode = .binary
  handled : ∀ c, (s.connections c).handled =
    (s₀.connections c).handled ++ (frames c).map Frame.payload
  sent : ∀ c, (s.connections c).sent = (s₀.connections c).sent
  received : ∀ c, s.received c = encodeAll (frames c) ++ partOf under c
  under : match under with
    | none => s.globals.webSock.recvMore = false
    | some (_, f, got) => s.globals.webSock.recvMore = true ∧ UnderWay s.globals.webSock f got ∧
        got <+: f.content ∧ got.length < f.payload.length
  ping : s.globals.webSock.ping = false
  overruns : s.globals.webSock.overruns = 0 ↔ ∀ c, frames c = []

theorem header_ne_nil (f : Frame) : f.header ≠ [] := List.cons_ne_nil _ _

theorem Inv.noFrame {s₀ s : Sockets} {frames : ConnId → List Frame}
    {under : Option (ConnId × Frame × Bytes)} (h : Inv s₀ s frames under) (c : ConnId) :
    NoFrame (partOf under c) := by
  have hunder := h.under
  unfold partOf
  split
  · exact noFrame_nil
  · split
    · rename_i d f got _
      obtain ⟨-, -, ⟨rest, hrest⟩, hlt⟩ := hunder
      have hencode : (f.header ++ got) ++ rest = f.encode := by
        rw [List.append_assoc, hrest]
        rfl
      refine noFrame_part hencode fun hnil => ?_
      rw [hnil, List.append_nil] at hrest
      rw [hrest, f.length_content] at hlt
      exact Nat.lt_irrefl _ hlt
    · exact noFrame_nil

theorem Inv.next {env : Env} {s₀ s : Sockets} {frames : ConnId → List Frame}
    {under : Option (ConnId × Frame × Bytes)} (h : Inv s₀ s frames under) {act : ConnId × Bytes}
    (hturn : InTurn env s act) :
    (∀ d, d ≠ act.1 → partOf under d = []) ∧
      ∃ f got, Receivable env f ∧ got <+: f.content ∧
        partOf under act.1 ++ act.2 = f.header ++ got ∧
        Receives (s.load act.1) f got
          (wsCoreDataRecv env (receivedPacket act.2) (s.load act.1)) := by
  obtain ⟨fs, part, f, hreceived, ⟨rest, hrest⟩, hf, hheader⟩ := hturn.frame
  have hothers : ∀ d, d ≠ act.1 → partOf under d = [] := by
    intro d hd
    obtain ⟨gs, hgs⟩ := hturn.others d hd
    rw [h.received d] at hgs
    exact (encodeAll_inj (h.noFrame d) noFrame_nil (hgs.trans (List.append_nil _).symm)).2
  refine ⟨hothers, f, ?_⟩
  have hpart : part = partOf under act.1 := by
    rw [h.received act.1] at hreceived
    have hnone : NoFrame part := @noFrame_part f part (act.2 ++ rest)
      (by rw [← List.append_assoc]; exact hrest) (List.append_ne_nil_of_left_ne_nil hturn.packet.1 _)
    exact (encodeAll_inj (h.noFrame act.1) hnone hreceived).2.symm
  subst hpart
  have hunder := h.under
  cases under with
  | none =>
    have hlong := hheader rfl
    have hrest : act.2 ++ rest = f.header ++ f.content := hrest
    obtain ⟨got, hgot⟩ : f.header <+: act.2 :=
      List.prefix_of_prefix_length_le (List.prefix_append _ _) ⟨rest, hrest⟩ hlong
    rw [← hgot, List.append_assoc] at hrest
    have hcontent : got <+: f.content := ⟨rest, List.append_cancel_left hrest⟩
    refine ⟨got, hf, hcontent, hgot.symm, ?_⟩
    rw [← hgot]
    exact wsCoreDataRecv_first hf hunder h.ping hcontent (by rw [hgot]; exact hturn.packet.2)
  | some under =>
    obtain ⟨d, g, got⟩ := under
    obtain ⟨hmore, hway, hgot, -⟩ := hunder
    have hd : d = act.1 := by
      by_contra hne
      have hnil := hothers d hne
      unfold partOf at hnil
      dsimp only at hnil
      rw [if_pos rfl] at hnil
      exact header_ne_nil g (List.append_eq_nil_iff.1 hnil).1
    have hpart : partOf (some (d, g, got)) act.1 = g.header ++ got := if_pos hd
    rw [hpart] at hrest ⊢
    have hsame : g.header ++ (got ++ (act.2 ++ rest)) = f.encode := by
      simpa only [List.append_assoc] using hrest
    unfold Frame.encode at hsame
    obtain ⟨-, hkey, hlength, hcontent⟩ := header_inj hsame
    rw [← List.append_assoc] at hcontent
    have hprefix : got ++ act.2 <+: f.content := ⟨rest, hcontent⟩
    have hheaders : g.header = f.header := by
      rw [← hcontent, ← List.append_assoc got] at hsame
      exact List.append_cancel_right hsame
    have hway' : UnderWay (s.load act.1).webSock f got :=
      ⟨⟨hlength ▸ hway.globPayloadLen, hlength ▸ hway.length, hway.globRecvBuf, hkey ▸ hway.mask,
        hkey ▸ hway.maskKey⟩, hway.globRecvLen⟩
    refine ⟨got ++ act.2, hf, hprefix, by rw [← hheaders, List.append_assoc], ?_⟩
    exact wsCoreDataRecv_more hf hmore h.ping hway' hprefix

theorem Inv.step {env : Env} {s₀ s : Sockets} {frames : ConnId → List Frame}
    {under : Option (ConnId × Frame × Bytes)} (h : Inv s₀ s frames under) {act : ConnId × Bytes}
    (hturn : InTurn env s act) :
    ∃ s' o frames' under', recvStep env s act = some (s', o) ∧ Inv s₀ s' frames' under' := by
  obtain ⟨hothers, f, got, hf, hgot, hpart, ws, hping, hreceives⟩ := h.next hturn
  have hstep : ∀ {t}, wsCoreDataRecv env (receivedPacket act.2) (s.load act.1) = .ok (t, true) →
      recvStep env s act = some ({
        toServer := s.store act.1 t
        received := fun d => if d = act.1 then s.received d ++ act.2 else s.received d }, ()) := by
    intro t ht
    have hstate : (s.load act.1).connectionState = .webSocketDataRecv := hturn.upgraded
    unfold recvStep Loop.pass
    rw [hstate]
    dsimp only
    rw [ht]
  have hreceived : s.received act.1 ++ act.2 = encodeAll (frames act.1) ++ (f.header ++ got) := by
    rw [h.received, List.append_assoc, hpart]
  split at hreceives
  · rename_i hlength
    obtain ⟨hrecv, hmore, hoverruns⟩ := hreceives
    refine ⟨_, _, fun d => if d = act.1 then frames d ++ [f] else frames d, none, hstep hrecv, ?_⟩
    refine ⟨fun d g hg => ?_, fun d => ?_, fun d => ?_, fun d => ?_, hmore, hping, ?_⟩
    · split at hg
      · rcases List.mem_append.1 hg with hg | hg
        · exact h.data d g hg
        · rw [List.mem_singleton.1 hg]
          exact hf.data
      · exact h.data d g hg
    · by_cases hd : d = act.1
      · subst hd
        dsimp only
        rw [connections_store_same, if_pos rfl, List.map_append, ← List.append_assoc, ← h.handled]
        rfl
      · dsimp only
        rw [connections_store_ne _ hd, if_neg hd]
        exact h.handled d
    · by_cases hd : d = act.1
      · subst hd
        dsimp only
        rw [connections_store_same]
        exact h.sent _
      · dsimp only
        rw [connections_store_ne _ hd]
        exact h.sent d
    · by_cases hd : d = act.1
      · subst hd
        dsimp only
        rw [if_pos rfl, if_pos rfl, hreceived, content_of_length hgot hlength, encodeAll_snoc]
        unfold partOf
        rw [List.append_nil]
        rfl
      · dsimp only
        rw [if_neg hd, if_neg hd, h.received d, hothers d hd]
        rfl
    · constructor
      · intro hzero
        have hzero : ws.overruns = 0 := hzero
        rw [hoverruns] at hzero
        cases hzero
      · intro hnil
        have hnil := hnil act.1
        rw [if_pos rfl] at hnil
        exact absurd (List.append_eq_nil_iff.1 hnil).2 (List.cons_ne_nil _ _)
  · rename_i hlength
    obtain ⟨hrecv, hmore, hway, hoverruns⟩ := hreceives
    have hlt : got.length < f.payload.length :=
      Nat.lt_of_le_of_ne (f.length_content ▸ hgot.length_le) hlength
    refine ⟨_, _, frames, some (act.1, f, got), hstep hrecv, ?_⟩
    refine ⟨h.data, fun d => ?_, fun d => ?_, fun d => ?_, ⟨hmore, hway, hgot, hlt⟩, hping, ?_⟩
    · by_cases hd : d = act.1
      · subst hd
        dsimp only
        rw [connections_store_same]
        exact h.handled _
      · dsimp only
        rw [connections_store_ne _ hd]
        exact h.handled d
    · by_cases hd : d = act.1
      · subst hd
        dsimp only
        rw [connections_store_same]
        exact h.sent _
      · dsimp only
        rw [connections_store_ne _ hd]
        exact h.sent d
    · by_cases hd : d = act.1
      · subst hd
        dsimp only
        rw [if_pos rfl, hreceived]
        unfold partOf
        dsimp only
        rw [if_pos rfl]
      · dsimp only
        rw [if_neg hd, h.received d, hothers d hd]
        unfold partOf
        dsimp only
        rw [if_neg (Ne.symm hd)]
    · have hsame : ws.overruns = s.globals.webSock.overruns := hoverruns
      rw [show (s.store act.1 _).globals.webSock.overruns = ws.overruns from rfl, hsame]
      exact h.overruns

theorem inv_fresh {s : Sockets} (h : Fresh s) : Inv s s (fun _ => []) none :=
  ⟨fun _ _ hf => absurd hf List.not_mem_nil, fun _ => (List.append_nil _).symm, fun _ => rfl, h.received, h.recvMore,
    h.ping, ⟨fun _ _ => rfl, fun _ => h.overruns⟩⟩

theorem Inv.delivered {s₀ s : Sockets} {frames : ConnId → List Frame}
    {under : Option (ConnId × Frame × Bytes)} (h : Inv s₀ s frames under) : Delivered s₀ s := by
  intro c fs part hreceived hpart
  rw [h.received c] at hreceived
  obtain ⟨hmap, -⟩ := encodeAll_inj (h.noFrame c) hpart hreceived
  refine ⟨?_, fun _ => h.sent c⟩
  have hpayloads : (frames c).map Frame.payload = fs.map Frame.payload := by
    have hsnd := congrArg (List.map Prod.snd) hmap
    rwa [List.map_map, List.map_map] at hsnd
  have hdata : ∀ f ∈ fs, f.opcode = .text ∨ f.opcode = .binary := by
    intro f hf
    have hpair : (f.opcode, f.payload) ∈ (frames c).map fun f => (f.opcode, f.payload) :=
      hmap ▸ List.mem_map_of_mem hf
    obtain ⟨g, hg, hsame⟩ := List.mem_map.1 hpair
    rw [← (Prod.mk.inj hsame).1]
    exact h.data c g hg
  rw [h.handled c, hpayloads, List.filter_eq_self.2 fun f hf => decide_eq_true (hdata f hf)]

theorem Inv.unharmed {s₀ s : Sockets} {frames : ConnId → List Frame}
    {under : Option (ConnId × Frame × Bytes)} (h : Inv s₀ s frames under) :
    s.globals.webSock.overruns = 0 ↔ ∀ c, NoFrame (s.received c) := by
  rw [h.overruns]
  refine forall_congr' fun c => ?_
  rw [h.received c]
  constructor
  · intro hnil
    rw [hnil]
    exact h.noFrame c
  · intro hnone
    cases hframes : frames c with
    | nil => rfl
    | cons f fs =>
      rw [hframes, encodeAll_cons, List.append_assoc] at hnone
      exact absurd (List.prefix_append _ _) (hnone f)

/-! ## The results -/

/-- Packets that come in their turns are received as they should be: none of them leads outside of
the memory, and the payload of each data frame is delivered once, on its connection. But the byte
behind the buffer is written with the first frame. -/
theorem websocket_reception (env : Env) {s₀ : Sockets} (h₀ : Fresh s₀) {acts : List (ConnId × Bytes)}
    (hturns : Meets (recvStep env) (InTurn env) s₀ acts) :
    ∃ s os, runs (recvStep env) s₀ acts = some (s, os) ∧ Delivered s₀ s ∧
      (s.globals.webSock.overruns = 0 ↔ ∀ c, NoFrame (s.received c)) := by
  have hinv : ∃ frames under, Inv s₀ s₀ frames under := ⟨_, _, inv_fresh h₀⟩
  obtain ⟨s, os, hrun, frames, under, h⟩ := runs_invariant
    (I := fun s => ∃ frames under, Inv s₀ s frames under)
    (fun s act ⟨frames, under, h⟩ hturn => by
      obtain ⟨s', o, frames', under', hstep, h'⟩ := h.step hturn
      exact ⟨s', o, hstep, frames', under', h'⟩) hinv hturns
  exact ⟨s, os, hrun, h.delivered, h.unharmed⟩

def upgraded : Sockets where
  toServer := { serverInit [] [] with
    connections := fun _ => { initConnection with connectionState := .webSocketDataRecv } }
  received _ := []

theorem fresh_upgraded : Fresh upgraded := ⟨rfl, rfl, rfl, fun _ => rfl⟩

def oneLetter : Frame where
  opcode := .text
  form := .bits7
  maskKey := some #v[1, 2, 3, 4]
  payload := [65]
  fits := by decide

theorem websocket_reception_one :
    ∃ s os, runs (recvStep threeBytes) upgraded [(3, oneLetter.encode)] = some (s, os) ∧
      Delivered upgraded s ∧ (s.globals.webSock.overruns = 0 ↔ ∀ c, NoFrame (s.received c)) := by
  refine websocket_reception threeBytes fresh_upgraded ⟨⟨rfl, by decide, ?_, ?_⟩, ?_⟩
  · refine ⟨[], [], oneLetter, rfl, List.prefix_rfl, ?_, fun _ => by decide⟩
    exact ⟨.inl rfl, (fun h => nomatch h), fun _ => by decide, by decide, rfl⟩
  · exact fun d _ => ⟨[], rfl⟩
  · split
    · trivial
    · trivial

set_option maxRecDepth 20000 in
/-- The byte behind the buffer is written when the letter has been received. -/
theorem letter_overruns :
    ¬ ∃ s os, runs (recvStep threeBytes) upgraded [(3, oneLetter.encode)] = some (s, os) ∧
      Delivered upgraded s ∧ s.globals.webSock.overruns = 0 := by
  rintro ⟨s, os, hrun, -, hnone⟩
  have hone : ((runs (recvStep threeBytes) upgraded [(3, oneLetter.encode)]).map fun r =>
      r.1.globals.webSock.overruns) = some 1 := by decide +kernel
  rw [hrun] at hone
  have hone : s.globals.webSock.overruns = 1 := Option.some.inj hone
  rw [hnone] at hone
  cases hone

end SimpleLink.Http.Reception
