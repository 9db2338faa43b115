import SimpleLink.Http.Kept
import SimpleLink.Lib.Base64
import SimpleLink.Lib.Overwrite
import Mathlib.Data.List.TakeWhile

/-!
# The key of the handshake (`HttpCore.c`, `base64.c`)

`WS_HandshakeHash` and `ConvertToBase64`. SHA-1 is computed by the hardware: any function to 20 bytes.
-/

namespace SimpleLink.Http.Handshake

open Lib Strings Conn Response Handlers WebSocket Kept

def gCcB64Tbl : Bytes := ascii "ABCDEFGHIJKLMNOPQRSTUVWXYZabcdefghijklmnopqrstuvwxyz0123456789+/"

def b64Char (n : UInt8) : UInt8 := gCcB64Tbl.getD n.toNat 0

/-- `ConvertToBase64` from `pccIn` on, where `iLen - iCount` bytes are left: what it writes, with the
zero at the end. A `char` is unsigned. -/
def convertToBase64 : Bytes → Nat → Option Bytes
  | a :: b :: c :: pccIn, left + 3 =>
    (convertToBase64 pccIn left).map
      ([b64Char (a >>> 2), b64Char ((a &&& 0x03) <<< 4 ||| b >>> 4),
        b64Char ((b &&& 0x0F) <<< 2 ||| c >>> 6), b64Char (c &&& 0x3f)] ++ ·)
  | a :: b :: _, 2 =>
    some [b64Char (a >>> 2), b64Char ((a &&& 0x03) <<< 4 ||| b >>> 4), b64Char ((b &&& 0x0F) <<< 2),
      61, 0]
  | a :: _, 1 => some [b64Char (a >>> 2), b64Char ((a &&& 0x03) <<< 4), 61, 61, 0]
  | _, 0 => some [0]
  | _, _ => none

/-- The size of the three arrays of `WSCore_HandshakeResponse`. -/
abbrev keyArray : Nat := wsKeyLength + (wsMagicString.length + 1) + 1

/-- `WS_HandshakeHash`: the string in `EncOutKey`. The digest is handed on as a string. -/
def wsHandshakeHash (sha1 : Bytes → Vector UInt8 20) (inKey : Bytes) : Option Bytes :=
  let outKey := overwrite (List.replicate keyArray 0) 0 (sha1 inKey).toList
  (convertToBase64 outKey (cString outKey).length).map cString

/-- The environment whose hardware computes `sha1`. -/
def hashing (env : Env) (sha1 : Bytes → Vector UInt8 20) : Env :=
  { env with handshakeHash := fun inKey => (wsHandshakeHash sha1 inKey).getD [] }

/-! ## The encoder -/

local instance neZero_alphabet : NeZero 64 := ⟨by decide⟩

def standard : Base64.Alphabet UInt8 where
  symbol i :=
    if i.val < 26 then UInt8.ofNat (65 + i.val)
    else if i.val < 52 then UInt8.ofNat (97 + (i.val - 26))
    else if i.val < 62 then UInt8.ofNat (48 + (i.val - 52))
    else if i.val = 62 then 43
    else 47
  value c :=
    if 65 ≤ c ∧ c ≤ 90 then some (Fin.ofNat 64 (c.toNat - 65))
    else if 97 ≤ c ∧ c ≤ 122 then some (Fin.ofNat 64 (c.toNat - 97 + 26))
    else if 48 ≤ c ∧ c ≤ 57 then some (Fin.ofNat 64 (c.toNat - 48 + 52))
    else if c = 43 then some 62
    else if c = 47 then some 63
    else none
  pad := 61
  value_symbol := by decide
  value_pad := by decide

theorem gCcB64Tbl_symbol : ∀ i : Fin 64, gCcB64Tbl.getD i.val 0 = standard.symbol i := by decide

theorem b64Char_eq {n : UInt8} {i : Fin 64} (h : n.toNat = i.val) : b64Char n = standard.symbol i := by
  rw [b64Char, h, gCcB64Tbl_symbol]

theorem toNat_join {k n : Nat} {x y mask shift : UInt8} (hmask : mask.toNat = 2 ^ k - 1)
    (hshift : shift.toNat = n) (hk : k + n ≤ 8) (hn : n < 8) (hy : y.toNat < 2 ^ n) :
    ((x &&& mask) <<< shift ||| y).toNat = x.toNat % 2 ^ k * 2 ^ n + y.toNat := by
  have hmod : x.toNat % 2 ^ k < 2 ^ k := Nat.mod_lt _ (Nat.two_pow_pos k)
  have hlt : x.toNat % 2 ^ k * 2 ^ n < 2 ^ 8 :=
    calc x.toNat % 2 ^ k * 2 ^ n < 2 ^ k * 2 ^ n := Nat.mul_lt_mul_of_pos_right hmod (Nat.two_pow_pos n)
      _ = 2 ^ (k + n) := (Nat.pow_add ..).symm
      _ ≤ 2 ^ 8 := Nat.pow_le_pow_right (by omega) hk
  rw [UInt8.toNat_or, UInt8.toNat_shiftLeft, UInt8.toNat_and, hmask, hshift,
    Nat.and_two_pow_sub_one_eq_mod, Nat.mod_eq_of_lt hn, Nat.shiftLeft_eq, Nat.mod_eq_of_lt hlt,
    ← Nat.shiftLeft_eq, Nat.shiftLeft_add_eq_or_of_lt hy]

theorem toNat_shift {x shift : UInt8} {n : Nat} (hshift : shift.toNat = n) (hn : n < 8) :
    (x >>> shift).toNat = x.toNat / 2 ^ n := by
  rw [UInt8.toNat_shiftRight, hshift, Nat.mod_eq_of_lt hn, Nat.shiftRight_eq_div_pow]

theorem b64Char_group (a b c : UInt8) :
    b64Char (a >>> 2) = standard.symbol (Base64.digit (Base64.ofBytes a b c) 3) ∧
      b64Char ((a &&& 0x03) <<< 4 ||| b >>> 4) =
        standard.symbol (Base64.digit (Base64.ofBytes a b c) 2) ∧
      b64Char ((b &&& 0x0F) <<< 2 ||| c >>> 6) =
        standard.symbol (Base64.digit (Base64.ofBytes a b c) 1) ∧
      b64Char (c &&& 0x3f) = standard.symbol (Base64.digit (Base64.ofBytes a b c) 0) := by
  have ha := a.toNat_lt
  have hb := b.toNat_lt
  have hc := c.toNat_lt
  have hb4 : (b >>> 4).toNat = b.toNat / 2 ^ 4 := toNat_shift rfl (by decide)
  have hc6 : (c >>> 6).toNat = c.toNat / 2 ^ 6 := toNat_shift rfl (by decide)
  refine ⟨b64Char_eq ?_, b64Char_eq ?_, b64Char_eq ?_, b64Char_eq ?_⟩
  · rw [toNat_shift (n := 2) rfl (by decide), Base64.digit_val, Base64.ofBytes]
    omega
  · rw [toNat_join (k := 2) (n := 4) rfl rfl (by decide) (by decide) (by omega), hb4,
      Base64.digit_val, Base64.ofBytes]
    omega
  · rw [toNat_join (k := 4) (n := 2) rfl rfl (by decide) (by decide) (by omega), hc6,
      Base64.digit_val, Base64.ofBytes]
    omega
  · rw [UInt8.toNat_and, Base64.digit_val, Base64.ofBytes]
    have hmask : c.toNat &&& 63 = c.toNat % 2 ^ 6 := Nat.and_two_pow_sub_one_eq_mod c.toNat 6
    exact hmask.trans (by omega)

theorem convertToBase64_eq (l rest : Bytes) :
    convertToBase64 (l ++ rest) l.length = some (Base64.encode standard l ++ [0]) := by
  fun_induction Base64.encode standard l with
  | case1 => simp [convertToBase64]
  | case2 a n =>
    obtain ⟨h3, h2, -, -⟩ := b64Char_group a 0 0
    have h2' : b64Char ((a &&& 0x03) <<< 4) = standard.symbol (Base64.digit n 2) := by simpa using h2
    simp [convertToBase64, n, h3, h2', standard]
  | case3 a b n =>
    obtain ⟨h3, h2, h1, -⟩ := b64Char_group a b 0
    have h1' : b64Char ((b &&& 0x0F) <<< 2) = standard.symbol (Base64.digit n 1) := by simpa using h1
    simp [convertToBase64, n, h3, h2, h1', standard]
  | case4 a b c rest' n ih =>
    obtain ⟨h3, h2, h1, h0⟩ := b64Char_group a b c
    simp [convertToBase64, ih, h3, h2, h1, h0, n]

/-! ## The response -/

theorem zero_notMem_encode (l : Bytes) : 0 ∉ Base64.encode standard l := by
  intro hzero
  have hsymbol : ∀ i, standard.symbol i ≠ 0 := by decide
  rcases Base64.mem_encode hzero with hpad | ⟨i, hi⟩
  · exact absurd hpad (by decide)
  · exact hsymbol i hi.symm

theorem cString_append_zero (l rest : Bytes) : cString (l ++ 0 :: rest) = cString l := by
  unfold cString
  induction l with
  | nil => rfl
  | cons b l ih => rw [List.cons_append, List.takeWhile_cons, List.takeWhile_cons, ih]

theorem cString_eq_self_iff {l : Bytes} : cString l = l ↔ 0 ∉ l := by
  rw [cString, List.takeWhile_eq_self_iff]
  constructor
  · intro hall hzero
    simpa using hall 0 hzero
  · exact fun hzero b hb => decide_eq_true fun hz => hzero (hz ▸ hb)

theorem wsHandshakeHash_eq (sha1 : Bytes → Vector UInt8 20) (inKey : Bytes) :
    wsHandshakeHash sha1 inKey =
      some (Base64.encode standard (cString (sha1 inKey).toList)) := by
  have hlen : (sha1 inKey).toList.length = 20 := Vector.length_toList
  -- The array goes on with zeros behind the digest.
  obtain ⟨rest, hrest⟩ : ∃ rest, overwrite (List.replicate keyArray 0) 0 (sha1 inKey).toList =
      (sha1 inKey).toList ++ 0 :: rest := by
    refine ⟨List.replicate (keyArray - 21) 0, ?_⟩
    rw [overwrite_zero, hlen, List.drop_replicate]
    rfl
  obtain ⟨behind, hbehind⟩ : ∃ behind, (sha1 inKey).toList ++ 0 :: rest =
      cString (sha1 inKey).toList ++ behind := by
    refine ⟨((sha1 inKey).toList.dropWhile (· ≠ 0)) ++ 0 :: rest, ?_⟩
    rw [← List.append_assoc, cString, List.takeWhile_append_dropWhile]
  rw [wsHandshakeHash, hrest, cString_append_zero, hbehind, convertToBase64_eq, Option.map_some,
    cString_append_zero, cString_eq_self_iff.2 (zero_notMem_encode _)]

theorem hashing_eq (env : Env) (sha1 : Bytes → Vector UInt8 20) (inKey : Bytes) :
    (hashing env sha1).handshakeHash inKey = Base64.encode standard (cString (sha1 inKey).toList) := by
  show (wsHandshakeHash sha1 inKey).getD [] = _
  rw [wsHandshakeHash_eq]
  rfl

def Accepts (accept : Bytes) (s t : Session) : Prop :=
  ∃ origin, s.wsOriginName = some origin ∧
    t.sent = s.sent ++ (s.packetSend ++ (handshakeStrings accept (cString origin)).flatten)

theorem Accepts.unique {accept accept' : Bytes} {s t : Session} (h : Accepts accept s t)
    (h' : Accepts accept' s t) : accept = accept' := by
  obtain ⟨origin, horigin, hsent⟩ := h
  obtain ⟨origin', horigin', hsent'⟩ := h'
  obtain rfl : origin = origin' := Option.some.inj (horigin.symm.trans horigin')
  rw [hsent, List.append_cancel_left_eq, List.append_cancel_left_eq] at hsent'
  simpa [handshakeStrings, headerLine] using hsent'

theorem wsCoreHandshakeResponse_accepts {env : Env} {s t : Session}
    (h : wsCoreHandshakeResponse env s = .ok (t, true)) :
    Accepts (env.handshakeHash (cString s.wsKey ++ wsMagicString)) s t := by
  rw [wsCoreHandshakeResponse] at h
  split at h
  · cases h
  · rename_i origin horigin
    refine ⟨origin, horigin, ?_⟩
    dsimp only at h
    split at h
    · cases h
    · rename_i s₁ hadd
      have hsends := httpCoreSendPacket_sends s₁.packetSend s₁
      split at h
      · cases h
      · cases h
      · rename_i s₂ hsend
        cases h
        rw [hsend] at hsends
        unfold Sends at hsends
        split at hsends
        · cases hsends
        · cases hsends
          rw [addStrings_packet hadd]
        · obtain ⟨out, -, hout⟩ := hsends
          cases hout

/-- `ConvertToBase64` writes the standard encoding of every string, which can be decoded. The response
to a handshake accepts the key with the encoding of the digest if and only if the digest has no byte
that is zero. -/
theorem handshake_key (env : Env) (sha1 : Bytes → Vector UInt8 20) (s t : Session)
    (h : wsCoreHandshakeResponse (hashing env sha1) s = .ok (t, true)) :
    (∀ l, convertToBase64 l l.length = some (Base64.encode standard l ++ [0]) ∧
      Base64.decode standard (Base64.encode standard l) = some l) ∧
    (Accepts (Base64.encode standard (sha1 (cString s.wsKey ++ wsMagicString)).toList) s t ↔
      0 ∉ (sha1 (cString s.wsKey ++ wsMagicString)).toList) := by
  refine ⟨fun l => ⟨?_, Base64.decode_encode standard l⟩, ?_⟩
  · simpa using convertToBase64_eq l []
  · have haccepts := wsCoreHandshakeResponse_accepts h
    rw [hashing_eq] at haccepts
    rw [← cString_eq_self_iff]
    constructor
    · exact fun hall => Base64.encode_inj (haccepts.unique hall)
    · intro hnull
      rwa [hnull] at haccepts

theorem wsCoreHandshakeResponse_ok {env : Env} {s : Session} {origin packet : Bytes}
    (horigin : s.wsOriginName = some origin) (hempty : s.packetSend = [])
    (hpacket : (handshakeStrings (env.handshakeHash (cString s.wsKey ++ wsMagicString))
      (cString origin)).flatten = packet)
    (hpos : 0 < packet.length) (hfits : packet.length ≤ httpCoreMaxPacketSizeSend)
    (hsends : s.sends = [(packet.length : Int)]) :
    ∃ t, wsCoreHandshakeResponse env s = .ok (t, true) := by
  have hadd : addString s packet = .ok { s with packetSend := packet } := by
    unfold addString
    rw [hempty, List.length_nil, Nat.zero_add, if_pos hfits, List.nil_append]
  have hsent := httpCoreSendPacket_sends packet { s with packetSend := packet }
  have hdelivers : delivers s.sends (packetLens packet.length) = some (true, []) := by
    have hagain : (packet.length : Int) ≠ slEagain := by
      unfold slEagain
      omega
    rw [packetLens_short hpos hfits, hsends, delivers_cons, if_neg hagain, if_pos rfl, delivers_nil]
  unfold Sends at hsent
  dsimp only at hsent
  rw [hdelivers] at hsent
  rw [wsCoreHandshakeResponse, horigin]
  dsimp only
  rw [addStrings_eq (by rw [hempty]; exact Nat.zero_le _), hpacket, hadd]
  dsimp only
  rw [hsent]
  exact ⟨_, rfl⟩

/-- A connection whose client has sent the key of the standard's example. -/
def upgrading (sendLen : Nat) : Session where
  connectionState := .webSocketResponse
  uFlags := Flags.zero
  requestContent := 0
  handler := .httpStatic
  headerStart := []
  uContentLeft := 0
  uSavedBufferSize := 0
  sent := []
  handled := []
  packetSend := []
  cFileName := []
  fileHandle := -1
  numResource := 0
  restContent := []
  wsKey := ascii "dGhlIHNhbXBsZSBub25jZQ=="
  wsOriginName := some (ascii "http://a" ++ [0])
  origin := true
  webSock := ⟨[], 0, 0, false, [], false, false, 0⟩
  sends := [(sendLen : Int)]
  opens := 0
  closed := []

def quiet : Env where
  fsOpen _ _ := -1
  fileLen _ := 0
  fsRead _ _ _ := none
  malloc _ := true
  callback _ := []
  handshakeHash key := key
  socketCloses := true

def equalBytes (b : UInt8) (_ : Bytes) : Vector UInt8 20 := Vector.replicate 20 b

theorem upgrading_succeeds (b : UInt8) {n : Nat} (hn : (handshakeStrings
      (Base64.encode standard (cString (List.replicate 20 b))) (ascii "http://a")).flatten.length = n)
    (hpos : 0 < n) (hfits : n ≤ httpCoreMaxPacketSizeSend) :
    ∃ t, wsCoreHandshakeResponse (hashing quiet (equalBytes b)) (upgrading n) = .ok (t, true) := by
  subst hn
  have horigin : cString (ascii "http://a" ++ [0]) = ascii "http://a" := by decide
  refine wsCoreHandshakeResponse_ok rfl rfl ?_ hpos hfits rfl
  rw [hashing_eq, horigin]
  rfl

theorem handshake_key_ones :
    ∃ t, wsCoreHandshakeResponse (hashing quiet (equalBytes 1)) (upgrading 480) = .ok (t, true) ∧
      Accepts (Base64.encode standard (List.replicate 20 1)) (upgrading 480) t := by
  obtain ⟨t, ht⟩ := upgrading_succeeds 1 (n := 480) (by decide +kernel) (by decide) (by decide)
  exact ⟨t, ht, (handshake_key quiet (equalBytes 1) (upgrading 480) t ht).2.2 (by decide)⟩

/-- A digest of zeros is taken for the empty string. -/
theorem zero_digest_dropped :
    ∃ t, wsCoreHandshakeResponse (hashing quiet (equalBytes 0)) (upgrading 452) = .ok (t, true) ∧
      ¬ Accepts (Base64.encode standard (List.replicate 20 0)) (upgrading 452) t := by
  obtain ⟨t, ht⟩ := upgrading_succeeds 0 (n := 452) (by decide +kernel) (by decide) (by decide)
  refine ⟨t, ht, fun haccepts => ?_⟩
  have hempty := (wsCoreHandshakeResponse_accepts ht).unique haccepts
  rw [hashing_eq] at hempty
  have hdigest := Base64.encode_inj hempty
  exact absurd hdigest (by decide)

end SimpleLink.Http.Handshake
