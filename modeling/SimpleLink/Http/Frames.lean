import SimpleLink.Http.WebSocket

/-!
# The frames of a client

What a client sends over a websocket, and that it can be read in one way only.
-/

namespace SimpleLink.Http.Frames

open Strings WebSocket

/-! ## Numbers -/

/-- A number of so many bytes, the highest first. -/
def bigEndian : Nat → Nat → Bytes
  | 0, _ => []
  | k + 1, n => bigEndian k (n / 256) ++ [UInt8.ofNat n]

theorem length_bigEndian (k n : Nat) : (bigEndian k n).length = k := by
  induction k generalizing n with
  | zero => rfl
  | succ k ih => rw [bigEndian, List.length_append, ih, List.length_singleton]

theorem foldl_bigEndian {k n : Nat} (h : n < 256 ^ k) :
    (bigEndian k n).foldl (fun n b => n * 256 + b.toNat) 0 = n := by
  induction k generalizing n with
  | zero =>
    obtain rfl := Nat.lt_one_iff.1 h
    rfl
  | succ k ih =>
    have hdiv : n / 256 < 256 ^ k := Nat.div_lt_of_lt_mul (by rwa [Nat.pow_succ'] at h)
    rw [bigEndian, List.foldl_append, ih hdiv, List.foldl_cons, List.foldl_nil, UInt8.toNat_ofNat']
    omega

theorem payloadlength_bigEndian {k n : Nat} (h : n < 256 ^ k) (hn : n < 2 ^ 63) :
    payloadlength (bigEndian k n) = n := by
  unfold payloadlength
  rw [foldl_bigEndian h]
  exact if_pos hn

theorem bigEndian_inj {k m n : Nat} (hm : m < 256 ^ k) (hn : n < 256 ^ k)
    (h : bigEndian k m = bigEndian k n) : m = n := by
  have hfold := congrArg (List.foldl (fun n b => n * 256 + b.toNat) 0) h
  rwa [foldl_bigEndian hm, foldl_bigEndian hn] at hfold

/-! ## Frames -/

inductive Opcode where
  | text
  | binary
  | ping
  | pong
deriving DecidableEq

def Opcode.code : Opcode → Nat
  | .text => 1
  | .binary => 2
  | .ping => 9
  | .pong => 10

/-- How the length of the payload is written. -/
inductive LengthForm where
  | bits7
  | bits16
  | bits64
deriving DecidableEq

/-- The lengths that can be written. -/
def LengthForm.bound : LengthForm → Nat
  | .bits7 => 126
  | .bits16 => 2 ^ 16
  | .bits64 => 2 ^ 63

structure Frame where
  opcode : Opcode
  form : LengthForm
  maskKey : Option (Vector UInt8 4)
  payload : Bytes
  fits : payload.length < form.bound

/-- The second byte, without its highest bit. -/
def lengthByte (form : LengthForm) (n : Nat) : Nat :=
  match form with
  | .bits7 => n
  | .bits16 => 126
  | .bits64 => 127

def lengthBytes (form : LengthForm) (n : Nat) : Bytes :=
  match form with
  | .bits7 => []
  | .bits16 => bigEndian 2 n
  | .bits64 => bigEndian 8 n

def keyBytes (maskKey : Option (Vector UInt8 4)) : Bytes :=
  match maskKey with
  | none => []
  | some key => key.toList

def firstByte (opcode : Opcode) : UInt8 := UInt8.ofNat (0x80 + opcode.code)

def secondByte (masked : Bool) (form : LengthForm) (n : Nat) : UInt8 :=
  UInt8.ofNat ((if masked then 0x80 else 0) + lengthByte form n)

def Frame.header (f : Frame) : Bytes :=
  firstByte f.opcode :: secondByte f.maskKey.isSome f.form f.payload.length ::
    (lengthBytes f.form f.payload.length ++ keyBytes f.maskKey)

/-- The payload as it is sent. -/
def Frame.content (f : Frame) : Bytes :=
  match f.maskKey with
  | none => f.payload
  | some key => unmask key.toList f.payload

def Frame.encode (f : Frame) : Bytes := f.header ++ f.content

def encodeAll (fs : List Frame) : Bytes := (fs.map Frame.encode).flatten

/-- There is no frame as a whole at the beginning. -/
def NoFrame (bytes : Bytes) : Prop := ∀ f : Frame, ¬ f.encode <+: bytes

/-! ## The mask -/

theorem length_unmask (key payload : Bytes) : (unmask key payload).length = payload.length := by
  unfold unmask
  rw [List.length_map, List.length_zipIdx]

theorem unmask_unmask (key payload : Bytes) : unmask key (unmask key payload) = payload := by
  refine List.ext_getElem (by rw [length_unmask, length_unmask]) fun i _ _ => ?_
  have hcancel (a b : UInt8) : a ^^^ b ^^^ b = a := by
    rw [UInt8.xor_assoc, UInt8.xor_self, UInt8.xor_zero]
  unfold unmask
  refine Eq.trans ?_ (hcancel _ (key.getD (i % 4) 0))
  simp

theorem Frame.length_content (f : Frame) : f.content.length = f.payload.length := by
  unfold Frame.content
  split
  · rfl
  · exact length_unmask _ _

/-! ## Reading a frame -/

theorem lengthByte_lt {form : LengthForm} {n : Nat} (h : n < form.bound) : lengthByte form n < 128 := by
  cases form with
  | bits7 => exact Nat.lt_trans h (by decide)
  | bits16 => exact (by decide : 126 < 128)
  | bits64 => exact (by decide : 127 < 128)

theorem secondByte_inj {masked masked' : Bool} {form form' : LengthForm} {m n : Nat}
    (hm : m < form.bound) (hn : n < form'.bound)
    (h : secondByte masked form m = secondByte masked' form' n) :
    masked = masked' ∧ form = form' ∧ lengthByte form m = lengthByte form' n := by
  have hm' := lengthByte_lt hm
  have hn' := lengthByte_lt hn
  have htoNat := congrArg UInt8.toNat h
  unfold secondByte at htoNat
  rw [UInt8.toNat_ofNat', UInt8.toNat_ofNat'] at htoNat
  have hboth : masked = masked' ∧ lengthByte form m = lengthByte form' n := by
    cases masked <;> cases masked' <;> simp at htoNat ⊢ <;> omega
  refine ⟨hboth.1, ?_, hboth.2⟩
  have hbyte := hboth.2
  cases form <;> cases form' <;> simp [lengthByte, LengthForm.bound] at * <;> omega

theorem lengthBytes_inj {form : LengthForm} {m n : Nat} {x y : Bytes} (hm : m < form.bound)
    (hn : n < form.bound) (hbyte : lengthByte form m = lengthByte form n)
    (h : lengthBytes form m ++ x = lengthBytes form n ++ y) : m = n ∧ x = y := by
  cases form with
  | bits7 => exact ⟨hbyte, h⟩
  | bits16 =>
    obtain ⟨hlength, hrest⟩ := List.append_inj h (by rw [lengthBytes, lengthBytes, length_bigEndian,
      length_bigEndian])
    exact ⟨bigEndian_inj hm hn hlength, hrest⟩
  | bits64 =>
    obtain ⟨hlength, hrest⟩ := List.append_inj h (by rw [lengthBytes, lengthBytes, length_bigEndian,
      length_bigEndian])
    exact ⟨bigEndian_inj (Nat.lt_trans hm (by decide)) (Nat.lt_trans hn (by decide)) hlength, hrest⟩

theorem keyBytes_inj {key key' : Option (Vector UInt8 4)} {x y : Bytes}
    (hsome : key.isSome = key'.isSome) (h : keyBytes key ++ x = keyBytes key' ++ y) :
    key = key' ∧ x = y := by
  cases key with
  | none =>
    cases key' with
    | none => exact ⟨rfl, h⟩
    | some key' => cases hsome
  | some key =>
    cases key' with
    | none => cases hsome
    | some key' =>
      obtain ⟨hkey, hrest⟩ := List.append_inj h (by simp [keyBytes])
      exact ⟨congrArg some (Vector.toList_inj.1 hkey), hrest⟩

theorem header_inj {f g : Frame} {x y : Bytes} (h : f.header ++ x = g.header ++ y) :
    f.opcode = g.opcode ∧ f.maskKey = g.maskKey ∧ f.payload.length = g.payload.length ∧ x = y := by
  unfold Frame.header at h
  simp only [List.cons_append, List.cons.injEq, List.append_assoc] at h
  obtain ⟨hfirst, hsecond, hrest⟩ := h
  have hopcode : f.opcode = g.opcode := by
    revert hfirst
    cases f.opcode <;> cases g.opcode <;> decide
  obtain ⟨hmask, hform, hbyte⟩ := secondByte_inj f.fits g.fits hsecond
  have hfits := g.fits
  rw [← hform] at hrest hbyte hfits
  obtain ⟨hlength, hrest⟩ := lengthBytes_inj f.fits hfits hbyte hrest
  obtain ⟨hkey, hrest⟩ := keyBytes_inj hmask hrest
  exact ⟨hopcode, hkey, hlength, hrest⟩

theorem payload_eq {f g : Frame} (hkey : f.maskKey = g.maskKey) (h : f.content = g.content) :
    f.payload = g.payload := by
  unfold Frame.content at h
  rw [← hkey] at h
  cases hf : f.maskKey with
  | none =>
    rw [hf] at h
    exact h
  | some key =>
    rw [hf] at h
    have hunmask := congrArg (unmask key.toList) h
    rwa [unmask_unmask, unmask_unmask] at hunmask

theorem encode_inj {f g : Frame} {x y : Bytes} (h : f.encode ++ x = g.encode ++ y) :
    f.opcode = g.opcode ∧ f.payload = g.payload ∧ x = y := by
  unfold Frame.encode at h
  rw [List.append_assoc, List.append_assoc] at h
  obtain ⟨hopcode, hkey, hlength, hrest⟩ := header_inj h
  obtain ⟨hcontent, hrest⟩ := List.append_inj hrest (by
    rw [f.length_content, g.length_content, hlength])
  exact ⟨hopcode, payload_eq hkey hcontent, hrest⟩

theorem noFrame_part {f : Frame} {part rest : Bytes} (h : part ++ rest = f.encode) (hne : rest ≠ []) :
    NoFrame part := by
  rintro g ⟨more, hg⟩
  rw [← hg, List.append_assoc] at h
  have hinj := encode_inj (h.trans (List.append_nil _).symm)
  exact hne (List.append_eq_nil_iff.1 hinj.2.2).2

theorem encode_ne_nil (f : Frame) : f.encode ≠ [] := List.cons_ne_nil _ _

theorem noFrame_nil : NoFrame [] := fun f h => encode_ne_nil f (List.prefix_nil.1 h)

theorem encodeAll_cons (f : Frame) (fs : List Frame) : encodeAll (f :: fs) = f.encode ++ encodeAll fs :=
  rfl

theorem encodeAll_snoc (fs : List Frame) (f : Frame) :
    encodeAll (fs ++ [f]) = encodeAll fs ++ f.encode := by
  unfold encodeAll
  rw [List.map_append, List.flatten_append, List.map_singleton, List.flatten_singleton]

theorem encodeAll_inj {fs gs : List Frame} {x y : Bytes} (hx : NoFrame x) (hy : NoFrame y)
    (h : encodeAll fs ++ x = encodeAll gs ++ y) :
    fs.map (fun f => (f.opcode, f.payload)) = gs.map (fun f => (f.opcode, f.payload)) ∧ x = y := by
  induction fs generalizing gs with
  | nil =>
    cases gs with
    | nil => exact ⟨rfl, h⟩
    | cons g gs =>
      rw [encodeAll_cons, List.append_assoc] at h
      exact absurd ⟨_, h.symm⟩ (hx g)
  | cons f fs ih =>
    cases gs with
    | nil =>
      rw [encodeAll_cons, List.append_assoc] at h
      exact absurd ⟨_, h⟩ (hy f)
    | cons g gs =>
      rw [encodeAll_cons, encodeAll_cons, List.append_assoc, List.append_assoc] at h
      obtain ⟨hopcode, hpayload, hrest⟩ := encode_inj h
      obtain ⟨hmap, hxy⟩ := ih hrest
      rw [List.map_cons, List.map_cons, hopcode, hpayload, hmap]
      exact ⟨rfl, hxy⟩

end SimpleLink.Http.Frames
