import SimpleLink.Gagent.LocalFrame
import SimpleLink.Lib.Stuffing

/-!
# The link to the MCU

`Linked` is what the MCU and the gateway rely on for a frame that the gateway writes: the
bytes `FF FF` stand only at its head, the rule by which the gateway itself receives gives back every
field, and the answer of the MCU is recognised. The rule drops a `55` behind an `FF`, and a frame in
which something else is behind one. `Linked` holds exactly under `LinkCond`: the in-place stuffing has
room, the matcher reads the bytes it means, and what is not stuffed has no `FF`.
-/

namespace SimpleLink.Gagent

open Lib

/-! ## Moving and stuffing in place -/

theorem byteAt_append_right (a l : List UInt8) (k : Nat) :
    byteAt (a ++ l) (a.length + k) = byteAt l k := by
  unfold byteAt
  rw [List.getD_eq_getElem?_getD, List.getElem?_append_right (Nat.le_add_right _ _),
    Nat.add_sub_cancel_left, List.getD_eq_getElem?_getD]

theorem ntohsAt_htons (pre : List UInt8) (n : UInt16) (post : List UInt8) :
    ntohsAt (pre ++ (htons n ++ post)) pre.length = n := by
  have hhi : byteAt (pre ++ (htons n ++ post)) pre.length = (n >>> 8).toUInt8 :=
    byteAt_append_right pre (htons n ++ post) 0
  have hlo : byteAt (pre ++ (htons n ++ post)) (pre.length + 1) = n.toUInt8 :=
    byteAt_append_right pre (htons n ++ post) 1
  apply UInt16.toNat_inj.1
  rw [ntohsAt, hhi, hlo]
  simp only [UInt16.toNat_add, UInt16.toNat_mul, UInt8.toNat_toUInt16, UInt16.toNat_toUInt8,
    UInt16.toNat_shiftRight]
  have h8 : (8 : UInt16).toNat % 16 = 8 := rfl
  have h256 : (256 : UInt16).toNat = 256 := rfl
  have hn := n.toNat_lt
  rw [h8, h256, Nat.shiftRight_eq_div_pow]
  omega

theorem moveOneByte_some (a l post : List UInt8) (x : UInt8) :
    ∃ z, moveOneByte (a ++ l ++ x :: post) a.length l.length = some (a ++ z :: (l ++ post)) := by
  induction l using List.reverseRecOn generalizing x post with
  | nil => exact ⟨x, by simp [moveOneByte]⟩
  | append_singleton l y ih =>
    have hread : byteAt (a ++ (l ++ [y]) ++ x :: post) (a.length + l.length) = y := by
      rw [List.append_assoc, byteAt_append_right, List.append_assoc]
      exact byteAt_append_right l (y :: x :: post) 0
    have hlen : a.length + l.length + 1 < (a ++ (l ++ [y]) ++ x :: post).length := by
      simp only [List.length_append, List.length_cons, List.length_nil]
      omega
    have hset : (a ++ (l ++ [y]) ++ x :: post).set (a.length + l.length + 1) y =
        a ++ l ++ y :: (y :: post) := by
      rw [List.set_append_right _ _ (by simp; omega)]
      have hz : a.length + l.length + 1 - (a ++ (l ++ [y])).length = 0 := by
        simp only [List.length_append, List.length_singleton]
        omega
      rw [hz]
      simp
    obtain ⟨z, hz⟩ := ih (y :: post) y
    refine ⟨z, ?_⟩
    rw [List.length_append, List.length_singleton, moveOneByte, if_pos hlen, hread, hset, hz]
    simp

theorem moveOneByte_none {buf : List UInt8} {pos n : Nat} (h : buf.length ≤ pos + n + 1) :
    moveOneByte buf pos (n + 1) = none := by
  rw [moveOneByte, if_neg (by omega)]

variable {a d r t : List UInt8}

/-- One round over a byte that is not `FF`. -/
theorem adapterLoop_of_ne {b : UInt8} (hb : b ≠ 0xFF) (n j : Nat) :
    adapterLoop a.length (n + 1) (a ++ d ++ b :: r ++ t) d.length
        (d.length + (b :: r).length) j =
      adapterLoop a.length n (a ++ (d ++ [b]) ++ r ++ t) (d ++ [b]).length
        ((d ++ [b]).length + r.length) j := by
  have hread : byteAt (a ++ d ++ b :: r ++ t) (a.length + d.length) = b := by
    rw [← List.length_append, List.append_assoc]
    exact byteAt_append_right (a ++ d) (b :: r ++ t) 0
  have hlen : d.length + (b :: r).length = (d ++ [b]).length + r.length := by
    simp only [List.length_append, List.length_cons, List.length_nil]
    omega
  have hbuf : a ++ d ++ b :: r ++ t = a ++ (d ++ [b]) ++ r ++ t := by
    simp only [List.append_assoc, List.cons_append, List.nil_append]
  rw [adapterLoop, if_pos (by simp), hread, if_neg hb, hlen, hbuf, List.length_append,
    List.length_singleton]

/-- One round over an `FF`: what follows goes one further, and so does the byte behind the data. -/
theorem adapterLoop_mark (x y : UInt8) (n j : Nat) :
    adapterLoop a.length (n + 1) (a ++ d ++ 0xFF :: r ++ x :: y :: t) d.length
        (d.length + (0xFF :: r).length) j =
      adapterLoop a.length n (a ++ (d ++ [0xFF]) ++ 0x55 :: r ++ x :: t)
        (d ++ [0xFF]).length ((d ++ [0xFF]).length + (0x55 :: r).length) (j + 1) := by
  have hread : byteAt (a ++ d ++ 0xFF :: r ++ x :: y :: t)
      (a.length + d.length) = 0xFF := by
    rw [← List.length_append, List.append_assoc]
    exact byteAt_append_right (a ++ d) (0xFF :: r ++ x :: y :: t) 0
  obtain ⟨z, hz⟩ := moveOneByte_some (a ++ d ++ [0xFF]) (r ++ [x]) t y
  have hmove : moveOneByte (a ++ d ++ 0xFF :: r ++ x :: y :: t)
      (a.length + d.length + 1) (d.length + (0xFF :: r).length - d.length) =
        some (a ++ d ++ [0xFF] ++ z :: (r ++ [x] ++ t)) := by
    rw [← hz]
    simp [Nat.add_assoc]
  have hset : (a ++ d ++ [0xFF] ++ z :: (r ++ [x] ++ t)).set
      (a.length + d.length + 1) 0x55 =
        a ++ (d ++ [0xFF]) ++ 0x55 :: r ++ x :: t := by
    rw [List.set_append_right _ _ (by simp; omega)]
    have h0 : a.length + d.length + 1 - (a ++ d ++ [0xFF]).length = 0 := by
      simp only [List.length_append, List.length_singleton]
      omega
    rw [h0]
    simp
  have hlen : d.length + (0xFF :: r).length + 1 =
      (d ++ [0xFF]).length + ((0x55 : UInt8) :: r).length := by
    simp only [List.length_append, List.length_cons, List.length_nil]
    omega
  rw [adapterLoop, if_pos (by simp), hread, if_pos rfl, hmove]
  simp only [hset]
  rw [hlen, List.length_append, List.length_singleton]

theorem adapterLoop_mark_none (h : t.length ≤ 1) (n j : Nat) :
    adapterLoop a.length (n + 1) (a ++ d ++ 0xFF :: r ++ t) d.length
      (d.length + (0xFF :: r).length) j = none := by
  have hread : byteAt (a ++ d ++ 0xFF :: r ++ t) (a.length + d.length) = 0xFF := by
    rw [← List.length_append, List.append_assoc]
    exact byteAt_append_right (a ++ d) (0xFF :: r ++ t) 0
  have hlen : d.length + (0xFF :: r).length - d.length = r.length + 1 := by
    rw [Nat.add_sub_cancel_left, List.length_cons]
  rw [adapterLoop, if_pos (by simp), hread, if_pos rfl, hlen, moveOneByte_none]
  simp only [List.length_append, List.length_cons]
  omega

theorem adapterLoop_some {n : Nat} (hfuel : 2 * r.length + 1 ≤ n) (j : Nat)
    (hroom : 0xFF ∈ r → r.count 0xFF + 1 ≤ t.length) :
    ∃ t', adapterLoop a.length n (a ++ d ++ r ++ t) d.length
      (d.length + r.length) j =
        some (a ++ d ++ stuff 0xFF 0x55 r ++ t', j + r.count 0xFF) := by
  induction r generalizing n d t j with
  | nil =>
    obtain ⟨n, rfl⟩ := Nat.exists_eq_add_of_lt (Nat.lt_of_lt_of_le Nat.zero_lt_one hfuel)
    exact ⟨t, by simp [adapterLoop, stuff]⟩
  | cons b bs ih =>
    rw [List.length_cons] at hfuel
    obtain ⟨m, rfl⟩ : ∃ m, n = m + 2 := ⟨n - 2, by omega⟩
    by_cases hb : b = 0xFF
    · subst hb
      have hr := hroom List.mem_cons_self
      rw [List.count_cons_self] at hr
      obtain ⟨x, y, t, rfl⟩ : ∃ x y p, t = x :: y :: p := by
        match t, hr with
        | x :: y :: p, _ => exact ⟨x, y, p, rfl⟩
      simp only [List.length_cons] at hr
      obtain ⟨t', hp⟩ := ih (d := d ++ [0xFF] ++ [0x55]) (t := x :: t) (n := m)
        (by omega) (j + 1) fun _ => by simp only [List.length_cons]; omega
      refine ⟨t', ?_⟩
      rw [adapterLoop_mark, adapterLoop_of_ne (by decide), hp, stuff_cons_mark,
        List.count_cons_self, Nat.add_assoc, Nat.add_comm 1]
      simp only [List.append_assoc, List.cons_append, List.nil_append]
    · obtain ⟨t', hp⟩ := ih (d := d ++ [b]) (t := t) (n := m + 1)
        (by omega) j fun hm => by
          have := hroom (List.mem_cons_of_mem _ hm)
          rwa [List.count_cons_of_ne hb] at this
      refine ⟨t', ?_⟩
      rw [adapterLoop_of_ne hb, hp, stuff_cons_of_ne hb, List.count_cons_of_ne hb]
      simp only [List.append_assoc, List.cons_append, List.nil_append]

theorem adapterLoop_none {n : Nat} (hfuel : 2 * r.length + 1 ≤ n) (j : Nat)
    (hmem : 0xFF ∈ r) (hroom : t.length ≤ r.count 0xFF) :
    adapterLoop a.length n (a ++ d ++ r ++ t) d.length
      (d.length + r.length) j = none := by
  induction r generalizing n d t j with
  | nil => cases hmem
  | cons b bs ih =>
    rw [List.length_cons] at hfuel
    obtain ⟨m, rfl⟩ : ∃ m, n = m + 2 := ⟨n - 2, by omega⟩
    by_cases hb : b = 0xFF
    · subst hb
      rw [List.count_cons_self] at hroom
      match t, hroom with
      | [], _ => exact adapterLoop_mark_none (t := []) (Nat.zero_le 1) _ _
      | [x], _ => exact adapterLoop_mark_none (t := [x]) (Nat.le_refl 1) _ _
      | x :: y :: p, hroom =>
        simp only [List.length_cons] at hroom
        have hmem' : 0xFF ∈ bs := List.count_pos_iff.1 (by omega)
        have hnone := ih (d := d ++ [0xFF] ++ [0x55]) (t := x :: p) (n := m)
          (by omega) (j + 1) hmem' (by simp only [List.length_cons]; omega)
        rw [adapterLoop_mark, adapterLoop_of_ne (by decide), hnone]
    · have hm : 0xFF ∈ bs := (List.mem_cons.1 hmem).resolve_left fun h => hb h.symm
      rw [List.count_cons_of_ne hb] at hroom
      rw [adapterLoop_of_ne hb, ih (by omega) j hm hroom]

/-! ## The frame -/

def plainFrame (cmd sn : UInt8) (payload : List UInt8) : List UInt8 :=
  withCheckSum ([MCU_HDR_FF, MCU_HDR_FF] ++ htons (payload.length + 5).toUInt16 ++
    [cmd, sn, 0, 0] ++ payload)

def frameBody (cmd sn : UInt8) (payload : List UInt8) : List UInt8 := (plainFrame cmd sn payload).drop 2

def Packet.payload (p : Packet) : List UInt8 := p.slice p.ppayload (p.pend - p.ppayload)

/-- A packet of the gateway, with a payload in it and room for a header in front. -/
structure Packet.Outgoing (p : Packet) : Prop where
  head : MCU_HDR_LEN ≤ p.ppayload
  order : p.ppayload ≤ p.pend
  inside : p.pend ≤ p.allbuf.length
  size : p.allbuf.length ≤ BUF_HEADLEN + BUF_LEN

/-- The packet in its parts: what is in front of the header, where the header goes, the payload,
and what is behind. -/
theorem Packet.Outgoing.parts {p : Packet} (h : p.Outgoing) :
    ∃ pre head post, head.length = 8 ∧ p.ppayload = pre.length + 8 ∧
      p.allbuf = pre ++ (head ++ (p.payload ++ post)) ∧
      p.pend = pre.length + 8 + p.payload.length ∧
      p.allbuf.length = p.pend + post.length := by
  obtain ⟨allbuf, phead, ppayload, pend⟩ := p
  obtain ⟨hhead, horder, hinside, -⟩ := h
  simp only [MCU_HDR_LEN] at hhead horder hinside
  have hpay : (Packet.payload ⟨allbuf, phead, ppayload, pend⟩).length = pend - ppayload := by
    simp only [Packet.payload, Packet.slice, List.length_take, List.length_drop]
    omega
  refine ⟨allbuf.take (ppayload - 8), (allbuf.drop (ppayload - 8)).take 8, allbuf.drop pend,
    ?_, ?_, ?_, ?_, ?_⟩
  · simp only [List.length_take, List.length_drop]
    omega
  · simp only [List.length_take]
    omega
  · have h8 : (allbuf.drop (ppayload - 8)).drop 8 = allbuf.drop ppayload := by
      rw [List.drop_drop]
      congr 1
      omega
    have hp : (allbuf.drop ppayload).drop (pend - ppayload) = allbuf.drop pend := by
      rw [List.drop_drop]
      congr 1
      omega
    simp only [Packet.payload, Packet.slice]
    rw [← hp, List.take_append_drop, ← h8, List.take_append_drop, List.take_append_drop]
  · simp only [List.length_take, hpay]
    omega
  · simp only [List.length_drop]
    omega

theorem Packet.put_behind {p : Packet} {mid bytes : List UInt8} {pos : Nat} (k : Nat)
    (h : p.allbuf = pre ++ mid) (hpos : pos = pre.length + k) (hk : k + bytes.length ≤ mid.length) :
    p.put pos bytes = some { p with allbuf := pre ++ overwrite mid k bytes } := by
  rw [put, if_pos (by rw [h, hpos, List.length_append]; omega), h, hpos, overwrite_append_right]

theorem frameBody_eq (cmd sn : UInt8) (payload : List UInt8) :
    plainFrame cmd sn payload = [0xFF, 0xFF] ++ frameBody cmd sn payload := rfl

theorem length_frameBody (cmd sn : UInt8) (payload : List UInt8) :
    (frameBody cmd sn payload).length = payload.length + 7 := by
  simp [frameBody, plainFrame, withCheckSum, htons]

theorem setCheckSum_append (l post : List UInt8) : setCheckSum (l ++ post) l.length =
    setCheckSum l l.length := by
  rw [setCheckSum, setCheckSum, List.take_left, List.take_length]

theorem localDataWriteP0_eq {p : Packet} (hp : p.Outgoing) (cmd sn : UInt8) :
    ∃ pre rest : List UInt8, pre.length + 8 = p.ppayload ∧ p.allbuf.length = p.pend + rest.length ∧
      localDataWriteP0 p cmd sn = match rest with
        | [] => none
        | _ :: post =>
          (localDataAdapter (pre ++ [0xFF, 0xFF] ++ frameBody cmd sn p.payload ++ post)
              (pre.length + 2) (p.payload.length + 7)).map fun r =>
            ({ p with phead := pre.length, pend := p.pend + 1, allbuf := r.1 },
              (r.1.drop pre.length).take r.2.toUInt16.toNat) := by
  obtain ⟨pre, head, post, hhead, hpp, hall, hpend, hlen⟩ := hp.parts
  refine ⟨pre, post, hpp.symm, hlen, ?_⟩
  obtain ⟨a0, a1, a2, a3, a4, a5, a6, a7, rfl⟩ : ∃ a0 a1 a2 a3 a4 a5 a6 a7,
      head = [a0, a1, a2, a3, a4, a5, a6, a7] := by
    match head, hhead with
    | [a0, a1, a2, a3, a4, a5, a6, a7], _ => exact ⟨a0, a1, a2, a3, a4, a5, a6, a7, rfl⟩
  generalize p.payload = payload at *
  obtain ⟨allbuf, phead, ppayload, pend⟩ := p
  simp only at hpp hall hpend
  subst hpp hall hpend
  have hdata : UInt16.ofInt (((pre.length + 8 + payload.length : Nat) : Int) -
      (pre.length + 8 : Nat) + 5) = (payload.length + 5).toUInt16 := by
    have hcast : ((pre.length + 8 + payload.length : Nat) : Int) - (pre.length + 8 : Nat) + 5 =
        ((payload.length + 5 : Nat) : Int) := by omega
    rw [hcast, uint16_ofInt_natCast]
  have hput : ∀ {mid bytes : List UInt8} {pos : Nat} (k : Nat), pos = pre.length + k →
      k + bytes.length ≤ mid.length →
      Packet.put ⟨pre ++ mid, pre.length, pre.length + 8, pre.length + 8 + payload.length⟩ pos
        bytes = some ⟨pre ++ overwrite mid k bytes, pre.length, pre.length + 8,
          pre.length + 8 + payload.length⟩ :=
    fun k hpos hk => Packet.put_behind k rfl hpos hk
  have hn : ¬ pre.length + 8 < MCU_HDR_LEN := by
    rw [MCU_HDR_LEN]
    omega
  rw [localDataWriteP0, if_neg hn]
  simp only [MCU_HDR_LEN, Nat.add_sub_cancel]
  rw [hput 0 (Nat.add_zero _).symm (by simp)]
  simp only [Option.bind_eq_bind, Option.bind_some]
  rw [hput 2 rfl (by simp [overwrite, htons])]
  simp only [Option.bind_some]
  rw [hput 4 rfl (by simp [overwrite, htons])]
  simp only [Option.bind_some]
  rw [hput 5 rfl (by simp [overwrite, htons])]
  simp only [Option.bind_some]
  rw [hput 6 rfl (by simp [overwrite, htons])]
  simp only [Option.bind_some]
  have hheader : overwrite (overwrite (overwrite (overwrite (overwrite
      ([a0, a1, a2, a3, a4, a5, a6, a7] ++ (payload ++ post)) 0 [MCU_HDR_FF, MCU_HDR_FF]) 2
      (htons (payload.length + 5).toUInt16)) 4 [cmd]) 5 [sn]) 6 (htons 0) =
        ([MCU_HDR_FF, MCU_HDR_FF] ++ htons (payload.length + 5).toUInt16 ++ [cmd, sn, 0, 0] ++
          payload) ++ post := by
    simp [overwrite, htons]
  rw [hdata, hheader]
  generalize hfront : [MCU_HDR_FF, MCU_HDR_FF] ++ htons (payload.length + 5).toUInt16 ++
    [cmd, sn, 0, 0] ++ payload = front
  have hfl : front.length = 8 + payload.length := by
    rw [← hfront]
    simp [htons]
    omega
  have hchk : setCheckSum ((pre ++ (front ++ post)).drop pre.length)
      (pre.length + 8 + payload.length - pre.length) = setCheckSum front front.length := by
    rw [List.drop_left, ← setCheckSum_append front post, hfl]
    congr 1
    omega
  rw [hchk]
  cases post with
  | nil =>
    rw [Packet.put, if_neg]
    · rfl
    · simp only [List.length_append, List.length_nil, List.length_singleton, hfl]
      omega
  | cons x post =>
    have hbody : frameBody cmd sn payload = (front ++ [setCheckSum front front.length]).drop 2 := by
      rw [frameBody, plainFrame, withCheckSum, hfront]
    have hpos : pre.length + 8 + payload.length = pre.length + front.length := by omega
    have hchk' : overwrite (front ++ x :: post) front.length [setCheckSum front front.length] =
        front ++ [setCheckSum front front.length] ++ post := by
      rw [← Nat.add_zero front.length, overwrite_append_right]
      simp [overwrite]
    have htwo : [0xFF, 0xFF] ++ frameBody cmd sn payload =
        front ++ [setCheckSum front front.length] := by
      rw [hbody, ← hfront]
      rfl
    have hlen' : pre.length + 8 + payload.length + 1 - (pre.length + 2) = payload.length + 7 := by
      omega
    have hall' : pre ++ (front ++ [setCheckSum front front.length] ++ post) =
        pre ++ [0xFF, 0xFF] ++ frameBody cmd sn payload ++ post := by
      rw [← htwo]
      simp only [List.append_assoc]
    rw [hput front.length hpos (by simp), hchk', hall']
    simp only [Option.bind_some, hlen', Packet.slice]
    cases localDataAdapter (pre ++ [0xFF, 0xFF] ++ frameBody cmd sn payload ++ post)
      (pre.length + 2) (payload.length + 7) with
    | none => rfl
    | some r => rfl

/-- The stuffed frame, and the byte behind it that the stuffing moves along, are inside the
packet. -/
def Packet.Room (p : Packet) (cmd sn : UInt8) : Prop :=
  let n := (frameBody cmd sn p.payload).count 0xFF
  p.pend + 1 ≤ p.allbuf.length ∧ (n ≠ 0 → p.pend + n + 2 ≤ p.allbuf.length)

theorem localDataWriteP0_sent {p : Packet} (hp : p.Outgoing) {cmd sn : UInt8} (h : p.Room cmd sn) :
    ∃ p', localDataWriteP0 p cmd sn =
      some (p', [0xFF, 0xFF] ++ stuff 0xFF 0x55 (frameBody cmd sn p.payload)) := by
  obtain ⟨pre, rest, hpre, hlen, heq⟩ := localDataWriteP0_eq hp cmd sn
  obtain ⟨hone, hmore⟩ := h
  obtain ⟨x, post, rfl⟩ := List.exists_cons_of_length_pos (l := rest) (by omega)
  rw [List.length_cons] at hlen
  have hbody := length_frameBody cmd sn p.payload
  have hcount : (frameBody cmd sn p.payload).count 0xFF ≤ post.length := by
    by_cases h0 : (frameBody cmd sn p.payload).count 0xFF = 0
    · omega
    · have := hmore h0
      omega
  obtain ⟨t, ht⟩ := adapterLoop_some (a := pre ++ [0xFF, 0xFF]) (d := []) (t := post)
    (r := frameBody cmd sn p.payload) (Nat.le_refl _) 0 fun hm => by
      have := hmore (Nat.pos_iff_ne_zero.1 (List.count_pos_iff.2 hm))
      omega
  have hadapt : localDataAdapter (pre ++ [0xFF, 0xFF] ++ frameBody cmd sn p.payload ++ post)
      (pre.length + 2) (p.payload.length + 7) =
        some (pre ++ ([0xFF, 0xFF] ++ stuff 0xFF 0x55 (frameBody cmd sn p.payload)) ++ t,
          ([0xFF, 0xFF] ++ stuff 0xFF 0x55 (frameBody cmd sn p.payload)).length) := by
    simp only [List.append_nil, List.length_nil, Nat.zero_add, List.length_append,
      List.length_cons] at ht
    rw [localDataAdapter, ← hbody, ht, Option.map_some, List.length_append, length_stuff,
      Nat.add_assoc, List.append_assoc pre]
    rfl
  have hsize : ([0xFF, 0xFF] ++ stuff 0xFF 0x55 (frameBody cmd sn p.payload)).length < 2 ^ 16 := by
    have hsz := hp.size
    have hord := hp.order
    have hpay : p.payload.length ≤ p.pend - p.ppayload := List.length_take_le _ _
    rw [List.length_append, length_stuff, hbody]
    simp only [List.length_cons, List.length_nil, BUF_HEADLEN, BUF_LEN] at hsz ⊢
    omega
  rw [heq]
  dsimp only
  rw [hadapt, Option.map_some, List.append_assoc, List.drop_left, Nat.toUInt16,
    UInt16.toNat_ofNat_of_lt' hsize, List.take_left]
  exact ⟨_, rfl⟩

theorem localDataWriteP0_none {p : Packet} (hp : p.Outgoing) {cmd sn : UInt8}
    (h : ¬ p.Room cmd sn) : localDataWriteP0 p cmd sn = none := by
  obtain ⟨pre, rest, hpre, hlen, heq⟩ := localDataWriteP0_eq hp cmd sn
  rw [heq]
  cases rest with
  | nil => rfl
  | cons x post =>
    rw [List.length_cons] at hlen
    have hn : ¬ ((frameBody cmd sn p.payload).count 0xFF ≠ 0 →
        p.pend + (frameBody cmd sn p.payload).count 0xFF + 2 ≤ p.allbuf.length) :=
      fun hm => h ⟨by omega, hm⟩
    obtain ⟨h0, hle⟩ := Classical.not_imp.1 hn
    have hnone := adapterLoop_none (a := pre ++ [0xFF, 0xFF]) (d := []) (t := post)
      (r := frameBody cmd sn p.payload) (Nat.le_refl _) 0
      (List.count_pos_iff.1 (Nat.pos_iff_ne_zero.2 h0)) (by omega)
    simp only [List.append_nil, List.length_nil, Nat.zero_add, List.length_append,
      List.length_cons] at hnone
    dsimp only
    rw [localDataAdapter, ← length_frameBody cmd sn p.payload, hnone]
    rfl

/-! ## The receive rule -/

/-- The loop of `get_last_pack_head_pos`, over the places before `n`. -/
def lastHead (buf : List UInt8) : Nat → Option Nat
  | 0 => none
  | n + 1 => if byteAt buf n = 0xFF ∧ byteAt buf (n + 1) = 0xFF then some n else lastHead buf n

/-- `get_last_pack_head_pos`; `pos_check` is the end of what has been looked through. -/
def getLastPackHeadPos (checked : List UInt8) : Option Nat := lastHead checked (checked.length - 1)

/-- The length that a pack says. -/
def packLen (buf : List UInt8) : Nat := (byteAt buf 2).toNat * 256 + (byteAt buf 3).toNat

/-- The loop of `hal_ReceivepOnePack` that looks through what was read: what it leaves in the buffer.
An `FF` that no `55` follows begins a pack; the one before it is taken out unless it is whole and the
new one has a head. -/
def checkRead (checked : List UInt8) : List UInt8 → List UInt8
  | [] => checked
  | [b] => checked ++ [b]
  | b :: c :: rest =>
    if b ≠ 0xFF then checkRead (checked ++ [b]) (c :: rest)
    else if c = 0x55 then checkRead (checked ++ [b]) rest
    else
      match getLastPackHeadPos checked with
      | none => checkRead (checked ++ [b]) (c :: rest)
      | some head =>
        let pack := checked.drop head
        if c = 0xFF ∧ 4 ≤ pack.length ∧ packLen pack + 4 = pack.length then
          checkRead (checked ++ [b]) (c :: rest)
        else checkRead (checked.take head ++ [b]) (c :: rest)

/-- The end of `hal_ReceivepOnePack`: the pack behind the first head, once it is there. -/
def takePack (bufSize : Nat) : List UInt8 → Option (List UInt8)
  | [] => none
  | b :: bs =>
    let buf := b :: bs
    if buf.length < 4 then none
    else if byteAt buf 0 = 0xFF ∧ byteAt buf 1 = 0xFF ∧ packLen buf + 4 < bufSize then
      if packLen buf + 4 ≤ buf.length then some (buf.take (packLen buf + 4)) else none
    else takePack bufSize bs

/-- `hal_ReceivepOnePack`, of a buffer of `bufSize` bytes that was empty. -/
def halReceivepOnePack (bufSize : Nat) (read : List UInt8) : Option (List UInt8) :=
  takePack bufSize (checkRead [] read)

/-! ## What the two sides rely on -/

structure LocalFields where
  cmd : UInt8
  sn : UInt8
  flags : UInt16
  payload : List UInt8
  checksum : UInt8
  deriving DecidableEq

/-- The fields of a frame whose length is the one it says. -/
def parseLocal : List UInt8 → Option LocalFields
  | a :: b :: hi :: lo :: cmd :: sn :: f1 :: f0 :: p :: ps =>
    if a = MCU_HDR_FF ∧ b = MCU_HDR_FF ∧ hi.toNat * 256 + lo.toNat = 5 + ps.length then
      some ⟨cmd, sn, f1.toUInt16 * 256 + f0.toUInt16, (p :: ps).dropLast, (p :: ps).getLast nofun⟩
    else none
  | _ => none

/-- What the gateway writes to the MCU. -/
inductive LocalWrite where
  | p0 (p : Packet) (h : p.Outgoing) (cmd sn : UInt8)
  | ack (sn cmd : UInt8)
  | illegal (sn : UInt8) (flag : McuError)
  | info

def LocalWrite.written : LocalWrite → Option (List UInt8)
  | .p0 p _ cmd sn => (localDataWriteP0 p cmd sn).map Prod.snd
  | .ack sn cmd => some (localAck2MCU sn cmd)
  | .illegal sn flag => some (localAck2MCUIllegal sn flag)
  | .info => some getMcuInfoBuf

def LocalWrite.cmd : LocalWrite → UInt8
  | .p0 _ _ cmd _ => cmd
  | .ack _ cmd => cmd
  | .illegal _ _ => MCU_DATA_ILLEGAL
  | .info => 0x01

def LocalWrite.sn : LocalWrite → UInt8
  | .p0 _ _ _ sn => sn
  | .ack sn _ => sn
  | .illegal sn _ => sn
  | .info => 0x01

def LocalWrite.payload : LocalWrite → List UInt8
  | .p0 p _ _ _ => p.payload
  | .ack _ _ => []
  | .illegal _ flag => [flag.byte]
  | .info => []

def LocalWrite.asks : LocalWrite → Bool
  | .p0 _ _ _ _ => true
  | .ack _ _ => false
  | .illegal _ _ => false
  | .info => true

/-- The head is the only `FF FF`, and whoever receives as the gateway does, with room for the frame,
gets the fields that were to be written. -/
def Transparent (w : LocalWrite) (frame : List UInt8) : Prop :=
  (∃ body, frame = 0xFF :: 0xFF :: body ∧ Apart 0xFF (0xFF :: body)) ∧
    ∀ bufSize, frame.length < bufSize → (halReceivepOnePack bufSize frame).bind parseLocal =
      some ⟨w.cmd, w.sn, 0, w.payload,
        setCheckSum (plainFrame w.cmd w.sn w.payload) (w.payload.length + 8)⟩

/-- The frame is taken for the answer to what was sent in `buf`. -/
def accepts (buf rx : List UInt8) : Prop := gAgentCheckAck buf [⟨some rx, 0⟩] 0 1 = some true

def Received (rx : List UInt8) : Prop := rx ≠ [] ∧ localDataValidityCheck rx = none

/-- The frame carries the answer command and the sequence number. -/
def Answers (w : LocalWrite) (rx : List UInt8) : Prop :=
  byteAt rx MCU_CMD_POS = w.cmd + 1 ∧ byteAt rx MCU_SN_POS = w.sn

/-- What is written is read back, and its answer is recognised. -/
def Linked (w : LocalWrite) : Prop :=
  ∃ frame, w.written = some frame ∧ Transparent w frame ∧
    (w.asks = true → ∀ rx, Received rx → (accepts frame rx ↔ Answers w rx))

/-- A payload is stuffed in place, and its length must not end in `FF` if there is an answer to wait
for. The acknowledgements are not stuffed. -/
def LinkCond : LocalWrite → Prop
  | .p0 p _ cmd sn =>
    p.Room cmd sn ∧ ((p.payload.length + 5) % 256 = 255 → isMcuCmd (cmd + 1) = false)
  | .ack sn cmd => cmd ≠ 0xFF ∧ sn ≠ 0xFF
  | .illegal sn _ => sn ≠ 0xFF
  | .info => True

/-! ## Reading back -/

theorem toNat_hi {n : Nat} (h : n < 2 ^ 16) : (n.toUInt16 >>> 8).toUInt8.toNat = n / 256 := by
  simp only [Nat.toUInt16, UInt16.toNat_toUInt8, UInt16.toNat_shiftRight,
    UInt16.toNat_ofNat_of_lt' h]
  have h8 : (8 : UInt16).toNat % 16 = 8 := rfl
  rw [h8, Nat.shiftRight_eq_div_pow]
  omega

theorem toNat_lo (n : Nat) : n.toUInt16.toUInt8.toNat = n % 256 := by
  simp only [Nat.toUInt16, UInt16.toNat_toUInt8, UInt16.toNat_ofNat']
  omega

variable {cmd sn : UInt8} {payload : List UInt8}

theorem frameBody_cons (cmd sn : UInt8) (payload : List UInt8) :
    ∃ chk, frameBody cmd sn payload =
        ((payload.length + 5).toUInt16 >>> 8).toUInt8 :: (payload.length + 5).toUInt16.toUInt8 ::
          cmd :: sn :: 0 :: 0 :: (payload ++ [chk]) ∧
      chk = setCheckSum (plainFrame cmd sn payload) (payload.length + 8) := by
  refine ⟨_, rfl, ?_⟩
  have hlen : ([MCU_HDR_FF, MCU_HDR_FF] ++ htons (payload.length + 5).toUInt16 ++
      [cmd, sn, 0, 0] ++ payload).length = payload.length + 8 := by
    simp [htons]
  rw [plainFrame, withCheckSum, ← hlen, setCheckSum_append]

theorem parseLocal_plainFrame (h : payload.length + 5 < 2 ^ 16) :
    parseLocal (plainFrame cmd sn payload) = some ⟨cmd, sn, 0, payload,
      setCheckSum (plainFrame cmd sn payload) (payload.length + 8)⟩ := by
  obtain ⟨chk, hbody, hchk⟩ := frameBody_cons cmd sn payload
  rw [← hchk, frameBody_eq, hbody]
  have hhi := toNat_hi h
  have hlo := toNat_lo (payload.length + 5)
  generalize ((payload.length + 5).toUInt16 >>> 8).toUInt8 = hi at *
  generalize (payload.length + 5).toUInt16.toUInt8 = lo at *
  have hsum : hi.toNat * 256 + lo.toNat = payload.length + 5 := by omega
  cases payload with
  | nil => exact if_pos ⟨rfl, rfl, hsum⟩
  | cons b bs =>
    have hps : hi.toNat * 256 + lo.toNat = 5 + (bs ++ [chk]).length := by
      rw [hsum, List.length_append, List.length_cons, List.length_singleton]
      omega
    have hdrop : (b :: (bs ++ [chk])).dropLast = b :: bs := by
      rw [← List.cons_append]
      exact List.dropLast_concat
    refine (if_pos ⟨rfl, rfl, hps⟩).trans ?_
    simp [hdrop]

theorem checkRead_of_ne {b : UInt8} (hb : b ≠ 0xFF) (checked rest : List UInt8) :
    checkRead checked (b :: rest) = checkRead (checked ++ [b]) rest := by
  cases rest with
  | nil => rfl
  | cons c rest => rw [checkRead, if_pos hb]

/-- What was stuffed is read back. -/
theorem checkRead_stuff (l : List UInt8) :
    ∀ checked, checkRead checked (stuff 0xFF 0x55 l) = checked ++ l := by
  induction l with
  | nil => exact fun checked => (List.append_nil checked).symm
  | cons b l ih =>
    intro checked
    by_cases hb : b = 0xFF
    · subst hb
      rw [stuff_cons_mark, checkRead, if_neg (not_not_intro rfl), if_pos rfl, ih, List.append_assoc]
      rfl
    · rw [stuff_cons_of_ne hb, checkRead_of_ne hb, ih, List.append_assoc]
      rfl

theorem checkRead_head {rest : List UInt8} (h : rest.head? ≠ some 0x55) :
    checkRead [] (0xFF :: 0xFF :: rest) = checkRead [0xFF, 0xFF] rest := by
  have hne : ¬ (0xFF : UInt8) = 0x55 := by decide
  rw [checkRead, if_neg (not_not_intro rfl), if_neg hne]
  cases rest with
  | nil => rfl
  | cons c rest =>
    have hc : ¬ c = 0x55 := fun hc => h (congrArg some hc)
    show checkRead [0xFF] (0xFF :: c :: rest) = _
    rw [checkRead, if_neg (not_not_intro rfl), if_neg hc]
    rfl

theorem length_plainFrame (cmd sn : UInt8) (payload : List UInt8) :
    (plainFrame cmd sn payload).length = payload.length + 9 := by
  rw [frameBody_eq, List.length_append, length_frameBody]
  exact Nat.add_comm 2 _

theorem takePack_plainFrame {bufSize : Nat} (h : payload.length + 5 < 2 ^ 16)
    (hsize : payload.length + 9 < bufSize) :
    takePack bufSize (plainFrame cmd sn payload) = some (plainFrame cmd sn payload) := by
  have hbytes : ∃ rest, plainFrame cmd sn payload =
      (0xFF : UInt8) :: 0xFF :: ((payload.length + 5).toUInt16 >>> 8).toUInt8 ::
        (payload.length + 5).toUInt16.toUInt8 :: rest := by
    obtain ⟨chk, hbody, -⟩ := frameBody_cons cmd sn payload
    refine ⟨cmd :: sn :: 0 :: 0 :: (payload ++ [chk]), ?_⟩
    rw [frameBody_eq, hbody]
    rfl
  obtain ⟨rest, hframe⟩ := hbytes
  have hlen : packLen (plainFrame cmd sn payload) = payload.length + 5 := by
    rw [hframe]
    show (((payload.length + 5).toUInt16 >>> 8).toUInt8).toNat * 256 +
      ((payload.length + 5).toUInt16.toUInt8).toNat = _
    rw [toNat_hi h, toNat_lo]
    omega
  have htotal := length_plainFrame cmd sn payload
  have hhead : byteAt (plainFrame cmd sn payload) 0 = 0xFF ∧
      byteAt (plainFrame cmd sn payload) 1 = 0xFF := by
    rw [hframe]
    exact ⟨rfl, rfl⟩
  generalize plainFrame cmd sn payload = frame at *
  cases frame with
  | nil => cases hframe
  | cons b bs =>
    rw [takePack, if_neg (by omega), if_pos ⟨hhead.1, hhead.2, by omega⟩, if_pos (by omega),
      List.take_of_length_le (by omega)]

theorem transparent_stuffed {w : LocalWrite} (h : w.payload.length + 5 < 0x5500) :
    Transparent w ([0xFF, 0xFF] ++ stuff 0xFF 0x55 (frameBody w.cmd w.sn w.payload)) := by
  obtain ⟨chk, hbody, -⟩ := frameBody_cons w.cmd w.sn w.payload
  have hhi := toNat_hi (n := w.payload.length + 5) (by omega)
  have hne : ((w.payload.length + 5).toUInt16 >>> 8).toUInt8 ≠ 0xFF := by
    intro he
    rw [he] at hhi
    have : (0xFF : UInt8).toNat = 255 := rfl
    omega
  have hne' : ((w.payload.length + 5).toUInt16 >>> 8).toUInt8 ≠ 0x55 := by
    intro he
    rw [he] at hhi
    have : (0x55 : UInt8).toNat = 85 := rfl
    omega
  refine ⟨⟨_, rfl, apart_cons_stuff (by decide) ?_⟩, ?_⟩
  · rw [hbody]
    exact fun he => hne (Option.some.inj he)
  · intro bufSize hsize
    have hhead : (stuff 0xFF 0x55 (frameBody w.cmd w.sn w.payload)).head? ≠ some 0x55 := by
      rw [hbody, stuff_cons_of_ne hne]
      exact fun he => hne' (Option.some.inj he)
    have hlen := length_frameBody w.cmd w.sn w.payload
    simp only [List.length_append, length_stuff, List.length_cons, List.length_nil] at hsize
    have hplain : checkRead [] ([0xFF, 0xFF] ++ stuff 0xFF 0x55 (frameBody w.cmd w.sn w.payload)) =
        plainFrame w.cmd w.sn w.payload := by
      rw [List.cons_append, List.cons_append, List.nil_append, checkRead_head hhead, checkRead_stuff,
        frameBody_eq]
    rw [halReceivepOnePack, hplain, takePack_plainFrame (by omega) (by omega), Option.bind_some,
      parseLocal_plainFrame (by omega)]

/-! ## Recognising the answer -/

theorem accepts_iff {buf rx : List UInt8} (h : Received rx) : accepts buf rx ↔
    (byteAt rx 4).toNat = (byteAt buf 4).toNat + 1 ∧ byteAt buf 5 = byteAt rx 5 := by
  have hpacket : Poll.packet ⟨some rx, 0⟩ = some rx := if_pos h
  have hsum : setCheckSum rx (rx.length - 1) = byteAt rx (rx.length - 1) := by
    have hnone := h.2
    rw [localDataValidityCheck] at hnone
    split at hnone
    · cases hnone
    split at hnone
    · cases hnone
    · rename_i hs
      exact not_not.1 hs
  rw [accepts, gAgentCheckAck, hpacket]
  dsimp only
  by_cases hm : (byteAt rx 4).toNat = (byteAt buf 4).toNat + 1 ∧ byteAt buf 5 = byteAt rx 5
  · rw [if_pos hm, hsum]
    exact iff_of_true (by simp) hm
  · rw [if_neg hm]
    exact iff_of_false nofun hm

theorem Received.isMcuCmd {rx : List UInt8} (h : Received rx) :
    isMcuCmd (byteAt rx MCU_CMD_POS) = true := by
  have hnone := h.2
  rw [localDataValidityCheck] at hnone
  split at hnone
  · cases hnone
  split at hnone
  · cases hnone
  split at hnone
  · assumption
  · cases hnone

theorem received_plainFrame (h : isMcuCmd cmd = true) : Received (plainFrame cmd sn []) := by
  refine ⟨nofun, ?_⟩
  have hsum : setCheckSum (plainFrame cmd sn []) ((plainFrame cmd sn []).length - 1) =
      byteAt (plainFrame cmd sn []) ((plainFrame cmd sn []).length - 1) :=
    rfl
  have hcmd : byteAt (plainFrame cmd sn []) MCU_CMD_POS = cmd := rfl
  rw [localDataValidityCheck, if_neg (by rintro (h' | h') <;> exact h' rfl),
    if_neg (not_not_intro hsum), hcmd, if_pos h]

theorem add_one_toNat {x y : UInt8} : x.toNat = y.toNat + 1 ↔ x = y + 1 ∧ y ≠ 0xFF := by
  rw [← UInt8.toNat_inj, UInt8.toNat_add, Ne, ← UInt8.toNat_inj]
  have hx := x.toNat_lt
  have hy := y.toNat_lt
  have h1 : (1 : UInt8).toNat = 1 := rfl
  have hf : (0xFF : UInt8).toNat = 255 := rfl
  omega

/-- The two bytes of a stuffed frame that the matcher reads, and whether they are those it
means. -/
theorem matched_bytes (cmd sn : UInt8) (payload : List UInt8)
    (h : payload.length + 5 < 0xFF00) :
    let frame := [0xFF, 0xFF] ++ stuff 0xFF 0x55 (frameBody cmd sn payload)
    if (payload.length + 5) % 256 = 255 then byteAt frame 4 = 0x55
    else byteAt frame 4 = cmd ∧ (cmd ≠ 0xFF → byteAt frame 5 = sn) := by
  obtain ⟨chk, hbody, -⟩ := frameBody_cons cmd sn payload
  have hhi := toNat_hi (n := payload.length + 5) (by omega)
  have hlo := toNat_lo (payload.length + 5)
  rw [hbody]
  generalize ((payload.length + 5).toUInt16 >>> 8).toUInt8 = hi at *
  generalize (payload.length + 5).toUInt16.toUInt8 = lo at *
  have hf : (0xFF : UInt8).toNat = 255 := rfl
  have hne : hi ≠ 0xFF := by
    rintro rfl
    omega
  rw [stuff_cons_of_ne hne]
  have hhead : ∀ (x : UInt8) (l : List UInt8), byteAt (stuff 0xFF 0x55 (x :: l)) 0 = x := by
    intro x l
    by_cases hx : x = 0xFF
    · rw [hx, stuff_cons_mark]
      rfl
    · rw [stuff_cons_of_ne hx]
      rfl
  by_cases hl : lo = 0xFF
  · rw [if_pos (by rw [← hlo, hl]; rfl), hl, stuff_cons_mark]
    rfl
  · have hmod : ¬ (payload.length + 5) % 256 = 255 := fun he => by
      rw [← hlo, ← hf] at he
      exact hl (UInt8.toNat_inj.1 he)
    rw [if_neg hmod, stuff_cons_of_ne hl]
    refine ⟨hhead cmd _, fun hcmd => ?_⟩
    rw [stuff_cons_of_ne hcmd]
    exact hhead sn _

/-- Where the length of the frame ends in `FF`, the matcher looks for the answer to the stuffed byte. -/
theorem not_accepts_of_length (cmd sn : UInt8) (payload : List UInt8)
    (h : payload.length + 5 < 0xFF00) (hl : (payload.length + 5) % 256 = 255) {rx : List UInt8}
    (hrx : Received rx) :
    ¬ accepts ([0xFF, 0xFF] ++ stuff 0xFF 0x55 (frameBody cmd sn payload)) rx := by
  have hbytes := matched_bytes cmd sn payload h
  dsimp only at hbytes
  rw [if_pos hl] at hbytes
  intro hacc
  have h4 := ((accepts_iff hrx).1 hacc).1
  rw [hbytes, add_one_toNat] at h4
  have hcmd := hrx.isMcuCmd
  rw [MCU_CMD_POS, h4.1] at hcmd
  revert hcmd
  decide

/-- The answer to a frame with payload is recognised, unless its length ends in `FF`. -/
theorem matches_p0 (cmd sn : UInt8) {p : Packet} (hp : p.Outgoing)
    (h : p.payload.length + 5 < 0x5500) :
    (∀ rx, Received rx → (accepts ([0xFF, 0xFF] ++ stuff 0xFF 0x55 (frameBody cmd sn p.payload)) rx ↔
      Answers (.p0 p hp cmd sn) rx)) ↔
    ((p.payload.length + 5) % 256 = 255 → isMcuCmd (cmd + 1) = false) := by
  have hbytes := matched_bytes cmd sn p.payload (by omega)
  have hno (hl : (p.payload.length + 5) % 256 = 255) (rx : List UInt8) (hrx : Received rx) :=
    not_accepts_of_length cmd sn p.payload (by omega) hl hrx
  generalize [0xFF, 0xFF] ++ stuff 0xFF 0x55 (frameBody cmd sn p.payload) = frame at *
  dsimp only at hbytes
  by_cases hl : (p.payload.length + 5) % 256 = 255
  · rw [if_pos hl] at hbytes
    replace hno := hno hl
    constructor
    · intro hall _
      by_contra hmcu
      have hrx : Received (plainFrame (cmd + 1) sn []) :=
        received_plainFrame (Bool.not_eq_false _ ▸ hmcu)
      exact hno _ hrx ((hall _ hrx).2 ⟨rfl, rfl⟩)
    · intro hmcu rx hrx
      refine iff_of_false (hno rx hrx) fun hans => ?_
      have hcmd := hrx.isMcuCmd
      rw [hans.1] at hcmd
      exact Bool.noConfusion ((hmcu hl).symm.trans hcmd)
  · rw [if_neg hl] at hbytes
    refine iff_of_true (fun rx hrx => ?_) fun hl' => absurd hl' hl
    rw [accepts_iff hrx, hbytes.1, add_one_toNat]
    by_cases hcmd : cmd = 0xFF
    · refine iff_of_false (fun h => h.1.2 hcmd) fun hans => ?_
      have hmcu := hrx.isMcuCmd
      rw [hans.1] at hmcu
      subst hcmd
      have hzero : ¬ isMcuCmd (0xFF + 1) = true := by decide
      exact absurd hmcu hzero
    · rw [hbytes.2 hcmd]
      exact ⟨fun h => ⟨h.1.1, h.2.symm⟩, fun h => ⟨⟨h.1, hcmd⟩, h.2.symm⟩⟩

/-! ## Acknowledgements -/

theorem localAck2MCU_eq (sn cmd : UInt8) : localAck2MCU sn cmd = plainFrame cmd sn [] := rfl

theorem localAck2MCUIllegal_eq (sn : UInt8) (flag : McuError) :
    localAck2MCUIllegal sn flag = plainFrame MCU_DATA_ILLEGAL sn [flag.byte] := rfl

theorem transparent_plain {w : LocalWrite} (hlen : w.payload.length + 5 < 2 ^ 16)
    (happ : Apart 0xFF (0xFF :: frameBody w.cmd w.sn w.payload))
    (hread : checkRead [] (plainFrame w.cmd w.sn w.payload) = plainFrame w.cmd w.sn w.payload) :
    Transparent w (plainFrame w.cmd w.sn w.payload) := by
  refine ⟨⟨_, rfl, happ⟩, fun bufSize hsize => ?_⟩
  rw [length_plainFrame] at hsize
  rw [halReceivepOnePack, hread, takePack_plainFrame hlen hsize, Option.bind_some,
    parseLocal_plainFrame hlen]

theorem ackFrame_eq (cmd sn : UInt8) :
    ∃ chk, plainFrame cmd sn [] = [0xFF, 0xFF, 0, 5, cmd, sn, 0, 0, chk] := by
  obtain ⟨chk, hbody, -⟩ := frameBody_cons cmd sn []
  have hcons : frameBody cmd sn [] = [0, 5, cmd, sn, 0, 0, chk] := hbody
  refine ⟨chk, ?_⟩
  rw [frameBody_eq, hcons]
  rfl

/-- An `FF` in an acknowledgement: it is taken for the beginning of another pack. -/
theorem ack_dropped {chk : UInt8} (hff : cmd = 0xFF ∧ sn ≠ 0xFF ∨ cmd ≠ 0xFF ∧ sn = 0xFF) :
    halReceivepOnePack 10 [0xFF, 0xFF, 0, 5, cmd, sn, 0, 0, chk] = none := by
  rcases hff with ⟨rfl, hsn⟩ | ⟨hcmd, rfl⟩
  · by_cases h55 : sn = 0x55
    · subst h55
      simp [halReceivepOnePack, checkRead, getLastPackHeadPos, lastHead, takePack, packLen, byteAt]
    · simp [halReceivepOnePack, checkRead, getLastPackHeadPos, lastHead, takePack, byteAt, hsn, h55]
  · simp [halReceivepOnePack, checkRead, getLastPackHeadPos, lastHead, takePack, byteAt, hcmd]

theorem transparent_ack : Transparent (.ack sn cmd) (localAck2MCU sn cmd) ↔
    cmd ≠ 0xFF ∧ sn ≠ 0xFF := by
  obtain ⟨chk, hframe⟩ := ackFrame_eq cmd sn
  constructor
  · rintro ⟨⟨body, hb, happ⟩, hread⟩
    have hread := hread 10 (by rw [localAck2MCU_eq, hframe]; simp)
    rw [localAck2MCU_eq, hframe] at hb hread
    obtain rfl : [0, 5, cmd, sn, 0, 0, chk] = body :=
      List.tail_eq_of_cons_eq (List.tail_eq_of_cons_eq hb)
    have hnot : ¬ (cmd = 0xFF ∧ sn ≠ 0xFF ∨ cmd ≠ 0xFF ∧ sn = 0xFF) := by
      intro hff
      rw [ack_dropped hff] at hread
      cases hread
    have hboth : ¬ (cmd = 0xFF ∧ sn = 0xFF) := by
      rintro ⟨rfl, rfl⟩
      revert happ
      simp [Apart]
    tauto
  · rintro ⟨hcmd, hsn⟩
    rw [localAck2MCU_eq]
    refine transparent_plain (w := .ack sn cmd) (show 0 + 5 < 2 ^ 16 by decide) ?_ ?_
    · show Apart 0xFF ((plainFrame cmd sn []).drop 1)
      rw [hframe]
      simp [Apart, hcmd]
    · show checkRead [] (plainFrame cmd sn []) = plainFrame cmd sn []
      rw [hframe]
      simp [checkRead, getLastPackHeadPos, lastHead, hcmd, hsn]

theorem transparent_illegal (sn : UInt8) (flag : McuError) :
    Transparent (.illegal sn flag) (localAck2MCUIllegal sn flag) ↔ sn ≠ 0xFF := by
  obtain ⟨chk, hbody, -⟩ := frameBody_cons MCU_DATA_ILLEGAL sn [flag.byte]
  have hcons : frameBody MCU_DATA_ILLEGAL sn [flag.byte] =
      [0, 6, 0x11, sn, 0, 0, flag.byte, chk] := by
    rw [hbody, List.length_singleton]
    rfl
  have hframe : plainFrame MCU_DATA_ILLEGAL sn [flag.byte] =
      [0xFF, 0xFF, 0, 6, 0x11, sn, 0, 0, flag.byte, chk] := by
    rw [frameBody_eq, hcons]
    rfl
  have hflag : flag.byte ≠ 0xFF := by cases flag <;> decide
  rw [localAck2MCUIllegal_eq]
  constructor
  · rintro ⟨-, hread⟩ rfl
    have hread := hread 11 (by rw [hframe]; simp)
    have hnone : halReceivepOnePack 11
        [0xFF, 0xFF, 0, 6, 0x11, 0xFF, 0, 0, flag.byte, chk] = none := by
      simp [halReceivepOnePack, checkRead, getLastPackHeadPos, lastHead, takePack, byteAt, hflag]
    rw [hframe, hnone] at hread
    cases hread
  · intro hsn
    refine transparent_plain (w := .illegal sn flag) (show 1 + 5 < 2 ^ 16 by decide) ?_ ?_
    · show Apart 0xFF (0xFF :: frameBody MCU_DATA_ILLEGAL sn [flag.byte])
      rw [hcons]
      simp [Apart, hflag]
    · show checkRead [] (plainFrame MCU_DATA_ILLEGAL sn [flag.byte]) =
        plainFrame MCU_DATA_ILLEGAL sn [flag.byte]
      rw [hframe]
      simp [checkRead, getLastPackHeadPos, lastHead, hsn, hflag]

theorem linked_info : Linked .info := by
  refine ⟨_, rfl, ?_, fun _ rx hrx => ?_⟩
  · obtain ⟨chk, hframe⟩ := ackFrame_eq 1 1
    have hinfo : getMcuInfoBuf = plainFrame 1 1 [] := by decide
    rw [hinfo]
    refine transparent_plain (w := .info) (show 0 + 5 < 2 ^ 16 by decide) (by decide) (by decide)
  · rw [accepts_iff hrx]
    show _ ↔ byteAt rx 4 = 1 + 1 ∧ byteAt rx 5 = 1
    have h4 : byteAt getMcuInfoBuf 4 = 1 := rfl
    have h5 : byteAt getMcuInfoBuf 5 = 1 := rfl
    rw [h4, h5, add_one_toNat]
    exact ⟨fun h => ⟨h.1.1, h.2.symm⟩, fun h => ⟨⟨h.1, by decide⟩, h.2.symm⟩⟩

theorem Packet.Outgoing.length_payload_lt {p : Packet} (hp : p.Outgoing) :
    p.payload.length + 5 < 0x5500 := by
  have hsz := hp.size
  have hin := hp.inside
  have hpay : p.payload.length ≤ p.pend - p.ppayload := List.length_take_le _ _
  simp only [BUF_HEADLEN, BUF_LEN] at hsz
  omega

def longPacket : Packet := ⟨List.replicate 4224 0, 128, 128, 378⟩

theorem longPacket_outgoing : longPacket.Outgoing where
  head := by decide
  order := by decide
  inside := by
    show 378 ≤ (List.replicate 4224 (0 : UInt8)).length
    rw [List.length_replicate]
    decide
  size := by
    show (List.replicate 4224 (0 : UInt8)).length ≤ BUF_HEADLEN + BUF_LEN
    rw [List.length_replicate]
    decide

end SimpleLink.Gagent
