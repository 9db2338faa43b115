import SimpleLink.HttpCli.Request
import SimpleLink.Lib.Run

/-!
# Receiving through the buffer of the client (`httpcli.c`, `ssock.c`)

`bufferedRecv` in the two builds, with `__SLP__` and without. What the socket still has to deliver is a
stream; how much of it each call of `recv` gives is given call by call.
-/

namespace SimpleLink.HttpCli

open Lib

abbrev HTTPCli_ERECVFAIL : Int := -104
abbrev Ssock_TIMEOUT : Int := -11

/-! ## The socket -/

/-- What a call of `recv` does: no data comes in time, it fails, or it gives no more than `n` bytes. -/
inductive Answer where
  | timeout
  | fail (error : Nat)
  | gives (n : Nat)

/-- Where no more answers are given `recv` gives what it is asked for. -/
structure RecvSock where
  stream : Bytes
  answers : List Answer

structure Recv where
  ret : Int
  bytes : Bytes
  sock : RecvSock

/-- The bytes of a receive, which are taken from the stream unless it is with `MSG_PEEK`. -/
def RecvSock.give (s : RecvSock) (peek : Bool) (n : Nat) (answers : List Answer) : Recv where
  ret := (s.stream.take n).length
  bytes := s.stream.take n
  sock := ⟨if peek then s.stream else s.stream.drop n, answers⟩

/-- `Ssock_recv`. -/
def ssockRecv (peek : Bool) (len : Nat) (s : RecvSock) : Recv :=
  match s.answers with
  | [] => s.give peek len []
  | .timeout :: answers => ⟨Ssock_TIMEOUT, [], { s with answers := answers }⟩
  | .fail error :: answers => ⟨-(error + 1), [], { s with answers := answers }⟩
  | .gives n :: answers => s.give peek (min len n) answers

/-! ## The buffer -/

/-- The buffer of the client, and the socket. `bufptr` is how far it is behind `buf`. -/
structure Receiver where
  buf : Bytes
  bufptr : Nat
  buflen : Nat
  sock : RecvSock

def Receiver.pending (c : Receiver) : Bytes := (c.buf.drop c.bufptr).take c.buflen

/-- What a call leaves, what it returns, and the memory of the caller's buffer. -/
structure Result where
  cli : Receiver
  ret : Int
  dst : Bytes

def Receiver.serve (c : Receiver) (len : Nat) (dst : Bytes) : Result :=
  ⟨{ c with buflen := c.buflen - len, bufptr := c.bufptr + len }, len,
    overwrite dst 0 ((c.buf.drop c.bufptr).take len)⟩

/-- So many bytes have been received into the buffer behind the first `pos`. -/
def Receiver.filled (c : Receiver) (pos : Nat) (r : Recv) : Receiver :=
  { c with buf := overwrite c.buf pos r.bytes, sock := r.sock }

/-! ### Without `__SLP__` -/

/-- The buffer has less than is asked for: the rest is received into the caller's memory. -/
def Receiver.serveRest (c : Receiver) (len : Nat) (dst : Bytes) : Result :=
  let dst := overwrite dst 0 c.pending
  let r := ssockRecv false (len - c.buflen) c.sock
  if 0 ≤ r.ret then
    ⟨{ c with buflen := 0, sock := r.sock }, r.ret + c.buflen, overwrite dst c.buflen r.bytes⟩
  else ⟨{ c with sock := r.sock }, r.ret, dst⟩

def Receiver.serveLong (c : Receiver) (len : Nat) (dst : Bytes) : Result :=
  let r := ssockRecv false len c.sock
  ⟨{ c with sock := r.sock }, r.ret, overwrite dst 0 r.bytes⟩

/-- The first receive into an empty buffer, with `MSG_DONTWAIT`. -/
def Receiver.fill (c : Receiver) : Receiver × Int :=
  let r := ssockRecv false HTTPCli_BUF_LEN c.sock
  let c := c.filled 0 r
  (if 0 < r.ret then { c with bufptr := 0, buflen := r.ret.toNat } else c, r.ret)

/-- The second one, behind the first `numRead` bytes. -/
def Receiver.fillMore (c : Receiver) (numRead len : Nat) : Receiver × Int :=
  let r := ssockRecv false (len - numRead) c.sock
  let c := c.filled numRead r
  (if 0 < r.ret then { c with buflen := c.buflen + r.ret.toNat } else c, r.ret)

def Receiver.handOver (c : Receiver) (len : Nat) (dst : Bytes) (numRead : Int) : Result :=
  if 0 ≤ numRead then
    let len := min len c.buflen
    ⟨{ c with buflen := c.buflen - len, bufptr := c.bufptr + len }, len,
      overwrite dst 0 (c.buf.take len)⟩
  else ⟨c, numRead, dst⟩

def Receiver.serveShort (c : Receiver) (len : Nat) (dst : Bytes) : Result :=
  let (c, numRead) := c.fill
  if numRead = Ssock_TIMEOUT ∨ 0 ≤ numRead ∧ numRead < len then
    let (c, numRead) := c.fillMore (if numRead = Ssock_TIMEOUT then 0 else numRead.toNat) len
    c.handOver len dst numRead
  else c.handOver len dst numRead

/-- `bufferedRecv` without `__SLP__`, up to the last test. -/
def Receiver.recvPlain (c : Receiver) (len : Nat) (dst : Bytes) : Result :=
  if 0 < c.buflen then
    if c.buflen < len then c.serveRest len dst else c.serve len dst
  else if HTTPCli_BUF_LEN < len then c.serveLong len dst
  else c.serveShort len dst

/-! ### With `__SLP__` -/

def Receiver.peekFill (c : Receiver) : Receiver × Int :=
  let r := ssockRecv true HTTPCli_BUF_LEN c.sock
  let c := c.filled 0 r
  if 0 < r.ret then
    let r := ssockRecv false r.ret.toNat c.sock
    (c.filled 0 r, r.ret)
  else (c, r.ret)

/-- There is still not enough: what there is goes into the buffer. The caller's memory is that behind the
bytes that were in the buffer. -/
def Receiver.keep (c : Receiver) (numRead : Nat) (dst : Bytes) : Result :=
  if 0 < c.buflen then
    let dst := overwrite dst c.buflen (c.buf.take numRead)
    let buflen := c.buflen + numRead
    ⟨{ c with
      buf := overwrite c.buf 0 ((dst.drop c.buflen).take buflen)
      bufptr := 0
      buflen := buflen }, HTTPCli_EINPROGRESS, dst⟩
  else ⟨{ c with bufptr := 0, buflen := numRead }, HTTPCli_EINPROGRESS, dst⟩

def Receiver.complete (c : Receiver) (numRead len : Nat) (dst : Bytes) : Result :=
  ⟨{ c with bufptr := len - c.buflen, buflen := numRead - (len - c.buflen) }, len,
    overwrite dst c.buflen (c.buf.take (len - c.buflen))⟩

/-- `bufferedRecv` with `__SLP__`, up to the last test. -/
def Receiver.recvSlp (c : Receiver) (len : Nat) (dst : Bytes) : Result :=
  if HTTPCli_BUF_LEN < len then ⟨c, HTTPCli_EINTERNALBUFSMALL, dst⟩
  else if c.buflen < len then
    let dst := overwrite dst 0 c.pending
    let (c, numRead) := c.peekFill
    if 0 ≤ numRead then
      if numRead < len - c.buflen then c.keep numRead.toNat dst
      else c.complete numRead.toNat len dst
    else if numRead = Ssock_TIMEOUT then ⟨c, HTTPCli_EINPROGRESS, dst⟩
    else ⟨c, HTTPCli_ERECVFAIL, dst⟩
  else c.serve len dst

/-- `bufferedRecv`. -/
def Receiver.bufferedRecv (slp : Bool) (c : Receiver) (len : Nat) (dst : Bytes) : Result :=
  let r := if slp then c.recvSlp len dst else c.recvPlain len dst
  if r.ret = Ssock_TIMEOUT then { r with ret := HTTPCli_ERECVFAIL } else r

/-! ## Receives -/

/-- The receive fails and takes nothing. -/
structure Recv.Failed (r : Recv) (s : RecvSock) : Prop where
  ret : r.ret < 0
  bytes : r.bytes = []
  stream : r.sock.stream = s.stream

/-- The receive gives the next bytes of the stream. -/
structure Recv.Took (r : Recv) (len : Nat) (s : RecvSock) : Prop where
  ret : r.ret = r.bytes.length
  length : r.bytes.length ≤ len
  stream : r.bytes ++ r.sock.stream = s.stream

theorem give_took {s : RecvSock} {n len : Nat} (hn : n ≤ len) (answers : List Answer) :
    (s.give false n answers).Took len s where
  ret := rfl
  length := Nat.le_trans (List.length_take_le ..) hn
  stream := List.take_append_drop ..

theorem ssockRecv_cases (len : Nat) (s : RecvSock) :
    (ssockRecv false len s).Failed s ∨ (ssockRecv false len s).Took len s := by
  unfold ssockRecv
  split
  · exact .inr (give_took (Nat.le_refl len) [])
  · exact .inl ⟨by show Ssock_TIMEOUT < 0; decide, rfl, rfl⟩
  · rename_i error _ _
    refine .inl ⟨?_, rfl, rfl⟩
    show -((error : Int) + 1) < 0
    omega
  · exact .inr (give_took (Nat.min_le_left ..) _)

/-- Looking at what is there takes nothing. -/
structure Recv.Looked (r : Recv) (len : Nat) (s : RecvSock) : Prop where
  stream : r.sock.stream = s.stream
  length : r.bytes.length ≤ len
  ret : r.ret ≤ len
  bytes : r.ret ≤ 0 → r.bytes = []

theorem give_looked {s : RecvSock} {n len : Nat} (hn : n ≤ len) (answers : List Answer) :
    (s.give true n answers).Looked len s := by
  have hlen : (s.stream.take n).length ≤ len := Nat.le_trans (List.length_take_le ..) hn
  refine ⟨rfl, hlen, Int.ofNat_le.2 hlen, fun hret => ?_⟩
  have hlen : (((s.stream.take n).length : Nat) : Int) ≤ 0 := hret
  exact List.length_eq_zero_iff.1 (show (s.stream.take n).length = 0 by omega)

theorem ssockRecv_peek (len : Nat) (s : RecvSock) : (ssockRecv true len s).Looked len s := by
  unfold ssockRecv
  split
  · exact give_looked (Nat.le_refl len) []
  · refine ⟨rfl, Nat.zero_le _, ?_, fun _ => rfl⟩
    show Ssock_TIMEOUT ≤ (len : Int)
    unfold Ssock_TIMEOUT
    omega
  · rename_i error _ _
    refine ⟨rfl, Nat.zero_le _, ?_, fun _ => rfl⟩
    show -((error : Int) + 1) ≤ len
    omega
  · exact give_looked (Nat.min_le_left ..) _

/-! ## One call -/

/-- The buffer is there, and what is still in it lies within it. -/
structure Receiver.Ok (c : Receiver) : Prop where
  size : c.buf.length = HTTPCli_BUF_LEN
  range : 0 < c.buflen → c.bufptr + c.buflen ≤ HTTPCli_BUF_LEN

def Receiver.left (c : Receiver) : Bytes := c.pending ++ c.sock.stream

/-- A call that succeeds stores the next bytes and says how many; one that fails loses none. -/
structure Serves (c : Receiver) (len : Nat) (dst : Bytes) (r : Result) : Prop where
  ok : r.cli.Ok
  stores : ∃ bytes, bytes.length ≤ len ∧ r.dst = overwrite dst 0 bytes ∧
    (0 ≤ r.ret → r.ret = bytes.length ∧ bytes ++ r.cli.left = c.left)
  keeps : r.ret < 0 → r.cli.left = c.left

theorem Serves.of_success {c : Receiver} {len : Nat} {dst : Bytes} {r : Result} (hok : r.cli.Ok)
    (bytes : Bytes) (hlen : bytes.length ≤ len) (hdst : r.dst = overwrite dst 0 bytes)
    (hret : r.ret = bytes.length) (hleft : bytes ++ r.cli.left = c.left) : Serves c len dst r where
  ok := hok
  stores := ⟨bytes, hlen, hdst, fun _ => ⟨hret, hleft⟩⟩
  keeps hneg := by omega

theorem Serves.of_failure {c : Receiver} {len : Nat} {dst : Bytes} {r : Result} (hok : r.cli.Ok)
    (bytes : Bytes) (hlen : bytes.length ≤ len) (hdst : r.dst = overwrite dst 0 bytes)
    (hret : r.ret < 0) (hleft : r.cli.left = c.left) : Serves c len dst r where
  ok := hok
  stores := ⟨bytes, hlen, hdst, fun h => absurd hret (Int.not_lt.2 h)⟩
  keeps _ := hleft

section Call

variable {c : Receiver} (hc : c.Ok) {len : Nat} (dst : Bytes)

include hc

theorem Receiver.Ok.length_pending : c.pending.length = c.buflen := by
  have hrange := hc.range
  have hsize := hc.size
  unfold pending
  rw [List.length_take, List.length_drop, hsize]
  omega

theorem Receiver.serve_serves (hlen : len ≤ c.buflen) : Serves c len dst (c.serve len dst) := by
  have hrange := hc.range
  have hsize := hc.size
  refine .of_success ⟨hsize, ?_⟩ ((c.buf.drop c.bufptr).take len) ?_ rfl ?_ ?_
  · show 0 < c.buflen - len → c.bufptr + len + (c.buflen - len) ≤ HTTPCli_BUF_LEN
    omega
  · exact List.length_take_le ..
  · show (len : Int) = _
    rw [List.length_take, List.length_drop, hsize]
    omega
  · have hsum : len + (c.buflen - len) = c.buflen := by omega
    show (c.buf.drop c.bufptr).take len ++ (((c.buf.drop (c.bufptr + len)).take (c.buflen - len)) ++
      c.sock.stream) = _
    rw [← List.append_assoc, ← List.drop_drop, ← List.take_add, hsum]
    rfl

theorem Receiver.serveRest_serves (hlen : c.buflen < len) :
    Serves c len dst (c.serveRest len dst) := by
  have hpending := hc.length_pending
  unfold serveRest
  dsimp only
  rcases ssockRecv_cases (len - c.buflen) c.sock with h | h
  · rw [if_neg (Int.not_le.2 h.ret)]
    refine .of_failure ⟨hc.size, hc.range⟩ c.pending (by omega) rfl h.ret ?_
    show c.pending ++ _ = c.pending ++ _
    rw [h.stream]
  · have hbytes := h.length
    rw [if_pos (by rw [h.ret]; omega)]
    refine .of_success ⟨hc.size, fun h => absurd h (Nat.lt_irrefl 0)⟩
      (c.pending ++ (ssockRecv false (len - c.buflen) c.sock).bytes) ?_ ?_ ?_ ?_
    · rw [List.length_append]
      omega
    · show overwrite (overwrite dst 0 c.pending) c.buflen _ = _
      rw [← hpending]
      exact overwrite_zero_overwrite ..
    · show (ssockRecv false (len - c.buflen) c.sock).ret + (c.buflen : Int) = _
      rw [h.ret, List.length_append]
      omega
    · show _ ++ ((c.buf.drop c.bufptr).take 0 ++ _) = _
      rw [List.take_zero, List.nil_append, List.append_assoc, h.stream]
      rfl

theorem Receiver.serveLong_serves (hzero : c.buflen = 0) : Serves c len dst (c.serveLong len dst) := by
  have hpending : c.pending = [] := List.length_eq_zero_iff.1 (hc.length_pending.trans hzero)
  unfold serveLong
  dsimp only
  rcases ssockRecv_cases len c.sock with h | h
  · refine .of_failure ⟨hc.size, hc.range⟩ [] (Nat.zero_le _) ?_ h.ret ?_
    · show overwrite dst 0 _ = _
      rw [h.bytes]
    · show c.pending ++ _ = c.pending ++ _
      rw [h.stream]
  · refine .of_success ⟨hc.size, hc.range⟩ (ssockRecv false len c.sock).bytes h.length rfl h.ret ?_
    show _ ++ (c.pending ++ _) = c.pending ++ _
    rw [hpending, List.nil_append, List.nil_append, h.stream]

end Call

/-! ### An empty buffer -/

/-- What is at the front of the buffer, and then what the socket delivers. -/
def Receiver.front (c : Receiver) : Bytes := c.buf.take c.buflen ++ c.sock.stream

theorem Receiver.handOver_serves {c c' : Receiver} {len : Nat} (dst : Bytes) {numRead : Int}
    (hsize : c'.buf.length = HTTPCli_BUF_LEN) (hbuflen : c'.buflen ≤ HTTPCli_BUF_LEN)
    (hptr : c'.bufptr = 0 ∨ c'.buflen ≤ len) (hfront : 0 ≤ numRead → c'.front = c.left)
    (hok : numRead < 0 → c'.Ok ∧ c'.left = c.left) : Serves c len dst (c'.handOver len dst numRead) := by
  unfold handOver
  by_cases hneg : 0 ≤ numRead
  · rw [if_pos hneg]
    have hlen : (c'.buf.take (min len c'.buflen)).length = min len c'.buflen := by
      rw [List.length_take, hsize]
      omega
    refine .of_success ⟨hsize, ?_⟩ (c'.buf.take (min len c'.buflen)) (by omega) rfl ?_ ?_
    · show 0 < c'.buflen - min len c'.buflen →
        c'.bufptr + min len c'.buflen + (c'.buflen - min len c'.buflen) ≤ HTTPCli_BUF_LEN
      omega
    · rw [hlen]
    · have hsum : min len c'.buflen + (c'.buflen - min len c'.buflen) = c'.buflen := by omega
      have hdrop : (c'.buf.drop (c'.bufptr + min len c'.buflen)).take (c'.buflen - min len c'.buflen) =
          (c'.buf.drop (min len c'.buflen)).take (c'.buflen - min len c'.buflen) := by
        rcases hptr with hptr | hptr
        · rw [hptr, Nat.zero_add]
        · rw [Nat.min_eq_right hptr, Nat.sub_self, List.take_zero, List.take_zero]
      rw [← hfront hneg]
      show _ ++ ((c'.buf.drop (c'.bufptr + min len c'.buflen)).take (c'.buflen - min len c'.buflen) ++
        c'.sock.stream) = _
      rw [hdrop, ← List.append_assoc, ← List.take_add, hsum]
      rfl
  · rw [if_neg hneg]
    have hneg := Int.not_le.1 hneg
    exact .of_failure (hok hneg).1 [] (Nat.zero_le _) (overwrite_nil dst 0).symm hneg (hok hneg).2

/-- What a receive into an empty buffer leaves. -/
structure Filled (c c' : Receiver) (numRead : Int) : Prop where
  size : c'.buf.length = HTTPCli_BUF_LEN
  ptr : c'.bufptr = 0 ∨ c'.buflen = 0
  buflen : 0 ≤ numRead ∧ numRead = c'.buflen ∨ numRead < 0 ∧ c'.buflen = 0
  bound : c'.buflen ≤ HTTPCli_BUF_LEN
  front : c'.front = c.left

theorem Filled.left {c c' : Receiver} {numRead : Int} (h : Filled c c' numRead) :
    c'.Ok ∧ c'.left = c.left := by
  have hbound := h.bound
  refine ⟨⟨h.size, ?_⟩, ?_⟩
  · rcases h.ptr with hptr | hzero <;> omega
  · rw [← h.front]
    unfold Receiver.left Receiver.front Receiver.pending
    rcases h.ptr with hptr | hzero
    · rw [hptr, List.drop_zero]
    · rw [hzero, List.take_zero, List.take_zero]

section Empty

variable {c : Receiver} (hc : c.Ok) (hzero : c.buflen = 0)

include hc hzero

theorem Receiver.left_empty : c.left = c.sock.stream := by
  have hpending : c.pending = [] := List.length_eq_zero_iff.1 (hc.length_pending.trans hzero)
  rw [left, hpending, List.nil_append]

theorem Receiver.fill_filled : Filled c c.fill.1 c.fill.2 := by
  have hleft := left_empty hc hzero
  have hsize := hc.size
  unfold fill
  dsimp only
  rcases ssockRecv_cases HTTPCli_BUF_LEN c.sock with h | h
  · rw [if_neg (Int.not_lt.2 (Int.le_of_lt h.ret)), filled, h.bytes, overwrite_nil]
    refine ⟨hsize, .inr hzero, .inr ⟨h.ret, hzero⟩, ?_, ?_⟩
    · exact Nat.le_trans (Nat.le_of_eq hzero) (Nat.zero_le _)
    · rw [hleft, ← h.stream, front]
      dsimp only
      rw [hzero, List.take_zero, List.nil_append]
  · have hbytes := h.length
    have hret := h.ret
    have hlen : (overwrite c.buf 0 (ssockRecv false HTTPCli_BUF_LEN c.sock).bytes).length =
        HTTPCli_BUF_LEN := by
      rw [length_overwrite (by omega), hsize]
    by_cases hpos : 0 < (ssockRecv false HTTPCli_BUF_LEN c.sock).ret
    · have hnat : (ssockRecv false HTTPCli_BUF_LEN c.sock).ret.toNat =
          (ssockRecv false HTTPCli_BUF_LEN c.sock).bytes.length := by omega
      rw [if_pos hpos, hnat]
      refine ⟨hlen, .inl rfl, .inl ⟨Int.le_of_lt hpos, hret⟩, hbytes, ?_⟩
      rw [hleft, ← h.stream, front, filled]
      dsimp only
      rw [take_overwrite_zero]
    · rw [if_neg hpos]
      have hnil : (ssockRecv false HTTPCli_BUF_LEN c.sock).bytes = [] :=
        List.length_eq_zero_iff.1 (by omega)
      refine ⟨hlen, .inr hzero, .inl ⟨by omega, ?_⟩, ?_, ?_⟩
      · show _ = ((c.buflen : Nat) : Int)
        omega
      · exact Nat.le_trans (Nat.le_of_eq hzero) (Nat.zero_le _)
      · rw [hleft, ← h.stream, hnil, front, filled]
        dsimp only
        rw [hzero, List.take_zero]

end Empty

theorem Receiver.fillMore_serves {c c' : Receiver} {len : Nat} (dst : Bytes) {numRead : Int}
    (h : Filled c c' numRead) (hle : c'.buflen ≤ len) (hlen : len ≤ HTTPCli_BUF_LEN) :
    Serves c len dst ((c'.fillMore c'.buflen len).1.handOver len dst (c'.fillMore c'.buflen len).2) := by
  have hsize := h.size
  have hbound := h.bound
  unfold fillMore
  dsimp only
  have hr := ssockRecv_cases (len - c'.buflen) c'.sock
  generalize ssockRecv false (len - c'.buflen) c'.sock = r at hr ⊢
  rcases hr with hr | hr
  · have hkeep : c'.filled c'.buflen r = { c' with sock := r.sock } := by
      rw [filled, hr.bytes, overwrite_nil]
    rw [if_neg (Int.not_lt.2 (Int.le_of_lt hr.ret)), hkeep]
    refine handOver_serves dst hsize hbound (.inr hle) (fun hpos => ?_) fun _ =>
      ⟨⟨hsize, h.left.1.range⟩, ?_⟩
    · exact absurd hr.ret (Int.not_lt.2 hpos)
    · rw [← h.left.2]
      show c'.pending ++ _ = c'.pending ++ _
      rw [hr.stream]
  · have hbytes := hr.length
    have hret := hr.ret
    have hin : c'.buflen + r.bytes.length ≤ c'.buf.length := by omega
    have hmore : (if 0 < r.ret then
        { c'.filled c'.buflen r with buflen := c'.buflen + r.ret.toNat } else c'.filled c'.buflen r) =
        { c'.filled c'.buflen r with buflen := c'.buflen + r.bytes.length } := by
      split
      · rw [show r.ret.toNat = r.bytes.length by omega]
      · rw [show r.bytes.length = 0 by omega]
        rfl
    have hmore' : (if 0 < r.ret then
        { c'.filled c'.buflen r with buflen := (c'.filled c'.buflen r).buflen + r.ret.toNat }
        else c'.filled c'.buflen r) = _ := hmore
    rw [hmore']
    refine handOver_serves dst ?_ ?_ (.inr ?_) (fun _ => ?_) fun hneg => ?_
    · exact (length_overwrite hin).trans hsize
    · show c'.buflen + r.bytes.length ≤ HTTPCli_BUF_LEN
      omega
    · show c'.buflen + r.bytes.length ≤ len
      omega
    · rw [← h.front]
      show (overwrite c'.buf c'.buflen r.bytes).take (c'.buflen + r.bytes.length) ++ r.sock.stream = _
      rw [take_overwrite (by omega), List.append_assoc, hr.stream]
      rfl
    · exact absurd hneg (by omega)

theorem Receiver.serveShort_serves {c : Receiver} (hc : c.Ok) (hzero : c.buflen = 0) {len : Nat}
    (dst : Bytes) (hlen : len ≤ HTTPCli_BUF_LEN) : Serves c len dst (c.serveShort len dst) := by
  have h := fill_filled hc hzero
  unfold serveShort
  generalize c.fill = r at h ⊢
  obtain ⟨c', numRead⟩ := r
  have hbuflen := h.buflen
  dsimp only at h hbuflen ⊢
  by_cases hmore : numRead = Ssock_TIMEOUT ∨ 0 ≤ numRead ∧ numRead < len
  · have htimeout : Ssock_TIMEOUT < 0 := by decide
    have hnum : (if numRead = Ssock_TIMEOUT then 0 else numRead.toNat) = c'.buflen := by
      split <;> omega
    rw [if_pos hmore, hnum]
    exact fillMore_serves dst h (by omega) hlen
  · rw [if_neg hmore]
    exact handOver_serves dst h.size h.bound (h.ptr.imp_right fun h => by omega) (fun _ => h.front)
      fun _ => h.left

/-- Without `__SLP__` every call serves. -/
theorem Receiver.recvPlain_serves {c : Receiver} (hc : c.Ok) (len : Nat) (dst : Bytes) :
    Serves c len dst (c.recvPlain len dst) := by
  unfold recvPlain
  split
  · split
    · exact serveRest_serves hc dst ‹_›
    · exact serve_serves hc dst (Nat.not_lt.1 ‹_›)
  · rename_i hpos
    have hzero : c.buflen = 0 := Nat.eq_zero_of_not_pos hpos
    split
    · exact serveLong_serves hc dst hzero
    · exact serveShort_serves hc hzero dst (Nat.not_lt.1 ‹_›)

/-! ### Looking first -/

/-- A request for more than the buffer has: what is there completes it, or looking at it fails. -/
def Receiver.Clean (c : Receiver) (len : Nat) : Prop :=
  0 < c.buflen → c.buflen < len → len ≤ HTTPCli_BUF_LEN →
    (len : Int) ≤ c.buflen + c.peekFill.2 ∨ (ssockRecv true HTTPCli_BUF_LEN c.sock).ret < 0

/-- What looking and taking leaves. -/
structure Peeked (c c' : Receiver) (numRead : Int) : Prop where
  size : c'.buf.length = HTTPCli_BUF_LEN
  ptr : c'.bufptr = c.bufptr
  buflen : c'.buflen = c.buflen
  bound : numRead ≤ HTTPCli_BUF_LEN
  front : 0 ≤ numRead → c'.buf.take numRead.toNat ++ c'.sock.stream = c.sock.stream
  fails : numRead < 0 → c'.sock.stream = c.sock.stream

theorem Receiver.peekFill_peeked {c : Receiver} (hc : c.Ok) :
    Peeked c c.peekFill.1 c.peekFill.2 ∧
      ((ssockRecv true HTTPCli_BUF_LEN c.sock).ret < 0 →
        c.peekFill.2 < 0 ∧ c.peekFill.1.buf = c.buf) := by
  have hsize := hc.size
  unfold peekFill
  dsimp only
  have hp := ssockRecv_peek HTTPCli_BUF_LEN c.sock
  generalize ssockRecv true HTTPCli_BUF_LEN c.sock = p at hp ⊢
  have hlen := hp.length
  have hret := hp.ret
  have hsize₁ : (c.filled 0 p).buf.length = HTTPCli_BUF_LEN :=
    (length_overwrite (by omega)).trans hsize
  by_cases hpos : 0 < p.ret
  · rw [if_pos hpos]
    refine ⟨?_, fun hneg => absurd hneg (by omega)⟩
    have hr := ssockRecv_cases p.ret.toNat (c.filled 0 p).sock
    have hstream : (c.filled 0 p).sock.stream = c.sock.stream := hp.stream
    generalize ssockRecv false p.ret.toNat (c.filled 0 p).sock = r at hr ⊢
    rcases hr with hr | hr
    · have hneg := hr.ret
      refine ⟨?_, rfl, rfl, by dsimp only; omega, fun h => absurd hneg (Int.not_lt.2 h), fun _ => ?_⟩
      · refine (length_overwrite ?_).trans hsize₁
        rw [hr.bytes]
        exact Nat.zero_le _
      · exact hr.stream.trans hstream
    · have hbytes := hr.length
      have hret' := hr.ret
      refine ⟨?_, rfl, rfl, by dsimp only; omega, fun _ => ?_, fun h => absurd h (by dsimp only; omega)⟩
      · exact (length_overwrite (by omega)).trans hsize₁
      · have hnat : r.ret.toNat = r.bytes.length := by omega
        show (overwrite (c.filled 0 p).buf 0 r.bytes).take r.ret.toNat ++ r.sock.stream = _
        rw [hnat, take_overwrite_zero, hr.stream, hstream]
  · have hbuf : (c.filled 0 p).buf = c.buf := by
      rw [filled, hp.bytes (Int.not_lt.1 hpos)]
      exact overwrite_nil ..
    rw [if_neg hpos]
    refine ⟨⟨hsize₁, rfl, rfl, hret, fun h => ?_, fun _ => hp.stream⟩, fun hneg => ⟨hneg, hbuf⟩⟩
    have hzero : p.ret.toNat = 0 := by omega
    show (c.filled 0 p).buf.take p.ret.toNat ++ p.sock.stream = _
    rw [hzero, List.take_zero, List.nil_append, hp.stream]

section Slp

variable {c c' : Receiver} (hc : c.Ok) {len : Nat} (dst : Bytes) {numRead : Int}
  (h : Peeked c c' numRead)

include hc h

theorem Receiver.complete_serves (hlt : c.buflen < len)
    (hnum : (len : Int) ≤ c.buflen + numRead) :
    Serves c len dst (c'.complete numRead.toNat len (overwrite dst 0 c.pending)) := by
  have hpending := hc.length_pending
  have hsize := h.size
  have hbound := h.bound
  have hbuflen := h.buflen
  have htake : (c'.buf.take (len - c.buflen)).length = len - c.buflen := by
    rw [List.length_take, hsize]
    omega
  have hfront := h.front (by omega)
  unfold complete
  rw [hbuflen]
  refine .of_success ⟨hsize, ?_⟩ (c.pending ++ c'.buf.take (len - c.buflen)) ?_ ?_ ?_ ?_
  · dsimp only
    omega
  · rw [List.length_append]
    omega
  · show overwrite (overwrite dst 0 c.pending) c.buflen _ = _
    rw [← hpending]
    exact overwrite_zero_overwrite ..
  · show (len : Int) = _
    rw [List.length_append]
    omega
  · have hsum : len - c.buflen + (numRead.toNat - (len - c.buflen)) = numRead.toNat := by omega
    show _ ++ ((c'.buf.drop (len - c.buflen)).take (numRead.toNat - (len - c.buflen)) ++ c'.sock.stream) =
      c.pending ++ c.sock.stream
    rw [← hfront, List.append_assoc, ← List.append_assoc (c'.buf.take (len - c.buflen)), ← List.take_add,
      hsum]

theorem Receiver.keep_serves (hzero : c.buflen = 0) (hnum : 0 ≤ numRead) :
    Serves c len dst (c'.keep numRead.toNat (overwrite dst 0 c.pending)) := by
  have hpending := hc.length_pending
  have hbuflen := h.buflen
  have hbound := h.bound
  unfold keep
  rw [if_neg (by omega)]
  refine .of_failure ⟨h.size, ?_⟩ c.pending (by omega) rfl ?_ ?_
  · dsimp only
    omega
  · show HTTPCli_EINPROGRESS < 0
    decide
  · rw [left_empty hc hzero, ← h.front hnum]
    show (c'.buf.drop 0).take numRead.toNat ++ _ = _
    rw [List.drop_zero]

theorem Peeked.fails_serves (hlt : c.buflen < len) (hnum : numRead < 0)
    (hbuf : 0 < c.buflen → c'.buf = c.buf) {ret : Int} (hret : ret < 0) :
    Serves c len dst ⟨c', ret, overwrite dst 0 c.pending⟩ := by
  have hpending := hc.length_pending
  have hbuflen := h.buflen
  have hptr := h.ptr
  have hrange := hc.range
  refine .of_failure ⟨h.size, ?_⟩ c.pending (by omega) rfl hret ?_
  · dsimp only
    omega
  · have hsame : c'.pending = c.pending := by
      unfold Receiver.pending
      rw [hbuflen, hptr]
      by_cases hpos : 0 < c.buflen
      · rw [hbuf hpos]
      · rw [Nat.eq_zero_of_not_pos hpos, List.take_zero, List.take_zero]
    show c'.pending ++ c'.sock.stream = c.pending ++ c.sock.stream
    rw [hsame, h.fails hnum]

end Slp

/-- With `__SLP__` the calls that are clean serve. -/
theorem Receiver.recvSlp_serves {c : Receiver} (hc : c.Ok) {len : Nat} (dst : Bytes)
    (hclean : c.Clean len) : Serves c len dst (c.recvSlp len dst) := by
  unfold recvSlp
  split
  · exact .of_failure hc [] (Nat.zero_le _) (overwrite_nil dst 0).symm
      (show HTTPCli_EINTERNALBUFSMALL < 0 by decide) rfl
  · rename_i hlong
    have hle := Nat.not_lt.1 hlong
    split
    · rename_i hlt
      obtain ⟨h, hpeek⟩ := peekFill_peeked hc
      have hclean : 0 < c.buflen → _ := fun hpos => hclean hpos hlt hle
      generalize c.peekFill = r at h hpeek hclean ⊢
      obtain ⟨c', numRead⟩ := r
      have hbuflen := h.buflen
      dsimp only at h hpeek hclean hbuflen ⊢
      by_cases hnum : 0 ≤ numRead
      · rw [if_pos hnum]
        have hnopeek : ¬ (ssockRecv true HTTPCli_BUF_LEN c.sock).ret < 0 :=
          fun hneg => absurd (hpeek hneg).1 (Int.not_lt.2 hnum)
        by_cases hshort : numRead < len - c'.buflen
        · rw [if_pos hshort]
          refine keep_serves hc dst h (Nat.eq_zero_of_not_pos fun hpos => ?_) hnum
          rcases hclean hpos with henough | hneg
          · omega
          · exact hnopeek hneg
        · rw [if_neg hshort]
          exact complete_serves hc dst h hlt (by omega)
      · rw [if_neg hnum]
        have hbuf : 0 < c.buflen → c'.buf = c.buf := fun hpos =>
          (hpeek ((hclean hpos).resolve_left (by omega))).2
        split
        · exact h.fails_serves hc dst hlt (Int.not_le.1 hnum) hbuf (by decide)
        · exact h.fails_serves hc dst hlt (Int.not_le.1 hnum) hbuf (by decide)
    · exact serve_serves hc dst (Nat.not_lt.1 ‹_›)

theorem Receiver.bufferedRecv_serves {slp : Bool} {c : Receiver} (hc : c.Ok) {len : Nat} (dst : Bytes)
    (hclean : slp = true → c.Clean len) : Serves c len dst (c.bufferedRecv slp len dst) := by
  have hserves : Serves c len dst (if slp then c.recvSlp len dst else c.recvPlain len dst) := by
    cases slp with
    | false => exact recvPlain_serves hc len dst
    | true => exact recvSlp_serves hc dst (hclean rfl)
  unfold bufferedRecv
  generalize (if slp then c.recvSlp len dst else c.recvPlain len dst) = r at hserves ⊢
  dsimp only
  split
  · rename_i htimeout
    have hneg : r.ret < 0 := by
      rw [htimeout]
      decide
    obtain ⟨bytes, hlen, hdst, -⟩ := hserves.stores
    exact .of_failure hserves.ok bytes hlen hdst (show HTTPCli_ERECVFAIL < 0 by decide)
      (hserves.keeps hneg)
  · exact hserves

/-! ## All the calls -/

structure Call where
  len : Nat
  dst : Bytes

def callStep (slp : Bool) (c : Receiver) (call : Call) : Option (Receiver × Result) :=
  some ((c.bufferedRecv slp call.len call.dst).cli, c.bufferedRecv slp call.len call.dst)

def Result.stored (r : Result) : Bytes := if 0 ≤ r.ret then r.dst.take r.ret.toNat else []

/-- A call writes no more than it is asked for, and returns how much when it succeeds. -/
def Stores (call : Call) (r : Result) : Prop :=
  ∃ bytes, bytes.length ≤ call.len ∧ r.dst = overwrite call.dst 0 bytes ∧
    (0 ≤ r.ret → r.ret = bytes.length)

theorem Serves.stored_left {c : Receiver} {call : Call} {r : Result}
    (h : Serves c call.len call.dst r) : r.stored ++ r.cli.left = c.left := by
  unfold Result.stored
  by_cases hret : 0 ≤ r.ret
  · obtain ⟨bytes, -, hdst, hsuccess⟩ := h.stores
    obtain ⟨hlen, hleft⟩ := hsuccess hret
    have hnat : r.ret.toNat = bytes.length := by omega
    rw [if_pos hret, hdst, hnat, take_overwrite_zero]
    exact hleft
  · rw [if_neg hret]
    exact h.keeps (Int.not_le.1 hret)

/-- Whatever is asked for and however the socket delivers, what the successful calls store, what is still
in the buffer and what the socket still has are together the stream. With `__SLP__` that is so as long as
the calls are clean. -/
theorem buffered_recv (slp : Bool) {c c' : Receiver} {calls : List Call} {results : List Result}
    (hc : c.Ok) (hclean : slp = true → Meets (callStep true) (fun c call => c.Clean call.len) c calls)
    (hrun : runs (callStep slp) c calls = some (c', results)) :
    c'.Ok ∧ (results.map Result.stored).flatten ++ c'.left = c.left ∧
      List.Forall₂ Stores calls results := by
  induction calls generalizing c results with
  | nil =>
    cases hrun
    exact ⟨hc, rfl, .nil⟩
  | cons call calls ih =>
    have hserves : Serves c call.len call.dst (c.bufferedRecv slp call.len call.dst) :=
      c.bufferedRecv_serves hc call.dst fun h => (hclean h).1
    rw [runs] at hrun
    simp only [callStep] at hrun
    split at hrun
    · cases hrun
    · rename_i c'' results' hrest
      cases hrun
      obtain ⟨hok, hleft, hstores⟩ := ih hserves.ok (fun h => by
        subst h
        exact (hclean rfl).2) hrest
      refine ⟨hok, ?_, .cons ?_ hstores⟩
      · rw [List.map_cons, List.flatten_cons, List.append_assoc, hleft]
        exact hserves.stored_left
      · obtain ⟨bytes, hlen, hdst, hret⟩ := hserves.stores
        exact ⟨bytes, hlen, hdst, fun h => (hret h).1⟩

/-- A client that has received nothing, and a server that sends four bytes. -/
def fresh (answers : List Answer) : Receiver :=
  ⟨List.replicate HTTPCli_BUF_LEN 0, 0, 0, ⟨[1, 2, 3, 4], answers⟩⟩

theorem fresh_ok (answers : List Answer) : (fresh answers).Ok where
  size := List.length_replicate
  range h := absurd h (Nat.lt_irrefl 0)

def oneAndThree : List Call := [⟨1, [0]⟩, ⟨3, [0, 0, 0]⟩]

/-- The second call is completed by what is there. -/
theorem buffered_recv_completed :
    ∃ c' results, runs (callStep true) (fresh [.gives 2, .gives 2]) oneAndThree = some (c', results) ∧
      (results.map Result.stored).flatten ++ c'.left = [1, 2, 3, 4] := by
  obtain ⟨⟨c', results⟩, hrun⟩ :
      ∃ p, runs (callStep true) (fresh [.gives 2, .gives 2]) oneAndThree = some p := ⟨_, rfl⟩
  have hclean : Meets (callStep true) (fun c call => c.Clean call.len) (fresh [.gives 2, .gives 2])
      oneAndThree :=
    ⟨fun h => absurd h (by decide), fun _ _ _ => .inl (by decide +kernel), trivial⟩
  have hserves := (buffered_recv true (fresh_ok _) (fun _ => hclean) hrun).2.1
  exact ⟨c', results, hrun, hserves⟩

/-- There is only one byte more: of the two that are then in the buffer the first is lost, and what is in
the caller's memory behind them is kept. -/
theorem buffered_byte_lost :
    (runs (callStep true) (fresh [.gives 2, .gives 2, .gives 1, .gives 1]) oneAndThree).map
        (fun p => (p.2.map Result.stored).flatten ++ p.1.left) = some [1, 3, 0, 4] ∧
      (fresh [.gives 2, .gives 2, .gives 1, .gives 1]).left = [1, 2, 3, 4] := by
  decide +kernel

end SimpleLink.HttpCli
