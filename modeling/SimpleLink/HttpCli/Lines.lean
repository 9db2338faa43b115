import SimpleLink.HttpCli.Receive
import SimpleLink.Lib.Feeds

/-!
# Lines of a response (`httpcli.c`)

`readLine` and `skipLine` receive a line byte by byte, and `getChunkedData` reads the size of a chunk with
them. `fuel` bounds the turns of a loop. What a variable holds that nothing has been assigned to is given.
-/

namespace SimpleLink.HttpCli

open Lib

abbrev lf : UInt8 := 10
abbrev cr : UInt8 := 13
abbrev sp : UInt8 := 32

/-! ## The readers -/

/-- `bufferedRecv(cli, ssock, &c, 1, 0)`: what it leaves, what it returns, and `c`. -/
def Receiver.recvChar (slp : Bool) (cli : Receiver) (c : UInt8) : Receiver × Int × UInt8 :=
  let r := cli.bufferedRecv slp 1 [c]
  (r.cli, r.ret, r.dst.headD c)

/-- What `readLine` leaves. The state has `READ_FLAG` when `moreFlag` is set. -/
structure LineResult where
  cli : Receiver
  ret : Int
  line : Bytes
  moreFlag : Bool

/-- The loop of `readLine`. -/
def readLoop (slp : Bool) (len : Nat) :
    Nat → Receiver → UInt8 → Nat → Bytes → Option LineResult
  | 0, _, _, _, _ => none
  | fuel + 1, cli, c, i, line =>
    if i < len then
      let (cli, ret, c) := cli.recvChar slp c
      if ret < 0 then some ⟨cli, ret, line, false⟩
      else if c = lf then some ⟨cli, 0, overwrite line i [0], false⟩
      else if c = cr ∨ i = 0 ∧ c = sp then readLoop slp len fuel cli c i line
      else readLoop slp len fuel cli c (i + 1) (overwrite line i [c])
    else some ⟨cli, 0, line, true⟩

/-- `readLine`. -/
def readLine (slp : Bool) (fuel : Nat) (c : UInt8) (cli : Receiver) (line : Bytes) (len : Nat) :
    Option LineResult :=
  readLoop slp len fuel cli c 0 line

/-- The loop of `skipLine`. -/
def skipLoop (slp : Bool) : Nat → Receiver → UInt8 → Option (Receiver × Int)
  | 0, _, _ => none
  | fuel + 1, cli, c =>
    if c = lf then some (cli, 0)
    else
      let (cli, ret, c) := cli.recvChar slp c
      if ret < 0 then some (cli, ret) else skipLoop slp fuel cli c

/-- `skipLine`. -/
def skipLine (slp : Bool) (fuel : Nat) (cli : Receiver) : Option (Receiver × Int) :=
  skipLoop slp fuel cli 0

/-! ## One byte -/

/-- What a receive leaves, what it returns and what it stores is the same for all the memories. -/
def Even (recv : Bytes → Result) : Prop :=
  ∃ cli ret bytes, ∀ dst, recv dst = ⟨cli, ret, overwrite dst 0 bytes⟩

theorem even_nothing (cli : Receiver) (ret : Int) : Even fun dst => ⟨cli, ret, dst⟩ :=
  ⟨cli, ret, [], fun dst => by rw [overwrite_nil]⟩

theorem handOver_even (cli : Receiver) (len : Nat) (numRead : Int) :
    Even fun dst => cli.handOver len dst numRead := by
  unfold Receiver.handOver
  split
  · exact ⟨_, _, _, fun _ => rfl⟩
  · exact even_nothing ..

theorem recvPlain_even (cli : Receiver) : Even (cli.recvPlain 1) := by
  unfold Receiver.recvPlain
  by_cases hpos : 0 < cli.buflen
  · have hlen : ¬ cli.buflen < 1 := by omega
    simp only [if_pos hpos, if_neg hlen]
    exact ⟨_, _, _, fun _ => rfl⟩
  · have hlong : ¬ HTTPCli_BUF_LEN < 1 := by decide
    simp only [if_neg hpos, if_neg hlong]
    unfold Receiver.serveShort
    generalize cli.fill = r
    obtain ⟨cli', numRead⟩ := r
    dsimp only
    split
    · exact handOver_even ..
    · exact handOver_even ..

theorem recvSlp_even (cli : Receiver) : Even (cli.recvSlp 1) := by
  have hlong : ¬ HTTPCli_BUF_LEN < 1 := by decide
  unfold Receiver.recvSlp
  by_cases hpos : cli.buflen < 1
  · have hzero : cli.buflen = 0 := by omega
    have hpending : cli.pending = [] := by rw [Receiver.pending, hzero, List.take_zero]
    have hsame : cli.peekFill.1.buflen = 0 := by
      rw [← hzero, Receiver.peekFill]
      dsimp only
      split <;> rfl
    simp only [if_neg hlong, if_pos hpos, hpending, overwrite_nil]
    generalize cli.peekFill = r at hsame ⊢
    obtain ⟨cli', numRead⟩ := r
    dsimp only at hsame ⊢
    split
    · split
      · unfold Receiver.keep
        have hnot : ¬ 0 < cli'.buflen := by omega
        simp only [if_neg hnot]
        exact even_nothing ..
      · unfold Receiver.complete
        simp only [hsame]
        exact ⟨_, _, _, fun _ => rfl⟩
    · split
      · exact even_nothing ..
      · exact even_nothing ..
  · simp only [if_neg hlong, if_neg hpos]
    exact ⟨_, _, _, fun _ => rfl⟩

theorem bufferedRecv_even (slp : Bool) (cli : Receiver) : Even (cli.bufferedRecv slp 1) := by
  have heven : Even fun dst => if slp then cli.recvSlp 1 dst else cli.recvPlain 1 dst := by
    cases slp with
    | false => exact recvPlain_even cli
    | true => exact recvSlp_even cli
  obtain ⟨cli', ret, bytes, h⟩ := heven
  refine ⟨cli', if ret = Ssock_TIMEOUT then HTTPCli_ERECVFAIL else ret, bytes, fun dst => ?_⟩
  unfold Receiver.bufferedRecv
  rw [show (if slp then cli.recvSlp 1 dst else cli.recvPlain 1 dst) = _ from h dst]
  dsimp only
  split <;> rfl

/-- With `__SLP__` a byte has been received or the call has failed. -/
theorem bufferedRecv_slp (cli : Receiver) (dst : Bytes) : (cli.bufferedRecv true 1 dst).ret ≠ 0 := by
  have hret : (cli.recvSlp 1 dst).ret ≠ 0 := by
    have hlong : ¬ HTTPCli_BUF_LEN < 1 := by decide
    have hprogress : HTTPCli_EINPROGRESS ≠ 0 := by decide
    unfold Receiver.recvSlp
    rw [if_neg hlong]
    split
    · dsimp only
      split
      · split
        · unfold Receiver.keep
          split <;> exact hprogress
        · exact Int.one_ne_zero
      · split
        · exact hprogress
        · exact show HTTPCli_ERECVFAIL ≠ 0 by decide
    · exact Int.one_ne_zero
  show (if (cli.recvSlp 1 dst).ret = Ssock_TIMEOUT then
    { cli.recvSlp 1 dst with ret := HTTPCli_ERECVFAIL } else cli.recvSlp 1 dst).ret ≠ 0
  split
  · exact show HTTPCli_ERECVFAIL ≠ 0 by decide
  · exact hret

/-- What a receive of one byte does, whatever was in `c`. -/
inductive OneByte (slp : Bool) (cli : Receiver) : Prop where
  | byte (b : UInt8) (cli' : Receiver) (ok : cli'.Ok) (left : cli.left = b :: cli'.left)
      (recv : ∀ c, cli.recvChar slp c = (cli', 1, b))
  | closed (cli' : Receiver) (hslp : slp = false) (recv : ∀ c, cli.recvChar slp c = (cli', 0, c))
  | fails (cli' : Receiver) (ret : Int) (hret : ret < 0)
      (recv : ∀ c, ∃ c', cli.recvChar slp c = (cli', ret, c'))

theorem recvChar_cases (slp : Bool) {cli : Receiver} (hok : cli.Ok) : OneByte slp cli := by
  obtain ⟨cli', ret, bytes, h⟩ := bufferedRecv_even slp cli
  have hrecv : ∀ c, cli.recvChar slp c = (cli', ret, (overwrite [c] 0 bytes).headD c) := fun c => by
    rw [Receiver.recvChar, h]
  have hserves : ∀ c, Serves cli 1 [c] ⟨cli', ret, overwrite [c] 0 bytes⟩ := fun c => by
    rw [← h]
    exact cli.bufferedRecv_serves hok [c] fun _ hpos hlt => by omega
  by_cases hneg : ret < 0
  · exact .fails cli' ret hneg fun c => ⟨_, hrecv c⟩
  · have hstores : ∀ c, ∃ stored : Bytes, stored.length ≤ 1 ∧
        overwrite [c] 0 bytes = overwrite [c] 0 stored ∧ ret = stored.length ∧
        stored ++ cli'.left = cli.left := fun c => by
      obtain ⟨stored, hlen, hdst, hsuccess⟩ := (hserves c).stores
      exact ⟨stored, hlen, hdst, hsuccess (Int.not_lt.1 hneg)⟩
    by_cases hzero : ret = 0
    · refine .closed cli' ?_ fun c => ?_
      · cases slp with
        | false => rfl
        | true =>
          have hret := bufferedRecv_slp cli []
          rw [h] at hret
          exact absurd hzero hret
      · obtain ⟨stored, -, hdst, hret, -⟩ := hstores c
        have hnil : stored = [] := List.length_eq_zero_iff.1 (by omega)
        rw [hrecv, hdst, hnil, overwrite_nil, hzero]
        rfl
    · have hone : ∀ c, ∃ b, overwrite [c] 0 bytes = [b] ∧ ret = 1 ∧ cli.left = b :: cli'.left :=
          fun c => by
        obtain ⟨stored, hlen, hdst, hret, hleft⟩ := hstores c
        obtain ⟨b, rfl⟩ := List.length_eq_one_iff.1 (show stored.length = 1 by omega)
        exact ⟨b, hdst, hret, hleft.symm⟩
      obtain ⟨b, -, hret, hleft⟩ := hone 0
      refine .byte b cli' (hserves 0).ok hleft fun c => ?_
      obtain ⟨b', hdst, -, hleft'⟩ := hone c
      obtain ⟨rfl, -⟩ := List.cons_eq_cons.1 (hleft.symm.trans hleft')
      rw [hrecv, hdst, hret]
      rfl

/-! ## What is received -/

def Receiver.next (slp : Bool) (cli : Receiver) : Option (UInt8 × Receiver) :=
  let r := cli.recvChar slp 0
  if 0 < r.2.1 then some (r.2.2, r.1) else none

def Receiver.after (slp : Bool) (cli : Receiver) : Receiver := (cli.recvChar slp 0).1

def Receiver.Closed (slp : Bool) (cli : Receiver) : Prop := (cli.recvChar slp 0).2.1 = 0

/-- As long as what has been received is such, the peer does not close the connection. -/
def StaysOpen (slp : Bool) (cli : Receiver) (Reading : Bytes → Prop) : Prop :=
  ∀ bytes cli', Feeds (Receiver.next slp) cli bytes cli' → Reading bytes → ¬ cli'.Closed slp

section Next

variable {slp : Bool} {cli cli' : Receiver}

theorem next_byte {b : UInt8} (h : ∀ c, cli.recvChar slp c = (cli', 1, b)) :
    cli.next slp = some (b, cli') := by
  rw [Receiver.next, h]
  rfl

theorem next_closed (h : cli.Closed slp) : cli.next slp = none := by
  unfold Receiver.Closed at h
  unfold Receiver.next
  dsimp only
  rw [h, if_neg (Int.lt_irrefl 0)]

theorem next_fails {ret : Int} (hret : ret < 0) (h : ∀ c, ∃ c', cli.recvChar slp c = (cli', ret, c')) :
    cli.next slp = none := by
  obtain ⟨c', h⟩ := h 0
  rw [Receiver.next, h]
  exact if_neg (Int.not_lt.2 (Int.le_of_lt hret))

theorem next_left (hok : cli.Ok) {b : UInt8} (h : cli.next slp = some (b, cli')) :
    cli'.Ok ∧ cli.left = b :: cli'.left := by
  cases recvChar_cases slp hok with
  | byte b₁ cli₁ ok left recv =>
    obtain ⟨rfl, rfl⟩ := Prod.mk.inj (Option.some.inj ((next_byte recv).symm.trans h))
    exact ⟨ok, left⟩
  | closed cli₁ _ recv =>
    have hclosed : cli.Closed slp := by rw [Receiver.Closed, recv]
    exact absurd ((next_closed hclosed).symm.trans h) (by simp)
  | fails cli₁ ret hret recv => exact absurd ((next_fails hret recv).symm.trans h) (by simp)

theorem feeds_left {bytes : Bytes} (hok : cli.Ok) (h : Feeds (Receiver.next slp) cli bytes cli') :
    cli'.Ok ∧ cli.left = bytes ++ cli'.left := by
  induction h with
  | nil => exact ⟨hok, rfl⟩
  | cons hnext _ ih =>
    obtain ⟨hok₁, hleft₁⟩ := next_left hok hnext
    obtain ⟨hok', hleft'⟩ := ih hok₁
    exact ⟨hok', by rw [hleft₁, hleft', List.cons_append]⟩

theorem feeds_bytes_unique {bytes bytes' : Bytes} (hok : cli.Ok)
    (h : Feeds (Receiver.next slp) cli bytes cli') (h' : Feeds (Receiver.next slp) cli bytes' cli') :
    bytes = bytes' :=
  List.append_cancel_right ((feeds_left hok h).2.symm.trans (feeds_left hok h').2)

end Next

/-- The error that ends a call is that of the receive behind `bytes`, or the connection is closed there. -/
structure Reports (slp : Bool) (start : Receiver) (bytes : Bytes) (cli : Receiver) (ret : Int) : Prop where
  ret : ret < 0
  there : ∃ cli', Feeds (Receiver.next slp) start bytes cli' ∧ cli'.next slp = none ∧ cli = cli'.after slp

theorem reports_of_fails {slp : Bool} {start cli cli' : Receiver} {bytes : Bytes} {ret : Int}
    (hfeeds : Feeds (Receiver.next slp) start bytes cli) (hret : ret < 0)
    (h : ∀ c, ∃ c', cli.recvChar slp c = (cli', ret, c')) : Reports slp start bytes cli' ret := by
  refine ⟨hret, cli, hfeeds, next_fails hret h, ?_⟩
  obtain ⟨c', h⟩ := h 0
  rw [Receiver.after, h]

/-! ### Behind the end of the stream -/

def Receiver.answersLeft (cli : Receiver) : Nat := cli.sock.answers.length

theorem ssockRecv_answers (len : Nat) (s : RecvSock) :
    (ssockRecv false len s).sock.answers.length ≤ s.answers.length ∧
      ((ssockRecv false len s).ret < 0 →
        (ssockRecv false len s).sock.answers.length < s.answers.length) := by
  have hgive : ∀ n answers, ¬ (s.give false n answers).ret < 0 := fun n answers =>
    Int.not_lt.2 (Int.natCast_nonneg _)
  unfold ssockRecv
  cases hanswers : s.answers with
  | nil => exact ⟨Nat.le_refl _, fun h => absurd h (hgive len [])⟩
  | cons answer answers =>
    cases answer with
    | timeout => exact ⟨Nat.le_succ _, fun _ => Nat.lt_succ_self _⟩
    | fail error => exact ⟨Nat.le_succ _, fun _ => Nat.lt_succ_self _⟩
    | gives n => exact ⟨Nat.le_succ _, fun h => absurd h (hgive _ _)⟩

theorem serveShort_answers (cli : Receiver) (len : Nat) (dst : Bytes) :
    (cli.serveShort len dst).cli.answersLeft ≤ cli.answersLeft ∧
      ((cli.serveShort len dst).ret < 0 → (cli.serveShort len dst).cli.answersLeft < cli.answersLeft) := by
  have hover : ∀ (cli' : Receiver) (numRead : Int),
      (cli'.handOver len dst numRead).cli.answersLeft = cli'.answersLeft ∧
        ((cli'.handOver len dst numRead).ret < 0 → numRead < 0) := fun cli' numRead => by
    unfold Receiver.handOver
    split
    · exact ⟨rfl, fun h => absurd h (Int.not_lt.2 (Int.natCast_nonneg _))⟩
    · exact ⟨rfl, id⟩
  have hfill : cli.fill.1.answersLeft ≤ cli.answersLeft ∧
      (cli.fill.2 < 0 → cli.fill.1.answersLeft < cli.answersLeft) := by
    have h := ssockRecv_answers HTTPCli_BUF_LEN cli.sock
    unfold Receiver.fill
    dsimp only
    split <;> exact h
  have hmore : ∀ (cli' : Receiver) (numRead : Nat),
      (cli'.fillMore numRead len).1.answersLeft ≤ cli'.answersLeft ∧
        ((cli'.fillMore numRead len).2 < 0 →
          (cli'.fillMore numRead len).1.answersLeft < cli'.answersLeft) := fun cli' numRead => by
    have h := ssockRecv_answers (len - numRead) cli'.sock
    unfold Receiver.fillMore
    dsimp only
    split <;> exact h
  unfold Receiver.serveShort
  dsimp only
  split
  · have h := hmore cli.fill.1 (if cli.fill.2 = Ssock_TIMEOUT then 0 else cli.fill.2.toNat)
    rw [(hover _ _).1]
    exact ⟨Nat.le_trans h.1 hfill.1, fun hneg => Nat.lt_of_lt_of_le (h.2 ((hover _ _).2 hneg)) hfill.1⟩
  · rw [(hover _ _).1]
    exact ⟨hfill.1, fun hneg => hfill.2 ((hover _ _).2 hneg)⟩

theorem recvChar_answers (cli : Receiver) (c : UInt8) :
    (cli.recvChar false c).1.answersLeft ≤ cli.answersLeft ∧
      ((cli.recvChar false c).2.1 < 0 → (cli.recvChar false c).1.answersLeft < cli.answersLeft) := by
  have hplain : (cli.recvPlain 1 [c]).cli.answersLeft ≤ cli.answersLeft ∧
      ((cli.recvPlain 1 [c]).ret < 0 → (cli.recvPlain 1 [c]).cli.answersLeft < cli.answersLeft) := by
    unfold Receiver.recvPlain
    by_cases hpos : 0 < cli.buflen
    · have hlen : ¬ cli.buflen < 1 := by omega
      rw [if_pos hpos, if_neg hlen]
      exact ⟨Nat.le_refl _, fun h => absurd h (Int.not_lt.2 Int.one_nonneg)⟩
    · have hlong : ¬ HTTPCli_BUF_LEN < 1 := by decide
      rw [if_neg hpos, if_neg hlong]
      exact serveShort_answers ..
  unfold Receiver.recvChar Receiver.bufferedRecv
  dsimp only
  by_cases htimeout : (cli.recvPlain 1 [c]).ret = Ssock_TIMEOUT
  · have hneg : (cli.recvPlain 1 [c]).ret < 0 := by
      rw [htimeout]
      decide
    simp only [Bool.false_eq_true, if_false, if_pos htimeout]
    exact ⟨hplain.1, fun _ => hplain.2 hneg⟩
  · simp only [Bool.false_eq_true, if_false, if_neg htimeout]
    exact hplain

/-- What a call leaves that has gone on where the peer has closed the connection. -/
def GoesOn (slp : Bool) (start : Receiver) (bytes : Bytes) (cli : Receiver) (ret : Int) : Prop :=
  ∃ cli', Feeds (Receiver.next slp) start bytes cli' ∧ cli'.Closed slp ∧
    cli.answersLeft ≤ (cli'.after slp).answersLeft ∧
    (ret < 0 → cli.answersLeft < (cli'.after slp).answersLeft)

theorem GoesOn.isPrefix {slp : Bool} {start cli cli' : Receiver} {bytes bytes' : Bytes} {ret : Int}
    (h : GoesOn slp start bytes cli ret) (hfeeds : Feeds (Receiver.next slp) start bytes' cli') :
    bytes' <+: bytes := by
  obtain ⟨cli₁, hbytes, hclosed, -⟩ := h
  exact hbytes.prefix_of_none (next_closed hclosed) hfeeds

theorem GoesOn.not_reports {slp : Bool} {start cli : Receiver} {bytes bytes' : Bytes} {ret : Int}
    (h : GoesOn slp start bytes cli ret) (hreports : Reports slp start bytes' cli ret) : False := by
  obtain ⟨cli₁, hfeeds₁, hclosed, -, hlt⟩ := h
  obtain ⟨hret, cli₂, hfeeds₂, hnone, rfl⟩ := hreports
  obtain ⟨-, heq⟩ := hfeeds₁.none_unique (next_closed hclosed) hfeeds₂ hnone
  rw [heq] at hlt
  exact absurd (hlt hret) (Nat.lt_irrefl _)

theorem staysOpen_of_feeds {slp : Bool} {start cli : Receiver} {bytes : Bytes} {Reading : Bytes → Prop}
    (hfeeds : Feeds (Receiver.next slp) start bytes cli)
    (hread : ∀ bytes', bytes <+: bytes' → ¬ Reading bytes') : StaysOpen slp start Reading :=
  fun bytes' _ hfeeds' hreading hclosed =>
    hread bytes' (hfeeds'.prefix_of_none (next_closed hclosed) hfeeds) hreading

theorem staysOpen_of_fails {slp : Bool} {start cli cli' : Receiver} {bytes : Bytes} {ret : Int}
    (hfeeds : Feeds (Receiver.next slp) start bytes cli) (hret : ret < 0)
    (h : ∀ c, ∃ c', cli.recvChar slp c = (cli', ret, c')) (Reading : Bytes → Prop) :
    StaysOpen slp start Reading := by
  rintro bytes' cli₁ hfeeds' - hclosed
  obtain ⟨-, rfl⟩ := hfeeds.none_unique (next_fails hret h) hfeeds' (next_closed hclosed)
  obtain ⟨c', h⟩ := h 0
  rw [Receiver.Closed, h] at hclosed
  exact absurd hclosed (Int.ne_of_lt hret)

/-! ## Lines that are skipped -/

/-- `skipLine` has received just the line, or it reports why not. -/
inductive Skipped (slp : Bool) (start cli : Receiver) (ret : Int) : Prop where
  | line (bytes : Bytes) (hbytes : lf ∉ bytes)
      (feeds : Feeds (Receiver.next slp) start (bytes ++ [lf]) cli) (hret : ret = 0)
  | fails (bytes : Bytes) (hbytes : lf ∉ bytes) (reports : Reports slp start bytes cli ret)

theorem not_mem_concat {bytes : Bytes} {b : UInt8} (hbytes : lf ∉ bytes) (hb : b ≠ lf) :
    lf ∉ bytes ++ [b] := by
  rw [List.mem_append, List.mem_singleton]
  exact fun h => h.elim hbytes fun h => hb h.symm

theorem skipLoop_returns {slp : Bool} {start cli : Receiver} {bytes : Bytes} {c : UInt8} {n : Nat}
    (hok : cli.Ok) (hn : cli.left.length = n) (hfeeds : Feeds (Receiver.next slp) start bytes cli)
    (hbytes : lf ∉ bytes) (hopen : StaysOpen slp start (lf ∉ ·)) :
    ∃ fuel r, skipLoop slp fuel cli c = some r := by
  induction n using Nat.strongRecOn generalizing cli bytes c with
  | ind n ih =>
    by_cases hc : c = lf
    · exact ⟨1, _, by rw [skipLoop, if_pos hc]⟩
    · cases recvChar_cases slp hok with
      | byte b cli₁ ok left recv =>
        have hlen : cli₁.left.length < n := by
          rw [← hn, left]
          exact Nat.lt_succ_self _
        by_cases hb : b = lf
        · refine ⟨2, (cli₁, 0), ?_⟩
          rw [skipLoop, if_neg hc, recv]
          exact if_pos hb
        · obtain ⟨fuel, r, hrun⟩ := ih _ hlen ok rfl (hfeeds.concat (next_byte recv))
            (not_mem_concat hbytes hb) (c := b)
          refine ⟨fuel + 1, r, ?_⟩
          rw [skipLoop, if_neg hc, recv]
          exact hrun
      | closed cli₁ _ recv =>
        exact absurd (by rw [Receiver.Closed, recv]) (hopen bytes cli hfeeds hbytes)
      | fails cli₁ ret hret recv =>
        obtain ⟨c', hrecv⟩ := recv c
        refine ⟨1, (cli₁, ret), ?_⟩
        rw [skipLoop, if_neg hc, hrecv]
        exact if_pos hret

theorem skipLoop_answers {fuel : Nat} {cli cli' : Receiver} {c : UInt8} {ret : Int}
    (hrun : skipLoop false fuel cli c = some (cli', ret)) :
    cli'.answersLeft ≤ cli.answersLeft ∧ (ret < 0 → cli'.answersLeft < cli.answersLeft) := by
  induction fuel generalizing cli c with
  | zero => cases hrun
  | succ fuel ih =>
    rw [skipLoop] at hrun
    split at hrun
    · cases hrun
      exact ⟨Nat.le_refl _, fun h => absurd h (Int.lt_irrefl 0)⟩
    · have hrecv := recvChar_answers cli c
      generalize cli.recvChar false c = r at hrun hrecv
      obtain ⟨cli₁, ret₁, c₁⟩ := r
      dsimp only at hrun hrecv
      split at hrun
      · cases hrun
        exact hrecv
      · obtain ⟨hle, hlt⟩ := ih hrun
        exact ⟨Nat.le_trans hle hrecv.1, fun h => Nat.lt_of_lt_of_le (hlt h) hrecv.1⟩

theorem skipLoop_cases {slp : Bool} {fuel : Nat} {start cli cli' : Receiver} {bytes : Bytes} {c : UInt8}
    {ret : Int} (hrun : skipLoop slp fuel cli c = some (cli', ret)) (hok : cli.Ok)
    (hfeeds : Feeds (Receiver.next slp) start bytes cli) (hbytes : lf ∉ bytes) (hc : c ≠ lf) :
    Skipped slp start cli' ret ∧ StaysOpen slp start (lf ∉ ·) ∨
      ∃ bytes', lf ∉ bytes' ∧ GoesOn slp start bytes' cli' ret := by
  induction fuel generalizing cli bytes c with
  | zero => cases hrun
  | succ fuel ih =>
    rw [skipLoop, if_neg hc] at hrun
    cases recvChar_cases slp hok with
    | byte b cli₁ ok _ recv =>
      rw [recv] at hrun
      have hfeeds₁ := hfeeds.concat (next_byte recv)
      by_cases hb : b = lf
      · subst hb
        cases fuel with
        | zero => cases hrun
        | succ fuel =>
          cases hrun
          refine .inl ⟨.line bytes hbytes hfeeds₁ rfl, staysOpen_of_feeds hfeeds₁ fun bytes' hle => ?_⟩
          exact not_not_intro (hle.subset (List.mem_append_right _ (List.mem_singleton_self lf)))
      · exact ih hrun ok hfeeds₁ (not_mem_concat hbytes hb) hb
    | closed cli₁ hslp recv =>
      have hafter : cli₁ = cli.after slp := by rw [Receiver.after, recv]
      have hclosed : cli.Closed slp := by rw [Receiver.Closed, recv]
      rw [recv] at hrun
      subst hslp
      have hanswers := skipLoop_answers (show skipLoop false fuel cli₁ c = some (cli', ret) from hrun)
      rw [hafter] at hanswers
      exact .inr ⟨bytes, hbytes, cli, hfeeds, hclosed, hanswers⟩
    | fails cli₁ ret₁ hret recv =>
      obtain ⟨c', hrecv⟩ := recv c
      rw [hrecv] at hrun
      obtain ⟨rfl, rfl⟩ := Prod.mk.inj (Option.some.inj ((if_pos hret).symm.trans hrun))
      exact .inl ⟨.fails bytes hbytes (reports_of_fails hfeeds hret recv),
        staysOpen_of_fails hfeeds hret recv _⟩

theorem skipLine_iff (slp : Bool) {cli : Receiver} (hok : cli.Ok) :
    (∃ fuel cli' ret, skipLine slp fuel cli = some (cli', ret) ∧ Skipped slp cli cli' ret) ↔
      StaysOpen slp cli (lf ∉ ·) := by
  have hzero : (0 : UInt8) ≠ lf := by decide
  constructor
  · rintro ⟨fuel, cli', ret, hrun, hskipped⟩
    rcases skipLoop_cases hrun hok (.nil cli) List.not_mem_nil hzero with ⟨-, h⟩ | ⟨bytes, hbytes, h⟩
    · exact h
    · cases hskipped with
      | line bytes' _ hfeeds =>
        have hmem := (h.isPrefix hfeeds).subset (List.mem_append_right _ (List.mem_singleton_self lf))
        exact absurd hmem hbytes
      | fails bytes' _ hreports => exact (h.not_reports hreports).elim
  · intro hopen
    obtain ⟨fuel, ⟨cli', ret⟩, hrun⟩ :=
      skipLoop_returns hok rfl (.nil cli) List.not_mem_nil hopen (c := 0)
    refine ⟨fuel, cli', ret, hrun, ?_⟩
    rcases skipLoop_cases hrun hok (.nil cli) List.not_mem_nil hzero with ⟨h, -⟩ | ⟨bytes, hbytes, cli₁,
      hfeeds, hclosed, -⟩
    · exact h
    · exact absurd hclosed (hopen bytes cli₁ hfeeds hbytes)

/-! ## Lines that are read -/

/-- What a line keeps of what is received: no carriage returns, and no spaces in front. -/
def kept (bytes : Bytes) : Bytes := (bytes.filter (· ≠ cr)).dropWhile (· = sp)

def Unfinished (len : Nat) (bytes : Bytes) : Prop := lf ∉ bytes ∧ (kept bytes).length < len

/-- What `readLine` receives: a line, or as much of one as there is memory for. -/
inductive Part (len : Nat) : Bytes → Bool → Prop where
  | line {bytes : Bytes} : Unfinished len bytes → Part len (bytes ++ [lf]) false
  | full {bytes : Bytes} : lf ∉ bytes → (kept bytes).length = len →
      (∀ q, q <+: bytes → q ≠ bytes → (kept q).length < len) → Part len bytes true

def stored (moreFlag : Bool) (bytes : Bytes) : Bytes :=
  if moreFlag then kept bytes else kept bytes.dropLast ++ [0]

/-- `readLine` has received and stored just that, or it reports why not. -/
inductive LineRead (slp : Bool) (start : Receiver) (line : Bytes) (len : Nat) (r : LineResult) : Prop where
  | part (bytes : Bytes) (hpart : Part len bytes r.moreFlag)
      (feeds : Feeds (Receiver.next slp) start bytes r.cli) (hret : r.ret = 0)
      (hline : r.line = overwrite line 0 (stored r.moreFlag bytes))
  | fails (bytes : Bytes) (hbytes : Unfinished len bytes) (reports : Reports slp start bytes r.cli r.ret)
      (hmore : r.moreFlag = false)

theorem kept_drop {bytes : Bytes} {b : UInt8} (h : b = cr ∨ (kept bytes).length = 0 ∧ b = sp) :
    kept (bytes ++ [b]) = kept bytes := by
  unfold kept
  rw [List.filter_append]
  by_cases hcr : b = cr
  · subst hcr
    rw [List.filter_singleton]
    simp
  · obtain ⟨hzero, rfl⟩ := h.resolve_left hcr
    have hnil : kept bytes = [] := List.length_eq_zero_iff.1 hzero
    unfold kept at hnil
    rw [List.dropWhile_append, hnil]
    rfl

theorem kept_keep {bytes : Bytes} {b : UInt8} (h : ¬ (b = cr ∨ (kept bytes).length = 0 ∧ b = sp)) :
    kept (bytes ++ [b]) = kept bytes ++ [b] := by
  obtain ⟨hcr, hsp⟩ := not_or.1 h
  have hsingle : [b].filter (· ≠ cr) = [b] := by simp [hcr]
  unfold kept at hsp ⊢
  rw [List.filter_append, hsingle, List.dropWhile_append]
  split
  · rename_i hempty
    have hnil := List.isEmpty_iff.1 hempty
    have hb : b ≠ sp := fun hb => hsp ⟨by rw [hnil]; rfl, hb⟩
    rw [hnil]
    simp [hb]
  · rfl

theorem kept_concat_le (bytes : Bytes) (b : UInt8) : (kept bytes).length ≤ (kept (bytes ++ [b])).length := by
  by_cases h : b = cr ∨ (kept bytes).length = 0 ∧ b = sp
  · rw [kept_drop h]
  · rw [kept_keep h, List.length_append]
    exact Nat.le_add_right ..

theorem kept_prefix_le {bytes bytes' : Bytes} (h : bytes <+: bytes') :
    (kept bytes).length ≤ (kept bytes').length := by
  obtain ⟨rest, rfl⟩ := h
  induction rest using List.reverseRecOn with
  | nil => rw [List.append_nil]
  | append_singleton rest b ih =>
    rw [← List.append_assoc]
    exact Nat.le_trans ih (kept_concat_le _ b)

theorem not_unfinished_of_lf {len : Nat} {bytes bytes' : Bytes} (h : bytes ++ [lf] <+: bytes') :
    ¬ Unfinished len bytes' := fun hread =>
  hread.1 (h.subset (List.mem_append_right _ (List.mem_singleton_self lf)))

theorem Part.not_unfinished {len : Nat} {bytes bytes' : Bytes} {moreFlag : Bool}
    (h : Part len bytes moreFlag) (hle : bytes <+: bytes') : ¬ Unfinished len bytes' := by
  cases h with
  | line _ => exact not_unfinished_of_lf hle
  | full _ hlen _ =>
    intro hread
    have hkept := kept_prefix_le hle
    have hlt := hread.2
    omega

theorem Part.mem_lf {len : Nat} {bytes : Bytes} {moreFlag : Bool} (h : Part len bytes moreFlag) :
    lf ∈ bytes ↔ moreFlag = false := by
  cases h with
  | line _ => exact iff_of_true (List.mem_append_right _ (List.mem_singleton_self lf)) rfl
  | full hlf _ _ => exact iff_of_false hlf (Bool.noConfusion)

theorem Part.unique {len : Nat} {bytes bytes' : Bytes} {moreFlag moreFlag' : Bool}
    (h : Part len bytes moreFlag) (h' : Part len bytes' moreFlag') (hle : bytes <+: bytes') :
    bytes = bytes' ∧ moreFlag = moreFlag' := by
  have hnot := h.not_unfinished (List.prefix_refl bytes)
  have heq : bytes = bytes' := by
    cases h' with
    | line hread =>
      exact (List.prefix_concat_iff.1 hle).resolve_right fun hle => h.not_unfinished hle hread
    | full hlf _ hproper =>
      by_contra hne
      exact hnot ⟨fun hmem => hlf (hle.subset hmem), hproper bytes hle hne⟩
  subst heq
  refine ⟨rfl, ?_⟩
  have hmem := h.mem_lf.symm.trans h'.mem_lf
  cases moreFlag <;> cases moreFlag' <;> simp_all

theorem LineRead.unique {slp moreFlag : Bool} {start cli : Receiver} {line bytes : Bytes} {len : Nat}
    {r : LineResult} (h : LineRead slp start line len r) (hpart : Part len bytes moreFlag)
    (hfeeds : Feeds (Receiver.next slp) start bytes cli) :
    r = ⟨cli, 0, overwrite line 0 (stored moreFlag bytes), moreFlag⟩ := by
  cases h with
  | part bytes' hpart' hfeeds' hret hline =>
    have heq : bytes = bytes' ∧ moreFlag = r.moreFlag := by
      rcases hfeeds.prefix_or_prefix hfeeds' with hle | hle
      · exact hpart.unique hpart' hle
      · exact (hpart'.unique hpart hle).imp Eq.symm Eq.symm
    obtain ⟨rfl, rfl⟩ := heq
    obtain rfl := hfeeds.unique hfeeds'
    obtain ⟨cli, ret, line', moreFlag⟩ := r
    dsimp only at hret hline ⊢
    rw [hret, hline]
  | fails bytes' hbytes hreports _ =>
    obtain ⟨-, cli', hfeeds', hnone, -⟩ := hreports
    exact absurd hbytes (hpart.not_unfinished (hfeeds'.prefix_of_none hnone hfeeds))

section Loop

variable {slp : Bool} {len : Nat} {line : Bytes} {start cli : Receiver} {pre : Bytes} {c : UInt8}

/-- The turn of the loop that receives `b`. -/
theorem readLoop_byte {b : UInt8} {cli₁ : Receiver} (fuel : Nat) (hlen : (kept pre).length < len)
    (hb : b ≠ lf) (recv : ∀ c, cli.recvChar slp c = (cli₁, 1, b)) :
    readLoop slp len (fuel + 1) cli c (kept pre).length (overwrite line 0 (kept pre)) =
      readLoop slp len fuel cli₁ b (kept (pre ++ [b])).length
        (overwrite line 0 (kept (pre ++ [b]))) := by
  have hnot : ¬ (1 : Int) < 0 := by decide
  rw [readLoop, if_pos hlen, recv]
  dsimp only
  rw [if_neg hnot, if_neg hb]
  by_cases hdrop : b = cr ∨ (kept pre).length = 0 ∧ b = sp
  · rw [if_pos hdrop, kept_drop hdrop]
  · rw [if_neg hdrop, kept_keep hdrop, overwrite_zero_overwrite, List.length_append]
    rfl

theorem readLoop_returns {n : Nat} (hok : cli.Ok) (hn : cli.left.length = n)
    (hfeeds : Feeds (Receiver.next slp) start pre cli) (hpre : lf ∉ pre)
    (hopen : StaysOpen slp start (Unfinished len)) :
    ∃ fuel r, readLoop slp len fuel cli c (kept pre).length (overwrite line 0 (kept pre)) = some r := by
  induction n using Nat.strongRecOn generalizing cli pre c with
  | ind n ih =>
    by_cases hlen : (kept pre).length < len
    · cases recvChar_cases slp hok with
      | byte b cli₁ ok left recv =>
        have hlt : cli₁.left.length < n := by
          rw [← hn, left]
          exact Nat.lt_succ_self _
        by_cases hb : b = lf
        · refine ⟨1, ⟨cli₁, 0, overwrite (overwrite line 0 (kept pre)) (kept pre).length [0], false⟩, ?_⟩
          rw [readLoop, if_pos hlen, recv]
          exact if_pos hb
        · obtain ⟨fuel, r, hrun⟩ := ih _ hlt ok rfl (hfeeds.concat (next_byte recv))
            (not_mem_concat hpre hb) (c := b)
          exact ⟨fuel + 1, r, (readLoop_byte fuel hlen hb recv).trans hrun⟩
      | closed cli₁ _ recv =>
        exact absurd (by rw [Receiver.Closed, recv]) (hopen pre cli hfeeds ⟨hpre, hlen⟩)
      | fails cli₁ ret hret recv =>
        obtain ⟨c', hrecv⟩ := recv c
        refine ⟨1, ⟨cli₁, ret, overwrite line 0 (kept pre), false⟩, ?_⟩
        rw [readLoop, if_pos hlen, hrecv]
        exact if_pos hret
    · exact ⟨1, ⟨cli, 0, overwrite line 0 (kept pre), true⟩, by rw [readLoop, if_neg hlen]⟩

theorem readLoop_answers {fuel i : Nat} {r : LineResult}
    (hrun : readLoop false len fuel cli c i line = some r) :
    r.cli.answersLeft ≤ cli.answersLeft ∧ (r.ret < 0 → r.cli.answersLeft < cli.answersLeft) := by
  induction fuel generalizing cli c i line with
  | zero => cases hrun
  | succ fuel ih =>
    have hrecv := recvChar_answers cli c
    rw [readLoop] at hrun
    generalize cli.recvChar false c = p at hrun hrecv
    obtain ⟨cli₁, ret₁, c₁⟩ := p
    dsimp only at hrun hrecv
    split at hrun
    · split at hrun
      · cases hrun
        exact hrecv
      · split at hrun
        · cases hrun
          exact ⟨hrecv.1, fun h => absurd h (Int.lt_irrefl 0)⟩
        · split at hrun
          all_goals
            obtain ⟨hle, hlt⟩ := ih hrun
            exact ⟨Nat.le_trans hle hrecv.1, fun h => Nat.lt_of_lt_of_le (hlt h) hrecv.1⟩
    · cases hrun
      exact ⟨Nat.le_refl _, fun h => absurd h (Int.lt_irrefl 0)⟩

theorem readLoop_cases {fuel : Nat} {r : LineResult}
    (hrun : readLoop slp len fuel cli c (kept pre).length (overwrite line 0 (kept pre)) = some r)
    (hok : cli.Ok) (hfeeds : Feeds (Receiver.next slp) start pre cli) (hpre : lf ∉ pre)
    (hle : (kept pre).length ≤ len) (hproper : ∀ q, q <+: pre → q ≠ pre → (kept q).length < len) :
    LineRead slp start line len r ∧ StaysOpen slp start (Unfinished len) ∨
      ∃ bytes, Unfinished len bytes ∧ GoesOn slp start bytes r.cli r.ret := by
  induction fuel generalizing cli pre c with
  | zero => cases hrun
  | succ fuel ih =>
    by_cases hlen : (kept pre).length < len
    · cases recvChar_cases slp hok with
      | byte b cli₁ ok _ recv =>
        have hfeeds₁ := hfeeds.concat (next_byte recv)
        by_cases hb : b = lf
        · subst hb
          rw [readLoop, if_pos hlen, recv] at hrun
          cases hrun
          refine .inl ⟨.part _ (.line ⟨hpre, hlen⟩) hfeeds₁ rfl ?_, ?_⟩
          · show overwrite (overwrite line 0 (kept pre)) (kept pre).length [0] =
              overwrite line 0 (kept (pre ++ [lf]).dropLast ++ [0])
            rw [overwrite_zero_overwrite, List.dropLast_concat]
          · exact staysOpen_of_feeds hfeeds₁ fun _ => not_unfinished_of_lf
        · rw [readLoop_byte fuel hlen hb recv] at hrun
          refine ih hrun ok hfeeds₁ (not_mem_concat hpre hb) ?_ fun q hq hne => ?_
          · by_cases hdrop : b = cr ∨ (kept pre).length = 0 ∧ b = sp
            · rwa [kept_drop hdrop]
            · rw [kept_keep hdrop, List.length_append]
              exact hlen
          · exact Nat.lt_of_le_of_lt
              (kept_prefix_le ((List.prefix_concat_iff.1 hq).resolve_left hne)) hlen
      | closed cli₁ hslp recv =>
        have hafter : cli₁ = cli.after slp := by rw [Receiver.after, recv]
        have hclosed : cli.Closed slp := by rw [Receiver.Closed, recv]
        subst hslp
        refine .inr ⟨pre, ⟨hpre, hlen⟩, cli, hfeeds, hclosed, ?_⟩
        rw [← hafter]
        rw [readLoop, if_pos hlen, recv] at hrun
        dsimp only at hrun
        rw [if_neg (Int.lt_irrefl 0)] at hrun
        split at hrun
        · cases hrun
          exact ⟨Nat.le_refl _, fun h => absurd h (Int.lt_irrefl 0)⟩
        · split at hrun
          · exact readLoop_answers hrun
          · exact readLoop_answers hrun
      | fails cli₁ ret hret recv =>
        obtain ⟨c', hrecv⟩ := recv c
        rw [readLoop, if_pos hlen, hrecv] at hrun
        cases (if_pos hret).symm.trans hrun
        exact .inl ⟨.fails pre ⟨hpre, hlen⟩ (reports_of_fails hfeeds hret recv) rfl,
          staysOpen_of_fails hfeeds hret recv _⟩
    · rw [readLoop, if_neg hlen] at hrun
      cases hrun
      have hfull : Part len pre true := .full hpre (Nat.le_antisymm hle (Nat.not_lt.1 hlen)) hproper
      exact .inl ⟨.part pre hfull hfeeds rfl rfl,
        staysOpen_of_feeds hfeeds fun _ => hfull.not_unfinished⟩

theorem readLoop_mono {fuel i : Nat} {r : LineResult}
    (hrun : readLoop slp len fuel cli c i line = some r) :
    readLoop slp len (fuel + 1) cli c i line = some r := by
  induction fuel generalizing cli c i line with
  | zero => cases hrun
  | succ fuel ih =>
    rw [readLoop] at hrun ⊢
    dsimp only at hrun ⊢
    split at hrun
    · rename_i hlen
      rw [if_pos hlen]
      split at hrun
      · rename_i hret
        rwa [if_pos hret]
      · rename_i hret
        rw [if_neg hret]
        split at hrun
        · rename_i hlf
          rwa [if_pos hlf]
        · rename_i hlf
          rw [if_neg hlf]
          split at hrun
          · rename_i hdrop
            rw [if_pos hdrop]
            exact ih hrun
          · rename_i hdrop
            rw [if_neg hdrop]
            exact ih hrun
    · rename_i hlen
      rwa [if_neg hlen]

end Loop

theorem readLine_mono {slp : Bool} {fuel fuel' : Nat} {c : UInt8} {cli : Receiver} {line : Bytes}
    {len : Nat} {r : LineResult} (hrun : readLine slp fuel c cli line len = some r)
    (hle : fuel ≤ fuel') : readLine slp fuel' c cli line len = some r := by
  induction hle with
  | refl => exact hrun
  | step _ ih => exact readLoop_mono ih

theorem readLine_returns {slp : Bool} {cli : Receiver} (hok : cli.Ok) {len : Nat}
    (hopen : StaysOpen slp cli (Unfinished len)) (c : UInt8) (line : Bytes) :
    ∃ fuel r, readLine slp fuel c cli line len = some r := by
  have hrun : ∃ fuel r, readLoop slp len fuel cli c (kept []).length (overwrite line 0 (kept [])) = some r :=
    readLoop_returns hok rfl (.nil cli) List.not_mem_nil hopen
  rwa [show kept [] = [] from rfl, overwrite_nil] at hrun

theorem readLine_cases {slp : Bool} {fuel : Nat} {c : UInt8} {cli : Receiver} (hok : cli.Ok) {len : Nat}
    {line : Bytes} {r : LineResult} (hrun : readLine slp fuel c cli line len = some r) :
    LineRead slp cli line len r ∧ StaysOpen slp cli (Unfinished len) ∨
      ∃ bytes, Unfinished len bytes ∧ GoesOn slp cli bytes r.cli r.ret := by
  have hrun' : readLoop slp len fuel cli c (kept []).length (overwrite line 0 (kept [])) = some r := by
    rwa [show kept [] = [] from rfl, overwrite_nil]
  exact readLoop_cases hrun' hok (.nil cli) List.not_mem_nil (Nat.zero_le _) fun q hq hne =>
    absurd (List.prefix_nil.1 hq) hne

theorem readLine_iff (slp : Bool) {cli : Receiver} (hok : cli.Ok) (c : UInt8) (line : Bytes) (len : Nat) :
    (∃ fuel r, readLine slp fuel c cli line len = some r ∧ LineRead slp cli line len r) ↔
      StaysOpen slp cli (Unfinished len) := by
  constructor
  · rintro ⟨fuel, r, hrun, hread⟩
    rcases readLine_cases hok hrun with ⟨-, h⟩ | ⟨bytes, hbytes, h⟩
    · exact h
    · cases hread with
      | part bytes' hpart hfeeds _ _ => exact absurd hbytes (hpart.not_unfinished (h.isPrefix hfeeds))
      | fails bytes' _ hreports _ => exact (h.not_reports hreports).elim
  · intro hopen
    obtain ⟨fuel, r, hrun⟩ := readLine_returns hok hopen c line
    refine ⟨fuel, r, hrun, ?_⟩
    rcases readLine_cases hok hrun with ⟨h, -⟩ | ⟨bytes, hbytes, cli₁, hfeeds, hclosed, -⟩
    · exact h
    · exact absurd hclosed (hopen bytes cli₁ hfeeds hbytes)

end SimpleLink.HttpCli
