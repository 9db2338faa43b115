import SimpleLink.Lib.Overwrite
import SimpleLink.Ota.OtaApp

/-!
# The headers of a response (`OtaHttp.c`)

`http_skip_headers` reads the status of a response and then, two bytes at a time, its headers. What
`sl_Recv` answers is given call by call; when nothing is given it takes what is asked for. A stream that
is at its end is that of a closed connection.
-/

namespace SimpleLink.Ota

open Lib

abbrev MAX_EAGAIN_RETRIES : Nat := 10
abbrev HTTP_MAX_RETRIES : Nat := 4000
abbrev HTTP_HEADER_SIZE : Nat := 12

def HTTP_HEADER_OK : List UInt8 := [50, 48, 48]

/-- What a call of `sl_Recv` answers: `SL_EAGAIN`, another error, or no more than `n + 1` bytes. -/
inductive Answer where
  | again
  | fail (error : Nat)
  | gives (n : Nat)
  deriving DecidableEq

/-- What is still to be received, and how. -/
structure Sock where
  stream : List UInt8
  answers : List Answer

/-- What `sl_Recv` returns and writes, and what is left. -/
structure Received where
  len : Int
  bytes : List UInt8
  sock : Sock

def Sock.take (s : Sock) (n : Nat) (answers : List Answer) : Received where
  len := (s.stream.take n).length
  bytes := s.stream.take n
  sock := ⟨s.stream.drop n, answers⟩

def slRecv (len : Nat) (s : Sock) : Received :=
  match s.answers with
  | [] => s.take len []
  | .again :: answers => ⟨SL_EAGAIN, [], { s with answers := answers }⟩
  | .fail error :: answers => ⟨-(error + 1), [], { s with answers := answers }⟩
  | .gives n :: answers => s.take (min len (n + 1)) answers

/-- `sl_Recv_eagain`. -/
def slRecvEagain : (maxEagain : Nat) → (len : Nat) → Sock → Received
  | 0, len, s => slRecv len s
  | maxEagain + 1, len, s =>
    let r := slRecv len s
    if r.len ≠ SL_EAGAIN ∨ maxEagain = 0 then r else slRecvEagain maxEagain len r.sock

abbrev recvEagain (len : Nat) (s : Sock) : Received := slRecvEagain MAX_EAGAIN_RETRIES len s

def crlf : List UInt8 := [13, 10]
def lfcr : List UInt8 := [10, 13]

/-- The loop of `http_skip_headers`, which goes round so often at most. Where fewer bytes are received
than asked for, the others in `header_string` are those that were there. -/
def skipLoop : Nat → List UInt8 → Sock → Int × Sock
  | 0, _, s => (OTA_STATUS_ERROR, s)
  | turns + 1, headerString, s =>
    let r := recvEagain 2 s
    if r.len < 0 then (OTA_STATUS_ERROR, r.sock)
    else
      let headerString := overwrite headerString 0 r.bytes
      if headerString.take 2 = crlf then
        -- the result is not looked at
        let r := recvEagain 2 r.sock
        let headerString := overwrite headerString 0 r.bytes
        if headerString.take 2 = crlf then (OTA_STATUS_OK, r.sock)
        else skipLoop turns headerString r.sock
      else if headerString.take 2 = lfcr then
        let r := recvEagain 1 r.sock
        let headerString := overwrite headerString 0 r.bytes
        if headerString.take 1 = [10] then (OTA_STATUS_OK, r.sock)
        else skipLoop turns headerString r.sock
      else skipLoop turns headerString r.sock

def checkStatus (headerString : List UInt8) (s : Sock) : Int × Sock :=
  if (headerString.drop 9).take 3 ≠ HTTP_HEADER_OK then (OTA_STATUS_ERROR, s)
  else skipLoop (HTTP_MAX_RETRIES + 2) headerString s

/-- The second receive of the status, when the first has not given all of it. -/
def secondChance (headerString : List UInt8) (len : Nat) (r : Received) : Int × Sock :=
  if len + r.len < 0 then (OTA_STATUS_ERROR, r.sock)
  else if len + r.len ≠ HTTP_HEADER_SIZE then (OTA_STATUS_ERROR, r.sock)
  else checkStatus (overwrite headerString len r.bytes) r.sock

/-- `http_skip_headers`, with what is in `header_string` at first. -/
def httpSkipHeaders (headerString : List UInt8) (s : Sock) : Int × Sock :=
  let r := recvEagain HTTP_HEADER_SIZE s
  if r.len < 0 then (OTA_STATUS_ERROR, r.sock)
  else
    let headerString := overwrite headerString 0 r.bytes
    if r.len ≠ HTTP_HEADER_SIZE then
      secondChance headerString r.len.toNat (recvEagain (HTTP_HEADER_SIZE - r.len.toNat) r.sock)
    else checkStatus headerString r.sock

/-! ## Receives -/

def Received.Fails (r : Received) (s : Sock) : Prop := r.len < 0 ∧ r.sock.stream = s.stream

theorem slRecv_cases (len : Nat) (s : Sock) :
    (slRecv len s).Fails s ∨ ∃ n answers, n ≤ len ∧ slRecv len s = s.take n answers := by
  unfold slRecv
  split
  · exact .inr ⟨len, [], Nat.le_refl len, rfl⟩
  · exact .inl ⟨by show SL_EAGAIN < 0; decide, rfl⟩
  · rename_i error _ _
    refine .inl ⟨?_, rfl⟩
    show -((error : Int) + 1) < 0
    omega
  · rename_i n answers _
    exact .inr ⟨min len (n + 1), answers, Nat.min_le_left .., rfl⟩

theorem slRecvEagain_cases (maxEagain len : Nat) (s : Sock) :
    (slRecvEagain maxEagain len s).Fails s ∨
      ∃ n answers, n ≤ len ∧ slRecvEagain maxEagain len s = s.take n answers := by
  induction maxEagain generalizing s with
  | zero => exact slRecv_cases len s
  | succ maxEagain ih =>
    rw [slRecvEagain]
    split
    · exact slRecv_cases len s
    · rename_i hagain
      have hlen : (slRecv len s).len = SL_EAGAIN := by simpa using (not_or.1 hagain).1
      have hstream : (slRecv len s).sock.stream = s.stream := by
        rcases slRecv_cases len s with h | ⟨n, answers, -, h⟩
        · exact h.2
        · rw [h] at hlen
          have hneg : ((s.stream.take n).length : Int) = SL_EAGAIN := hlen
          unfold SL_EAGAIN at hneg
          omega
      rcases ih (slRecv len s).sock with h | ⟨n, answers, hn, h⟩
      · exact .inl ⟨h.1, h.2.trans hstream⟩
      · exact .inr ⟨n, answers, hn, by rw [h, Sock.take, Sock.take, hstream]⟩

theorem drop_take_status (l : List UInt8) : (l.drop 9).take 3 = (l.take HTTP_HEADER_SIZE).drop 9 :=
  (List.drop_take (i := 9) (j := 12)).symm

theorem Sock.take_len (s : Sock) (n : Nat) (answers : List Answer) :
    (s.take n answers).len = ((s.stream.take n).length : Int) := rfl

theorem httpSkipHeaders_took {headerString : List UInt8} {s : Sock} {n : Nat} {answers : List Answer}
    (h : recvEagain HTTP_HEADER_SIZE s = s.take n answers) :
    httpSkipHeaders headerString s =
      if (s.stream.take n).length = HTTP_HEADER_SIZE then
        checkStatus (overwrite headerString 0 (s.stream.take n)) ⟨s.stream.drop n, answers⟩
      else secondChance (overwrite headerString 0 (s.stream.take n)) (s.stream.take n).length
        (recvEagain (HTTP_HEADER_SIZE - (s.stream.take n).length) ⟨s.stream.drop n, answers⟩) := by
  unfold httpSkipHeaders
  simp only [h]
  rw [if_neg (by rw [Sock.take_len]; omega)]
  by_cases hlen : (s.stream.take n).length = HTTP_HEADER_SIZE
  · rw [if_pos hlen, if_neg (by rw [Sock.take_len, hlen]; exact not_not_intro rfl)]
    rfl
  · rw [if_neg hlen, if_pos (by rw [Sock.take_len]; exact_mod_cast hlen)]
    rfl

theorem secondChance_took {headerString : List UInt8} {len : Nat} {s : Sock} {n : Nat}
    {answers : List Answer} :
    secondChance headerString len (s.take n answers) =
      if len + (s.stream.take n).length = HTTP_HEADER_SIZE then
        checkStatus (overwrite headerString len (s.stream.take n)) ⟨s.stream.drop n, answers⟩
      else (OTA_STATUS_ERROR, ⟨s.stream.drop n, answers⟩) := by
  rw [secondChance, if_neg (by rw [Sock.take_len]; omega)]
  by_cases hlen : len + (s.stream.take n).length = HTTP_HEADER_SIZE
  · have hsum : (len : Int) + (s.take n answers).len = HTTP_HEADER_SIZE := by
      rw [Sock.take_len]
      exact_mod_cast hlen
    rw [if_pos hlen, if_neg (not_not_intro hsum)]
    rfl
  · have hsum : (len : Int) + (s.take n answers).len ≠ HTTP_HEADER_SIZE := by
      rw [Sock.take_len]
      exact_mod_cast hlen
    rw [if_neg hlen, if_pos hsum]
    rfl

theorem httpSkipHeaders_bad (headerString : List UInt8) {s : Sock}
    (hbad : (s.stream.drop 9).take 3 ≠ HTTP_HEADER_OK) :
    (httpSkipHeaders headerString s).1 = OTA_STATUS_ERROR := by
  have hcheck : ∀ {l : List UInt8} {s' : Sock}, l.length = HTTP_HEADER_SIZE → l <+: s.stream →
      (checkStatus (overwrite headerString 0 l) s').1 = OTA_STATUS_ERROR := by
    intro l s' hlen hl
    rw [checkStatus, if_pos]
    rw [drop_take_status] at hbad ⊢
    rw [← hlen, take_overwrite_zero]
    rwa [List.prefix_iff_eq_take.1 hl, hlen]
  rcases slRecvEagain_cases MAX_EAGAIN_RETRIES HTTP_HEADER_SIZE s with h | ⟨n, answers, hn, h⟩
  · rw [httpSkipHeaders, if_pos h.1]
  · rw [httpSkipHeaders_took h]
    split
    · rename_i hlen
      exact hcheck hlen (List.take_prefix ..)
    · rename_i hlen
      rcases slRecvEagain_cases MAX_EAGAIN_RETRIES (HTTP_HEADER_SIZE - (s.stream.take n).length)
        ⟨s.stream.drop n, answers⟩ with h' | ⟨m, answers', hm, h'⟩
      · have hle : (s.stream.take n).length ≤ HTTP_HEADER_SIZE :=
          Nat.le_trans (List.length_take_le ..) hn
        have hneg : (recvEagain (HTTP_HEADER_SIZE - (s.stream.take n).length)
          ⟨s.stream.drop n, answers⟩).len < 0 := h'.1
        have hsize : HTTP_HEADER_SIZE = 12 := rfl
        rw [secondChance]
        split
        · rfl
        · rw [if_pos (by omega)]
      · rw [recvEagain, h', secondChance_took]
        split
        · rename_i hsum
          dsimp only
          rw [overwrite_zero_overwrite]
          refine hcheck (by rw [List.length_append]; exact hsum) ?_
          rw [← List.take_add]
          exact List.take_prefix ..
        · rfl

/-! ## Receives that give what is asked for -/

/-- After `k` times `SL_EAGAIN` no call gives up, and each gives two bytes at least. -/
def Prompt : Nat → List Answer → Prop
  | _, [] => True
  | k, .again :: answers => k + 1 < MAX_EAGAIN_RETRIES ∧ Prompt (k + 1) answers
  | _, .fail _ :: _ => False
  | _, .gives n :: answers => 1 ≤ n ∧ Prompt 0 answers

/-- The `len` bytes of the status come at once, or in two parts where `parts` allows that, and what
follows is prompt. -/
def PromptStatus : (parts : Bool) → (len : Nat) → Nat → List Answer → Prop
  | _, _, _, [] => True
  | parts, len, k, .again :: answers =>
    k + 1 < MAX_EAGAIN_RETRIES ∧ PromptStatus parts len (k + 1) answers
  | _, _, _, .fail _ :: _ => False
  | parts, len, _, .gives n :: answers =>
    if len ≤ n + 1 then Prompt 0 answers
    else parts = true ∧ PromptStatus false (len - (n + 1)) 0 answers

theorem slRecvEagain_again {maxEagain len : Nat} (stream : List UInt8) (answers : List Answer)
    (hmax : 0 < maxEagain) :
    slRecvEagain (maxEagain + 1) len ⟨stream, .again :: answers⟩ =
      slRecvEagain maxEagain len ⟨stream, answers⟩ := by
  rw [slRecvEagain, if_neg (by rintro (h | h); exacts [h rfl, by omega])]
  rfl

theorem slRecvEagain_retry {k len : Nat} (stream : List UInt8) (answers : List Answer)
    (hk : k + 1 < MAX_EAGAIN_RETRIES) :
    slRecvEagain (MAX_EAGAIN_RETRIES - k) len ⟨stream, .again :: answers⟩ =
      slRecvEagain (MAX_EAGAIN_RETRIES - (k + 1)) len ⟨stream, answers⟩ := by
  have hmax : MAX_EAGAIN_RETRIES - k = MAX_EAGAIN_RETRIES - (k + 1) + 1 := by omega
  rw [hmax, slRecvEagain_again stream answers (by omega)]

theorem slRecvEagain_took {maxEagain len n : Nat} {s : Sock} {answers : List Answer}
    (h : slRecv len s = s.take n answers) : slRecvEagain maxEagain len s = s.take n answers := by
  cases maxEagain with
  | zero => exact h
  | succ maxEagain =>
    rw [slRecvEagain, h, if_pos]
    refine .inl ?_
    rw [Sock.take_len]
    unfold SL_EAGAIN
    omega

theorem recv_prompt {len k : Nat} (hlen : len ≤ 2) {answers : List Answer} (h : Prompt k answers)
    (hk : k < MAX_EAGAIN_RETRIES) (stream : List UInt8) :
    ∃ answers', Prompt 0 answers' ∧
      slRecvEagain (MAX_EAGAIN_RETRIES - k) len ⟨stream, answers⟩ =
        (Sock.mk stream answers).take len answers' := by
  induction answers generalizing k with
  | nil => exact ⟨[], trivial, slRecvEagain_took rfl⟩
  | cons answer answers ih =>
    cases answer with
    | again =>
      obtain ⟨answers', hp, hrecv⟩ := ih h.2 h.1
      refine ⟨answers', hp, ?_⟩
      rw [slRecvEagain_retry stream answers h.1, hrecv]
      rfl
    | fail error => exact h.elim
    | gives n =>
      refine ⟨answers, h.2, slRecvEagain_took ?_⟩
      have hn := h.1
      rw [slRecv]
      dsimp only
      rw [Nat.min_eq_left (by omega)]

theorem recv_status {parts : Bool} {len k : Nat} {answers : List Answer}
    (h : PromptStatus parts len k answers) (hk : k < MAX_EAGAIN_RETRIES) (stream : List UInt8) :
    ∃ n answers', slRecvEagain (MAX_EAGAIN_RETRIES - k) len ⟨stream, answers⟩ =
        (Sock.mk stream answers).take n answers' ∧
      (n = len ∧ Prompt 0 answers' ∨
        parts = true ∧ n < len ∧ PromptStatus false (len - n) 0 answers') := by
  induction answers generalizing k with
  | nil => exact ⟨len, [], slRecvEagain_took rfl, .inl ⟨rfl, trivial⟩⟩
  | cons answer answers ih =>
    cases answer with
    | again =>
      obtain ⟨n, answers', hrecv, hp⟩ := ih h.2 h.1
      refine ⟨n, answers', ?_, hp⟩
      rw [slRecvEagain_retry stream answers h.1, hrecv]
      rfl
    | fail error => exact h.elim
    | gives n =>
      rw [PromptStatus] at h
      split at h
      · rename_i hn
        refine ⟨len, answers, slRecvEagain_took ?_, .inl ⟨rfl, h⟩⟩
        rw [slRecv]
        dsimp only
        rw [Nat.min_eq_left hn]
      · rename_i hn
        refine ⟨n + 1, answers, slRecvEagain_took ?_, .inr ⟨h.1, by omega, h.2⟩⟩
        rw [slRecv]
        dsimp only
        rw [Nat.min_eq_right (by omega)]

theorem httpSkipHeaders_status (headerString : List UInt8) {status t : List UInt8}
    {answers : List Answer} (hlen : status.length = HTTP_HEADER_SIZE)
    (hok : status.drop 9 = HTTP_HEADER_OK) (hp : PromptStatus true HTTP_HEADER_SIZE 0 answers) :
    ∃ answers', Prompt 0 answers' ∧
      httpSkipHeaders headerString ⟨status ++ t, answers⟩ =
        skipLoop (HTTP_MAX_RETRIES + 2) (overwrite headerString 0 status) ⟨t, answers'⟩ := by
  have hcheck : ∀ s, checkStatus (overwrite headerString 0 status) s =
      skipLoop (HTTP_MAX_RETRIES + 2) (overwrite headerString 0 status) s := by
    intro s
    rw [checkStatus, if_neg]
    rw [drop_take_status, ← hlen, take_overwrite_zero, hok]
    exact not_not_intro rfl
  have htake : (status ++ t).take HTTP_HEADER_SIZE = status := List.take_left' hlen
  have hdrop : (status ++ t).drop HTTP_HEADER_SIZE = t := List.drop_left' hlen
  obtain ⟨n, answers', hrecv, ⟨rfl, hp'⟩ | ⟨-, hn, hp'⟩⟩ := recv_status hp (by decide) (status ++ t)
  · refine ⟨answers', hp', ?_⟩
    rw [httpSkipHeaders_took hrecv]
    dsimp only
    rw [htake, hdrop, if_pos hlen, hcheck]
  · have hpart : ((status ++ t).take n).length = n := by
      rw [List.length_take, List.length_append, hlen]
      omega
    obtain ⟨m, answers'', hrecv', ⟨rfl, hp''⟩ | ⟨hfalse, -⟩⟩ :=
      recv_status hp' (by decide) ((status ++ t).drop n)
    · refine ⟨answers'', hp'', ?_⟩
      have hsize : n + (HTTP_HEADER_SIZE - n) = HTTP_HEADER_SIZE := by omega
      have hall : (status ++ t).take n ++ ((status ++ t).drop n).take (HTTP_HEADER_SIZE - n) =
          status := by rw [← List.take_add, hsize, htake]
      have hsum : n + (((status ++ t).drop n).take (HTTP_HEADER_SIZE - n)).length =
          HTTP_HEADER_SIZE := by
        have hlength := congrArg List.length hall
        rwa [List.length_append, hpart, hlen] at hlength
      have hstring := overwrite_zero_overwrite headerString ((status ++ t).take n)
        (((status ++ t).drop n).take (HTTP_HEADER_SIZE - n))
      rw [hpart, hall] at hstring
      rw [httpSkipHeaders_took hrecv]
      dsimp only
      rw [hpart, if_neg (by omega), recvEagain, ← Nat.sub_zero MAX_EAGAIN_RETRIES, hrecv',
        secondChance_took]
      dsimp only
      rw [if_pos hsum, hstring, List.drop_drop, hsize, hdrop, hcheck]
    · cases hfalse

/-! ## The loop -/

/-- The loop gets from `t` to `u` in so many turns, without an end of the headers. -/
inductive Reads : Nat → List UInt8 → List UInt8 → Prop
  | here (t : List UInt8) : Reads 0 t t
  | pair {n : Nat} {x y : UInt8} {t u : List UInt8} (hcr : [x, y] ≠ crlf) (hlf : [x, y] ≠ lfcr)
      (h : Reads n t u) : Reads (n + 1) (x :: y :: t) u
  | line {n : Nat} {x y : UInt8} {t u : List UInt8} (hcr : [x, y] ≠ crlf) (h : Reads n t u) :
      Reads (n + 1) (crlf ++ x :: y :: t) u
  | half {n : Nat} {x : UInt8} {t u : List UInt8} (hlf : x ≠ 10) (h : Reads n t u) :
      Reads (n + 1) (lfcr ++ x :: t) u

/-- The two ways in which the loop sees an end: at `t` the headers end, and `u` is behind them. -/
inductive Ends : List UInt8 → List UInt8 → Prop
  | even (u : List UInt8) : Ends (crlf ++ crlf ++ u) u
  | odd (u : List UInt8) : Ends (lfcr ++ 10 :: u) u

section Turns

variable {answers : List Answer} (hp : Prompt 0 answers)

include hp

theorem recv_two (x y : UInt8) (t : List UInt8) : ∃ answers', Prompt 0 answers' ∧
    recvEagain 2 ⟨x :: y :: t, answers⟩ = ⟨2, [x, y], ⟨t, answers'⟩⟩ :=
  recv_prompt (Nat.le_refl 2) hp (by decide) (x :: y :: t)

theorem recv_one (x : UInt8) (t : List UInt8) : ∃ answers', Prompt 0 answers' ∧
    recvEagain 1 ⟨x :: t, answers⟩ = ⟨1, [x], ⟨t, answers'⟩⟩ :=
  recv_prompt (by decide) hp (by decide) (x :: t)

variable (turns : Nat) (headerString : List UInt8)

theorem skipLoop_pair {x y : UInt8} {t : List UInt8} (hcr : [x, y] ≠ crlf) (hlf : [x, y] ≠ lfcr) :
    ∃ headerString' answers', Prompt 0 answers' ∧
      skipLoop (turns + 1) headerString ⟨x :: y :: t, answers⟩ =
        skipLoop turns headerString' ⟨t, answers'⟩ := by
  obtain ⟨answers', hp', hrecv⟩ := recv_two hp x y t
  refine ⟨overwrite headerString 0 [x, y], answers', hp', ?_⟩
  have htake : (overwrite headerString 0 [x, y]).take 2 = [x, y] :=
    take_overwrite_zero headerString [x, y]
  rw [skipLoop]
  simp only [hrecv]
  rw [if_neg (by decide), htake, if_neg hcr, if_neg hlf]

theorem skipLoop_crlf (x y : UInt8) (t : List UInt8) : ∃ headerString' answers', Prompt 0 answers' ∧
    skipLoop (turns + 1) headerString ⟨crlf ++ x :: y :: t, answers⟩ =
      if [x, y] = crlf then (OTA_STATUS_OK, ⟨t, answers'⟩)
      else skipLoop turns headerString' ⟨t, answers'⟩ := by
  obtain ⟨answers', hp', hrecv⟩ := recv_two hp 13 10 (x :: y :: t)
  obtain ⟨answers'', hp'', hrecv'⟩ := recv_two hp' x y t
  refine ⟨overwrite (overwrite headerString 0 [13, 10]) 0 [x, y], answers'', hp'', ?_⟩
  have htake : (overwrite headerString 0 [13, 10]).take 2 = crlf :=
    take_overwrite_zero headerString [13, 10]
  have htake' : (overwrite (overwrite headerString 0 [13, 10]) 0 [x, y]).take 2 = [x, y] :=
    take_overwrite_zero (overwrite headerString 0 [13, 10]) [x, y]
  have hstream : crlf ++ x :: y :: t = 13 :: 10 :: x :: y :: t := rfl
  rw [skipLoop, hstream]
  simp only [hrecv, hrecv', htake, htake', if_true]
  rw [if_neg (by decide)]

theorem skipLoop_lfcr (x : UInt8) (t : List UInt8) : ∃ headerString' answers', Prompt 0 answers' ∧
    skipLoop (turns + 1) headerString ⟨lfcr ++ x :: t, answers⟩ =
      if x = 10 then (OTA_STATUS_OK, ⟨t, answers'⟩)
      else skipLoop turns headerString' ⟨t, answers'⟩ := by
  obtain ⟨answers', hp', hrecv⟩ := recv_two hp 10 13 (x :: t)
  obtain ⟨answers'', hp'', hrecv'⟩ := recv_one hp' x t
  refine ⟨overwrite (overwrite headerString 0 [10, 13]) 0 [x], answers'', hp'', ?_⟩
  have htake : (overwrite headerString 0 [10, 13]).take 2 = lfcr :=
    take_overwrite_zero headerString [10, 13]
  have htake' : (overwrite (overwrite headerString 0 [10, 13]) 0 [x]).take 1 = [x] :=
    take_overwrite_zero (overwrite headerString 0 [10, 13]) [x]
  have hne : lfcr ≠ crlf := by decide
  have hstream : lfcr ++ x :: t = 10 :: 13 :: x :: t := rfl
  rw [skipLoop, hstream]
  simp only [hrecv, hrecv', htake, htake', if_true, List.cons.injEq, and_true]
  rw [if_neg (by decide), if_neg hne]

theorem skipLoop_reads {n : Nat} {t u : List UInt8} (h : Reads n t u) :
    ∃ headerString' answers', Prompt 0 answers' ∧
      skipLoop (turns + n) headerString ⟨t, answers⟩ = skipLoop turns headerString' ⟨u, answers'⟩ := by
  induction h generalizing headerString answers with
  | here t => exact ⟨headerString, answers, hp, rfl⟩
  | pair hcr hlf _ ih =>
    obtain ⟨headerString', answers', hp', hturn⟩ := skipLoop_pair hp _ headerString hcr hlf
    obtain ⟨headerString'', answers'', hp'', hrest⟩ := ih hp' headerString'
    exact ⟨headerString'', answers'', hp'', hturn.trans hrest⟩
  | line hcr _ ih =>
    obtain ⟨headerString', answers', hp', hturn⟩ := skipLoop_crlf hp _ headerString _ _ _
    obtain ⟨headerString'', answers'', hp'', hrest⟩ := ih hp' headerString'
    rw [if_neg hcr] at hturn
    exact ⟨headerString'', answers'', hp'', hturn.trans hrest⟩
  | half hlf _ ih =>
    obtain ⟨headerString', answers', hp', hturn⟩ := skipLoop_lfcr hp _ headerString _ _
    obtain ⟨headerString'', answers'', hp'', hrest⟩ := ih hp' headerString'
    rw [if_neg hlf] at hturn
    exact ⟨headerString'', answers'', hp'', hturn.trans hrest⟩

theorem skipLoop_ends {n : Nat} {t u v : List UInt8} (h : Reads n t u) (he : Ends u v)
    (hturns : n < turns) :
    ∃ answers', skipLoop turns headerString ⟨t, answers⟩ = (OTA_STATUS_OK, ⟨v, answers'⟩) := by
  obtain ⟨m, rfl⟩ : ∃ m, turns = m + 1 + n := ⟨turns - n - 1, by omega⟩
  obtain ⟨headerString', answers', hp', hreads⟩ := skipLoop_reads hp (m + 1) headerString h
  cases he with
  | even =>
    obtain ⟨headerString'', answers'', -, hend⟩ := skipLoop_crlf hp' m headerString' 13 10 v
    rw [if_pos (show [13, 10] = crlf from rfl)] at hend
    exact ⟨answers'', hreads.trans hend⟩
  | odd =>
    obtain ⟨headerString'', answers'', -, hend⟩ := skipLoop_lfcr hp' m headerString' 10 v
    rw [if_pos rfl] at hend
    exact ⟨answers'', hreads.trans hend⟩

end Turns

theorem ends_unique {m n : Nat} {t u u' v v' : List UInt8} (h : Reads m t u) (he : Ends u v)
    (h' : Reads n t u') (he' : Ends u' v') : v = v' := by
  have hp : Prompt 0 [] := trivial
  obtain ⟨answers, hend⟩ := skipLoop_ends hp (m + n + 1) [] h he (by omega)
  obtain ⟨answers', hend'⟩ := skipLoop_ends hp (m + n + 1) [] h' he' (by omega)
  rw [hend] at hend'
  simpa using congrArg (fun r => r.2.stream) hend'

theorem reaches_end (p body : List UInt8) (hfirst : ¬ crlf ++ crlf <:+: p ++ [13, 10, 13]) :
    ∃ n u v, Reads n (p ++ (crlf ++ crlf ++ body)) u ∧ Ends u v ∧ 2 * n ≤ p.length + 1 ∧
      (v = body ∨ u = lfcr ++ 10 :: v) := by
  induction hk : p.length using Nat.strong_induction_on generalizing p with
  | _ k ih =>
    -- The first turn takes `q`, and the others read on from `r`.
    have hrest : ∀ q r : List UInt8, p = q ++ r → 0 < q.length →
        ∃ n u v, Reads n (r ++ (crlf ++ crlf ++ body)) u ∧ Ends u v ∧ 2 * n ≤ r.length + 1 ∧
          (v = body ∨ u = lfcr ++ 10 :: v) := by
      rintro q r rfl hq
      refine ih r.length ?_ r (fun hin => hfirst (hin.trans ?_)) rfl
      · rw [← hk, List.length_append]
        omega
      · rw [List.append_assoc]
        exact (List.suffix_append q _).isInfix
    subst hk
    rcases p with _ | ⟨a, _ | ⟨b, p⟩⟩
    · exact ⟨0, _, body, .here _, .even body, by omega, .inl rfl⟩
    · by_cases ha : a = 10
      · subst ha
        exact ⟨0, _, 13 :: 10 :: body, .here _, .odd _, by omega, .inr rfl⟩
      · have hcr : [a, 13] ≠ crlf := by simp [crlf]
        have hlf : [a, 13] ≠ lfcr := by simp [lfcr, ha]
        exact ⟨1, lfcr ++ 10 :: body, body, .pair hcr hlf (.here _), .odd body, by simp, .inl rfl⟩
    · by_cases hcr : [a, b] = crlf
      · obtain ⟨rfl, rfl⟩ : a = 13 ∧ b = 10 := by simpa [crlf] using hcr
        rcases p with _ | ⟨c, _ | ⟨d, p⟩⟩
        · exact absurd ⟨[], [13], rfl⟩ hfirst
        · have hne : [c, 13] ≠ crlf := by simp [crlf]
          exact ⟨1, lfcr ++ 10 :: body, body, .line hne (.here _), .odd body, by simp, .inl rfl⟩
        · have hne : [c, d] ≠ crlf := by
            intro hcd
            obtain ⟨rfl, rfl⟩ : c = 13 ∧ d = 10 := by simpa [crlf] using hcd
            exact hfirst ⟨[], p ++ [13, 10, 13], rfl⟩
          obtain ⟨n, u, v, hreads, hends, hn, hv⟩ := hrest [13, 10, c, d] p rfl (by simp)
          refine ⟨n + 1, u, v, .line hne hreads, hends, ?_, hv⟩
          simp only [List.length_cons]
          omega
      · by_cases hlf : [a, b] = lfcr
        · obtain ⟨rfl, rfl⟩ : a = 10 ∧ b = 13 := by simpa [lfcr] using hlf
          rcases p with _ | ⟨c, p⟩
          · exact ⟨1, lfcr ++ 10 :: body, body, .half (by decide) (.here _), .odd body, by simp,
              .inl rfl⟩
          · by_cases hc : c = 10
            · subst hc
              exact ⟨0, _, _, .here _, .odd _, by omega, .inr rfl⟩
            · obtain ⟨n, u, v, hreads, hends, hn, hv⟩ := hrest [10, 13, c] p rfl (by simp)
              refine ⟨n + 1, u, v, .half hc hreads, hends, ?_, hv⟩
              simp only [List.length_cons]
              omega
        · obtain ⟨n, u, v, hreads, hends, hn, hv⟩ := hrest [a, b] p rfl (by simp)
          refine ⟨n + 1, u, v, .pair hcr hlf hreads, hends, ?_, hv⟩
          simp only [List.length_cons]
          omega

/-- A response with another status is an error. Where every receive gives what is asked for, the headers
of the others are skipped exactly if and only if the loop meets no LF CR LF before their end. -/
theorem headers_skipped (headerString : List UInt8) (s : Sock) :
    ((s.stream.drop 9).take 3 ≠ HTTP_HEADER_OK →
      (httpSkipHeaders headerString s).1 = OTA_STATUS_ERROR) ∧
    ∀ status pre body, s.stream = status ++ (pre ++ (crlf ++ crlf ++ body)) →
      status.length = HTTP_HEADER_SIZE → status.drop 9 = HTTP_HEADER_OK →
      ¬ crlf ++ crlf <:+: pre ++ [13, 10, 13] → pre.length ≤ 2 * (HTTP_MAX_RETRIES + 1) →
      PromptStatus true HTTP_HEADER_SIZE 0 s.answers →
      ((∃ answers, httpSkipHeaders headerString s = (OTA_STATUS_OK, ⟨body, answers⟩)) ↔
        ∀ n u, Reads n (pre ++ (crlf ++ crlf ++ body)) (lfcr ++ 10 :: u) → u = body) := by
  refine ⟨httpSkipHeaders_bad headerString, ?_⟩
  obtain ⟨stream, answers⟩ := s
  rintro status pre body rfl hlen hok hfirst hpre hp
  obtain ⟨answers', hp', hskip⟩ := httpSkipHeaders_status headerString hlen hok hp
  obtain ⟨n, u, v, hreads, hends, hn, hv⟩ := reaches_end pre body hfirst
  obtain ⟨answers'', hend⟩ := skipLoop_ends hp' (HTTP_MAX_RETRIES + 2)
    (overwrite headerString 0 status) hreads hends (by omega)
  rw [hskip, hend]
  have hleft : (∃ a, (OTA_STATUS_OK, Sock.mk v answers'') = (OTA_STATUS_OK, ⟨body, a⟩)) ↔ v = body := by
    simp
  rw [hleft]
  constructor
  · rintro rfl m w hw
    exact ends_unique hw (.odd w) hreads hends
  · intro hall
    rcases hv with hv | rfl
    · exact hv
    · exact hall n v hreads

def status200 : List UInt8 := [72, 84, 84, 80, 47, 49, 46, 49, 32, 50, 48, 48]

/-- The first CR LF is read in two halves, the second in one piece. -/
def threeLines : List UInt8 := [65, 13, 10, 66, 13, 10, 67]

theorem headers_skipped_three : ∃ answers,
    httpSkipHeaders [] ⟨status200 ++ (threeLines ++ (crlf ++ crlf ++ [68])), []⟩ =
      (OTA_STATUS_OK, ⟨[68], answers⟩) :=
  ((headers_skipped [] ⟨status200 ++ (threeLines ++ (crlf ++ crlf ++ [68])), []⟩).2 status200 threeLines
    [68] rfl rfl rfl (by decide) (by decide) trivial).2
    fun _ u hu => ends_unique hu (.odd u) (.pair (by decide) (by decide) (.pair (by decide) (by decide)
      (.line (by decide) (.here _)))) (.odd [68])

/-- When only one byte of the second CR LF has come, the other is left to the file: the LF that is
missing is still there from the first. -/
theorem one_byte_shifts :
    httpSkipHeaders (List.replicate 13 0)
        ⟨status200 ++ ([] ++ (crlf ++ crlf ++ [66])), [.gives 11, .gives 1, .gives 0]⟩ =
      (OTA_STATUS_OK, ⟨[10, 66], []⟩) := by
  rfl

end SimpleLink.Ota
