import SimpleLink.Ota.OtaHttp
import SimpleLink.Lib.Run

/-!
# The file of a download (`CdnClient.c`)

`CdnClient_Run` with the bytes: what is received into `recv_buf`, and what of it is written where. It is
called until it says something else than that it goes on.
-/

namespace SimpleLink.Ota

open Lib

abbrev HTTP_RECV_BUF_LEN : Nat := 1440
abbrev ALIGNMENT_READ_MASK : Nat := 0x0F

/-- The client, with the server's socket and what the functions of the file still answer (`0` when
nothing is given). -/
structure Download where
  cdn : Cdn
  sock : Sock
  recvBuf : List UInt8
  files : List Int

/-- A call of `pWriteFile`. -/
structure Write where
  offset : Int
  len : Int
  buf : List UInt8

def Write.bytes (w : Write) : List UInt8 := w.buf.take w.len.toNat

inductive FileEv where
  | opened
  | wrote (w : Write)
  /-- `pCloseFile` succeeds: the file is valid. -/
  | closed
  | aborted

def Download.answer (d : Download) : Int := d.files.headD 0

def Download.answered (d : Download) : Download := { d with files := d.files.tail }

def Download.goto (d : Download) (state : CdnState) : Download :=
  { d with cdn := { d.cdn with state := state } }

/-- So many bytes are received behind the first `pos` of the buffer. -/
def Download.received (d : Download) (pos : Nat) (r : Received) : Download :=
  { d with sock := r.sock, recvBuf := overwrite d.recvBuf pos r.bytes }

def Download.abort (d : Download) (status : Int) : Download × Int × List FileEv :=
  (d.goto .idle, status, [.aborted])

def Download.close (d : Download) (w : Write) : Download × Int × List FileEv :=
  if d.answer < 0 then (d.answered.goto .idle, OTA_STATUS_ERROR, [.wrote w, .aborted])
  else (d.answered.goto .idle, CDN_STATUS_DOWNLOAD_DONE, [.wrote w, .closed])

def Download.save (d : Download) (bytesReceived : Int) (eof : Bool) :
    Download × Int × List FileEv :=
  let w : Write := ⟨d.cdn.totalBytesReceived, bytesReceived, d.recvBuf⟩
  if d.answer < 0 then d.answered.abort CDN_STATUS_ERROR_SAVE_CHUNK
  else
    let d := { d.answered with
      cdn := { d.cdn with totalBytesReceived := d.cdn.totalBytesReceived + bytesReceived } }
    if eof then d.close w else (d, CDN_STATUS_CONTINUE, [.wrote w])

/-- How many bytes are missing so that the length is aligned. -/
def alignLen (bytesReceived : Nat) : Nat := ALIGNMENT_READ_MASK + 1 - bytesReceived % 16

theorem alignLen_eq (n : Nat) : alignLen n = 16 - n % 16 := rfl

theorem add_alignLen_le {n : Nat} (h : n ≤ HTTP_RECV_BUF_LEN) (hmod : n % 16 ≠ 0) :
    n + alignLen n ≤ HTTP_RECV_BUF_LEN := by
  have hbuf : HTTP_RECV_BUF_LEN = 1440 := rfl
  rw [alignLen_eq]
  omega

/-- `_RecvFileChunk`. -/
def Download.recv (d : Download) (len : Nat) : Received := recvEagain len d.sock

/-- `CdnClient_Run`. -/
def Download.run (d : Download) : Download × Int × List FileEv :=
  match d.cdn.state with
  | .cdnServerConnected =>
    if d.answer < 0 then (d.answered.goto .idle, CDN_STATUS_ERROR_OPEN_FILE, [])
    else (d.answered.goto .fileDownloadAndSave, CDN_STATUS_CONTINUE, [.opened])
  | .fileDownloadAndSave =>
    let r := d.recv HTTP_RECV_BUF_LEN
    let d := d.received 0 r
    if r.len ≤ 0 then d.abort (recvError r.len)
    else if d.cdn.fileSize ≤ d.cdn.totalBytesReceived + r.len then
      d.save (d.cdn.fileSize - d.cdn.totalBytesReceived) true
    else if r.len.toNat % 16 ≠ 0 then
      let r' := d.recv (alignLen r.len.toNat)
      let d := d.received r.len.toNat r'
      if r'.len ≤ 0 then d.abort (recvError r'.len)
      else d.save (r.len + r'.len) false
    else d.save r.len false
  | .idle => (d, CDN_STATUS_ERROR, [])

/-- `CdnClient_Run` is called again as long as it says that it goes on; so often at most. -/
def Download.calls : Nat → Download → Option (Int × List FileEv)
  | 0, _ => none
  | n + 1, d =>
    match d.run with
    | (d', status, evs) =>
      if status = CDN_STATUS_CONTINUE then
        (Download.calls n d').map fun r => (r.1, evs ++ r.2)
      else some (status, evs)

/-! ## One call -/

section Run

variable {d : Download} (hd : d.cdn.state = .fileDownloadAndSave)

include hd

theorem Download.run_fails (hr : (d.recv HTTP_RECV_BUF_LEN).len ≤ 0) :
    d.run = (d.received 0 (d.recv HTTP_RECV_BUF_LEN)).abort
      (recvError (d.recv HTTP_RECV_BUF_LEN).len) := by
  simp only [run, hd]
  rw [if_pos hr]

theorem Download.run_last (hr : 0 < (d.recv HTTP_RECV_BUF_LEN).len)
    (hend : d.cdn.fileSize ≤ d.cdn.totalBytesReceived + (d.recv HTTP_RECV_BUF_LEN).len) :
    d.run = (d.received 0 (d.recv HTTP_RECV_BUF_LEN)).save
      (d.cdn.fileSize - d.cdn.totalBytesReceived) true := by
  simp only [run, hd]
  rw [if_neg (by omega)]
  exact if_pos hend

theorem Download.run_aligned (hr : 0 < (d.recv HTTP_RECV_BUF_LEN).len)
    (hend : d.cdn.totalBytesReceived + (d.recv HTTP_RECV_BUF_LEN).len < d.cdn.fileSize)
    (hmod : (d.recv HTTP_RECV_BUF_LEN).len.toNat % 16 = 0) :
    d.run = (d.received 0 (d.recv HTTP_RECV_BUF_LEN)).save (d.recv HTTP_RECV_BUF_LEN).len false := by
  have hgo : ¬ (d.received 0 (d.recv HTTP_RECV_BUF_LEN)).cdn.fileSize ≤
      (d.received 0 (d.recv HTTP_RECV_BUF_LEN)).cdn.totalBytesReceived +
        (d.recv HTTP_RECV_BUF_LEN).len := Int.not_le.2 hend
  simp only [run, hd]
  rw [if_neg (by omega), if_neg hgo, if_neg (not_not_intro hmod)]

theorem Download.run_padded (hr : 0 < (d.recv HTTP_RECV_BUF_LEN).len)
    (hend : d.cdn.totalBytesReceived + (d.recv HTTP_RECV_BUF_LEN).len < d.cdn.fileSize)
    (hmod : (d.recv HTTP_RECV_BUF_LEN).len.toNat % 16 ≠ 0) {r' : Received}
    (hr' : (d.received 0 (d.recv HTTP_RECV_BUF_LEN)).recv
      (alignLen (d.recv HTTP_RECV_BUF_LEN).len.toNat) = r') :
    d.run = if r'.len ≤ 0 then
        ((d.received 0 (d.recv HTTP_RECV_BUF_LEN)).received
          (d.recv HTTP_RECV_BUF_LEN).len.toNat r').abort (recvError r'.len)
      else ((d.received 0 (d.recv HTTP_RECV_BUF_LEN)).received
        (d.recv HTTP_RECV_BUF_LEN).len.toNat r').save ((d.recv HTTP_RECV_BUF_LEN).len + r'.len) false := by
  have hgo : ¬ (d.received 0 (d.recv HTTP_RECV_BUF_LEN)).cdn.fileSize ≤
      (d.received 0 (d.recv HTTP_RECV_BUF_LEN)).cdn.totalBytesReceived +
        (d.recv HTTP_RECV_BUF_LEN).len := Int.not_le.2 hend
  simp only [run, hd]
  rw [if_neg (by omega), if_neg hgo, if_pos hmod]
  simp only [hr']

end Run

/-! ## Receives without errors -/

/-- After `k` times `SL_EAGAIN` no call fails or gives up; how many bytes each gives is free. -/
def Patient : Nat → List Answer → Prop
  | _, [] => True
  | k, .again :: answers => k + 1 < MAX_EAGAIN_RETRIES ∧ Patient (k + 1) answers
  | _, .fail _ :: _ => False
  | _, .gives _ :: answers => Patient 0 answers

theorem recv_patient {len k : Nat} (hlen : 0 < len) {answers : List Answer} (h : Patient k answers)
    (hk : k < MAX_EAGAIN_RETRIES) (stream : List UInt8) :
    ∃ n answers', 0 < n ∧ n ≤ len ∧ Patient 0 answers' ∧
      slRecvEagain (MAX_EAGAIN_RETRIES - k) len ⟨stream, answers⟩ =
        (Sock.mk stream answers).take n answers' := by
  induction answers generalizing k with
  | nil => exact ⟨len, [], hlen, Nat.le_refl len, trivial, slRecvEagain_took rfl⟩
  | cons answer answers ih =>
    cases answer with
    | again =>
      obtain ⟨n, answers', hn, hle, hp, hrecv⟩ := ih h.2 h.1
      refine ⟨n, answers', hn, hle, hp, ?_⟩
      rw [slRecvEagain_retry stream answers h.1, hrecv]
      rfl
    | fail error => exact h.elim
    | gives n =>
      exact ⟨min len (n + 1), answers, by omega, Nat.min_le_left .., h, slRecvEagain_took rfl⟩

def Willing (files : List Int) : Prop := ∀ status ∈ files, 0 ≤ status

theorem Willing.answer {d : Download} (h : Willing d.files) : ¬ d.answer < 0 := by
  obtain ⟨cdn, sock, recvBuf, files⟩ := d
  cases files with
  | nil => exact Int.lt_irrefl 0
  | cons status files => exact Int.not_lt.2 (h status List.mem_cons_self)

theorem Willing.answered {d : Download} (h : Willing d.files) : Willing d.answered.files :=
  fun status hs => h status (List.mem_of_mem_tail hs)

/-- The first `total` bytes of the body have been received, and no function of the file will fail. -/
structure Download.At (d : Download) (size : Nat) (body : List UInt8) (total : Nat) : Prop where
  state : d.cdn.state = .fileDownloadAndSave
  fileSize : d.cdn.fileSize = size
  totalBytesReceived : d.cdn.totalBytesReceived = total
  stream : d.sock.stream = body.drop total
  patient : Patient 0 d.sock.answers
  files : Willing d.files

/-! ## A file that is right -/

def Contiguous : Int → List Write → Prop
  | _, [] => True
  | pos, w :: ws => w.offset = pos ∧ w.len = w.bytes.length ∧ Contiguous (pos + w.len) ws

/-- The writes put the bytes from `pos` to the end of the file; each but the last is aligned, and none
goes past the end of the file or of the buffer. -/
structure Exact (size : Nat) (body : List UInt8) (pos : Nat) (ws : List Write) : Prop where
  bytes : (ws.map Write.bytes).flatten = (body.take size).drop pos
  contiguous : Contiguous pos ws
  aligned : ∀ w ∈ ws.dropLast, (16 : Int) ∣ w.offset ∧ (16 : Int) ∣ w.offset + w.len
  within : ∀ w ∈ ws, w.offset + w.len ≤ size ∧ w.len ≤ HTTP_RECV_BUF_LEN

/-- A write puts the next bytes of the body. -/
structure Next (body : List UInt8) (pos : Nat) (w : Write) : Prop where
  offset : w.offset = pos
  len : w.len = w.bytes.length
  bytes : w.bytes = (body.drop pos).take w.bytes.length
  buffer : w.bytes.length ≤ HTTP_RECV_BUF_LEN

theorem Next.bytes_within {size : Nat} {body : List UInt8} {pos : Nat} {w : Write}
    (hw : Next body pos w) (hle : pos + w.bytes.length ≤ size) :
    w.bytes = ((body.take size).drop pos).take w.bytes.length := by
  rw [List.drop_take, List.take_take, Nat.min_eq_left (by omega)]
  exact hw.bytes

theorem exact_cons {size : Nat} {body : List UInt8} {pos : Nat} {w : Write} {ws : List Write}
    (hw : Next body pos w) (hws : ws ≠ []) (hpos : 16 ∣ pos) :
    Exact size body pos (w :: ws) ↔
      16 ∣ w.bytes.length ∧ pos + w.bytes.length ≤ size ∧ Exact size body (pos + w.bytes.length) ws := by
  have hoffset := hw.offset
  have hlen := hw.len
  have hbuffer := hw.buffer
  have hplace : (pos : Int) + w.len = (pos + w.bytes.length : Nat) := by
    rw [hlen]
    exact (Int.natCast_add ..).symm
  constructor
  · intro h
    have haligned := (h.aligned w (by simp [List.dropLast_cons_of_ne_nil hws])).2
    have hwithin := (h.within w List.mem_cons_self).1
    rw [hoffset, hplace] at haligned hwithin
    have hle : pos + w.bytes.length ≤ size := by exact_mod_cast hwithin
    have hdvd : 16 ∣ w.bytes.length := by omega
    refine ⟨hdvd, hle, ?_, ?_, fun v hv => h.aligned v ?_, fun v hv => h.within v (.tail _ hv)⟩
    · have hbytes := h.bytes
      rw [List.map_cons, List.flatten_cons] at hbytes
      rw [← List.drop_drop, ← hbytes, List.drop_left]
    · rw [← hplace]
      exact h.contiguous.2.2
    · rw [List.dropLast_cons_of_ne_nil hws]
      exact .tail _ hv
  · rintro ⟨hdvd, hle, h⟩
    refine ⟨?_, ⟨hoffset, hlen, ?_⟩, ?_, ?_⟩
    · have happend := List.take_append_drop w.bytes.length ((body.take size).drop pos)
      rw [← hw.bytes_within hle] at happend
      rw [List.map_cons, List.flatten_cons, h.bytes, ← List.drop_drop, happend]
    · rw [hplace]
      exact h.contiguous
    · rw [List.dropLast_cons_of_ne_nil hws]
      intro v hv
      rcases List.mem_cons.1 hv with rfl | hv
      · rw [hoffset, hlen]
        omega
      · exact h.aligned v hv
    · intro v hv
      rcases List.mem_cons.1 hv with rfl | hv
      · rw [hoffset, hlen]
        omega
      · exact h.within v hv

theorem exact_last {size : Nat} {body : List UInt8} {pos : Nat} {w : Write}
    (hsize : size ≤ body.length) (hw : Next body pos w) (hend : pos + w.bytes.length = size) :
    Exact size body pos [w] := by
  have hoffset := hw.offset
  have hlen := hw.len
  have hbuffer := hw.buffer
  refine ⟨?_, ⟨hoffset, hlen, trivial⟩, by simp, ?_⟩
  · have htake : ((body.take size).drop pos).length ≤ w.bytes.length := by
      rw [List.length_drop, List.length_take]
      omega
    rw [List.map_singleton, List.flatten_singleton]
    conv_lhs => rw [hw.bytes_within (Nat.le_of_eq hend)]
    exact List.take_of_length_le htake
  · intro v hv
    rw [List.mem_singleton.1 hv, hoffset, hlen]
    omega

/-! ## A call of a download that goes well -/

/-- Where the first receive is not aligned, the second gives all the bytes that are missing, and the file
is longer than that, or as long and there are more bytes behind it. -/
def Download.AlignsWell (d : Download) : Prop :=
  d.cdn.state = .fileDownloadAndSave →
    let r := d.recv HTTP_RECV_BUF_LEN
    let r' := (d.received 0 r).recv (alignLen r.len.toNat)
    0 < r.len → d.cdn.totalBytesReceived + r.len < d.cdn.fileSize → r.len.toNat % 16 ≠ 0 →
      r'.len = alignLen r.len.toNat ∧
        (d.cdn.totalBytesReceived + r.len + r'.len < d.cdn.fileSize ∨
          d.cdn.totalBytesReceived + r.len + r'.len = d.cdn.fileSize ∧ r'.sock.stream ≠ [])

theorem Download.alignsWell_iff {d : Download} {len : Nat} {r' : Received}
    (hd : d.cdn.state = .fileDownloadAndSave) (hlen : (d.recv HTTP_RECV_BUF_LEN).len = len)
    (hpos : 0 < len) (hgo : d.cdn.totalBytesReceived + len < d.cdn.fileSize) (hmod : len % 16 ≠ 0)
    (hr' : (d.received 0 (d.recv HTTP_RECV_BUF_LEN)).recv (alignLen len) = r') :
    d.AlignsWell ↔ r'.len = alignLen len ∧
      (d.cdn.totalBytesReceived + len + r'.len < d.cdn.fileSize ∨
        d.cdn.totalBytesReceived + len + r'.len = d.cdn.fileSize ∧ r'.sock.stream ≠ []) := by
  unfold AlignsWell
  dsimp only
  rw [hlen, Int.toNat_natCast, hr']
  exact ⟨fun h => h hd (by omega) hgo hmod, fun h _ _ _ _ => h⟩

theorem recv_next {d : Download} {body : List UInt8} {pos : Nat}
    (hstream : d.sock.stream = body.drop pos) (hp : Patient 0 d.sock.answers) (len : Nat)
    (hlen : 0 < len) :
    ∃ a answers, a <+: body.drop pos ∧ a.length ≤ len ∧ (pos < body.length → 0 < a.length) ∧
      Patient 0 answers ∧
      d.recv len = ⟨a.length, a, ⟨body.drop (pos + a.length), answers⟩⟩ := by
  obtain ⟨n, answers, hn, hle, hp, hrecv⟩ := recv_patient hlen hp (by decide) d.sock.stream
  have htake : ((body.drop pos).take n).length = min n (body.length - pos) := by
    rw [List.length_take, List.length_drop]
  have hrest : body.drop (pos + n) = body.drop (pos + ((body.drop pos).take n).length) := by
    rw [htake]
    by_cases hshort : n ≤ body.length - pos
    · rw [Nat.min_eq_left hshort]
    · rw [List.drop_eq_nil_of_le (by omega), List.drop_eq_nil_of_le (by omega)]
  refine ⟨(body.drop pos).take n, answers, List.take_prefix .., by omega, by omega, hp, ?_⟩
  rw [← hrest]
  have hr : d.recv len = (Sock.mk d.sock.stream d.sock.answers).take n answers := hrecv
  rw [hr, Sock.take, hstream, List.drop_drop]

theorem Download.save_ok {d : Download} (hfiles : Willing d.files) (bytesReceived : Int) :
    d.save bytesReceived false =
      ({ d.answered with cdn := { d.cdn with
          totalBytesReceived := d.cdn.totalBytesReceived + bytesReceived } },
        CDN_STATUS_CONTINUE, [.wrote ⟨d.cdn.totalBytesReceived, bytesReceived, d.recvBuf⟩]) := by
  rw [save]
  exact if_neg hfiles.answer

theorem Download.save_eof_ok {d : Download} (hfiles : Willing d.files) (bytesReceived : Int) :
    ∃ d', d'.cdn.state = .idle ∧ d.save bytesReceived true = (d', CDN_STATUS_DOWNLOAD_DONE,
      [.wrote ⟨d.cdn.totalBytesReceived, bytesReceived, d.recvBuf⟩, .closed]) := by
  have hsave : d.save bytesReceived true = ({ d.answered with cdn := { d.cdn with
      totalBytesReceived := d.cdn.totalBytesReceived + bytesReceived } } : Download).close
        ⟨d.cdn.totalBytesReceived, bytesReceived, d.recvBuf⟩ := by
    rw [save]
    dsimp only
    rw [if_neg hfiles.answer, if_pos rfl]
  refine ⟨_, rfl, hsave.trans (if_neg (Willing.answer (d := d.answered) hfiles.answered))⟩

theorem next_of_buf {body a : List UInt8} {total m : Nat} (recvBuf : List UInt8)
    (ha : a <+: body.drop total) (hm : m ≤ a.length) (hle : m ≤ HTTP_RECV_BUF_LEN) :
    ∃ w, w = Write.mk total m (overwrite recvBuf 0 a) ∧ Next body total w ∧ w.bytes.length = m := by
  have hbytes : (Write.mk total m (overwrite recvBuf 0 a)).bytes = (body.drop total).take m := by
    have htake : (overwrite recvBuf 0 a).take m = a.take m := by
      rw [← Nat.min_eq_left hm, ← List.take_take, take_overwrite_zero, Nat.min_eq_left hm]
    unfold Write.bytes
    dsimp only
    rw [Int.toNat_natCast, htake, List.prefix_iff_eq_take.1 ha, List.take_take, Nat.min_eq_left hm]
  have hlen : ((body.drop total).take m).length = m := by
    have hpre := ha.length_le
    rw [List.length_take]
    omega
  refine ⟨_, rfl, ⟨rfl, ?_, ?_, ?_⟩, ?_⟩ <;> rw [hbytes, hlen]
  exact hle

theorem Download.At.save_next {d e : Download} {size total : Nat} {body b : List UInt8}
    (h : d.At size body total) (hcdn : e.cdn = d.cdn) (hfiles : Willing e.files)
    (hbuf : e.recvBuf = overwrite d.recvBuf 0 b) (hb : b <+: body.drop total)
    (hle : b.length ≤ HTTP_RECV_BUF_LEN) (hstream : e.sock.stream = body.drop (total + b.length))
    (hp : Patient 0 e.sock.answers) :
    ∃ d' w, e.save b.length false = (d', CDN_STATUS_CONTINUE, [.wrote w]) ∧ Next body total w ∧
      w.bytes.length = b.length ∧ d'.At size body (total + b.length) := by
  obtain ⟨w, hw, hnext, hlen⟩ := next_of_buf d.recvBuf hb (Nat.le_refl _) hle
  refine ⟨{ e.answered with cdn := { e.cdn with
    totalBytesReceived := e.cdn.totalBytesReceived + (b.length : Int) } }, w, ?_, hnext, hlen, ?_⟩
  · rw [save_ok hfiles, hw, hbuf, hcdn, h.totalBytesReceived]
  · exact {
      state := by rw [hcdn]; exact h.state
      fileSize := by rw [hcdn]; exact h.fileSize
      totalBytesReceived := by rw [hcdn, h.totalBytesReceived]; rfl
      stream := hstream
      patient := hp
      files := hfiles.answered }

theorem Download.At.save_last {d e : Download} {size total : Nat} {body b : List UInt8}
    (h : d.At size body total) (hcdn : e.cdn = d.cdn) (hfiles : Willing e.files)
    (hbuf : e.recvBuf = overwrite d.recvBuf 0 b) (hb : b <+: body.drop total)
    (hle : b.length ≤ HTTP_RECV_BUF_LEN) (htotal : total ≤ size) (hend : size ≤ total + b.length) :
    ∃ d' w, e.save (e.cdn.fileSize - e.cdn.totalBytesReceived) true =
        (d', CDN_STATUS_DOWNLOAD_DONE, [.wrote w, .closed]) ∧ d'.cdn.state = .idle ∧
      Next body total w ∧ total + w.bytes.length = size := by
  obtain ⟨w, hw, hnext, hlen⟩ :=
    next_of_buf (m := size - total) d.recvBuf hb (by omega) (by omega)
  have hrest : e.cdn.fileSize - e.cdn.totalBytesReceived = (size - total : Nat) := by
    rw [hcdn, h.fileSize, h.totalBytesReceived]
    omega
  obtain ⟨d', hidle, hsave⟩ := save_eof_ok hfiles (size - total : Nat)
  refine ⟨d', w, ?_, hidle, hnext, by omega⟩
  rw [hrest, hsave, hw, hbuf, hcdn, h.totalBytesReceived]

/-- What a call does in the middle of a download: it writes the last bytes and closes the file, or it
writes the next ones and goes on. -/
theorem Download.At.run_cases {d : Download} {size total : Nat} {body : List UInt8}
    (h : d.At size body total) (hsize : size ≤ body.length) (htotal : total ≤ size)
    (hmore : total < body.length) :
    (∃ d' w, d.run = (d', CDN_STATUS_DOWNLOAD_DONE, [.wrote w, .closed]) ∧
        d'.cdn.state = .idle ∧ Next body total w ∧ total + w.bytes.length = size ∧ d.AlignsWell) ∨
      ∃ d' w, d.run = (d', CDN_STATUS_CONTINUE, [.wrote w]) ∧ Next body total w ∧
        0 < w.bytes.length ∧ d'.At size body (total + w.bytes.length) ∧
        (d.AlignsWell ↔ 16 ∣ w.bytes.length ∧
          (total + w.bytes.length < size ∨
            total + w.bytes.length = size ∧ total + w.bytes.length < body.length)) := by
  obtain ⟨a, answers, ha, hle, hpos, hp, hrecv⟩ :=
    recv_next h.stream h.patient HTTP_RECV_BUF_LEN (by decide)
  have hpos := hpos hmore
  have hlen : (d.recv HTTP_RECV_BUF_LEN).len = a.length := by rw [hrecv]
  have hbuf : (d.received 0 (d.recv HTTP_RECV_BUF_LEN)).recvBuf = overwrite d.recvBuf 0 a := by
    rw [hrecv]
    rfl
  have hstream : (d.received 0 (d.recv HTTP_RECV_BUF_LEN)).sock.stream =
      body.drop (total + a.length) := by
    rw [hrecv]
    rfl
  have hanswers : Patient 0 (d.received 0 (d.recv HTTP_RECV_BUF_LEN)).sock.answers := by
    rw [hrecv]
    exact hp
  have hsize₀ := h.fileSize
  have htotal₀ := h.totalBytesReceived
  by_cases hend : size ≤ total + a.length
  · left
    obtain ⟨d', w, hsave, hidle, hnext, hw⟩ := h.save_last (e := d.received 0 (d.recv HTTP_RECV_BUF_LEN))
      rfl h.files hbuf ha hle htotal hend
    refine ⟨d', w, ?_, hidle, hnext, hw, fun _ _ hgo => absurd hgo (by omega)⟩
    rw [run_last h.state (by omega) (by omega)]
    exact hsave
  · right
    by_cases hmod : a.length % 16 = 0
    · obtain ⟨d', w, hsave, hnext, hw, hat⟩ :=
        h.save_next (e := d.received 0 (d.recv HTTP_RECV_BUF_LEN)) rfl h.files hbuf ha hle hstream
          hanswers
      refine ⟨d', w, ?_, hnext, by omega, by rwa [hw], ?_⟩
      · rw [run_aligned h.state (by omega) (by omega) (by omega), hlen]
        exact hsave
      · rw [hw]
        exact iff_of_true (fun _ _ _ hne => absurd (by omega) hne) ⟨by omega, .inl (by omega)⟩
    · obtain ⟨b, answers', hb, hle', hpos', hp', hrecv₂⟩ :=
        recv_next hstream hanswers (alignLen a.length) (by rw [alignLen_eq]; omega)
      have hpos' := hpos' (by omega)
      have halign := add_alignLen_le hle hmod
      have hb₂ : a ++ b <+: body.drop total := by
        obtain ⟨rest, ha⟩ := ha
        rw [← List.drop_drop, ← ha, List.drop_left] at hb
        rw [← ha]
        exact List.prefix_append_right_inj a |>.2 hb
      have hrecv' : (d.received 0 (d.recv HTTP_RECV_BUF_LEN)).recv
          (alignLen (d.recv HTTP_RECV_BUF_LEN).len.toNat) =
            ⟨b.length, b, ⟨body.drop (total + a.length + b.length), answers'⟩⟩ := by
        rw [hlen]
        exact hrecv₂
      obtain ⟨d', w, hsave, hnext, hw, hat⟩ :=
        h.save_next (e := (d.received 0 (d.recv HTTP_RECV_BUF_LEN)).received
              (d.recv HTTP_RECV_BUF_LEN).len.toNat
            ⟨b.length, b, ⟨body.drop (total + a.length + b.length), answers'⟩⟩) rfl h.files
          (b := a ++ b) (by
            show overwrite (d.received 0 (d.recv HTTP_RECV_BUF_LEN)).recvBuf _ b = _
            rw [hbuf, hlen]
            exact overwrite_zero_overwrite ..) hb₂ (by rw [List.length_append]; omega)
          (by rw [List.length_append, ← Nat.add_assoc]; rfl) hp'
      rw [List.length_append] at hw hat hsave
      refine ⟨d', w, ?_, hnext, by omega, by rwa [hw], ?_⟩
      · rw [run_padded h.state (by omega) (by omega) (by omega) hrecv',
          if_neg (by dsimp only; omega)]
        rw [hlen] at hsave ⊢
        exact hsave
      · have hmore : body.drop (total + a.length + b.length) ≠ [] ↔
            total + (a.length + b.length) < body.length := by
          rw [Ne, List.drop_eq_nil_iff]
          omega
        rw [hw, ← hmore, alignsWell_iff h.state hlen hpos (by omega) hmod hrecv₂]
        dsimp only
        rw [alignLen_eq] at hle' ⊢
        constructor
        · rintro ⟨hb, hend⟩
          exact ⟨by omega, hend.imp (by omega) fun ⟨heq, hne⟩ => ⟨by omega, hne⟩⟩
        · rintro ⟨hdvd, hend⟩
          exact ⟨by omega, hend.imp (by omega) fun ⟨heq, hne⟩ => ⟨by omega, hne⟩⟩

/-! ## What a call comes to -/

/-- In this call a receive fails, the file cannot be written or it cannot be closed. -/
def Download.Errs (d : Download) : Prop :=
  d.cdn.state = .fileDownloadAndSave ∧
    let r := d.recv HTTP_RECV_BUF_LEN
    let r' := (d.received 0 r).recv (alignLen r.len.toNat)
    let last := d.cdn.fileSize ≤ d.cdn.totalBytesReceived + r.len
    r.len ≤ 0 ∨ ¬ last ∧ r.len.toNat % 16 ≠ 0 ∧ r'.len ≤ 0 ∨
      d.answer < 0 ∨ last ∧ d.answered.answer < 0

/-- How a call in the middle of a download ends: it goes on, it is done, or the file is aborted. -/
inductive Outcome : Download × Int × List FileEv → Prop where
  | goes {d : Download} (w : Write) (hd : d.cdn.state = .fileDownloadAndSave) :
    Outcome (d, CDN_STATUS_CONTINUE, [.wrote w])
  | done {d : Download} (w : Write) (hd : d.cdn.state = .idle) :
    Outcome (d, CDN_STATUS_DOWNLOAD_DONE, [.wrote w, .closed])
  | aborted {d : Download} {status : Int} (ws : List Write) (hd : d.cdn.state = .idle)
    (hstatus : status < 0) : Outcome (d, status, ws.map .wrote ++ [.aborted])

theorem Download.save_outcome {d : Download} (hd : d.cdn.state = .fileDownloadAndSave)
    (bytesReceived : Int) (eof : Bool) :
    Outcome (d.save bytesReceived eof) ∧
      (0 ≤ (d.save bytesReceived eof).2.1 →
        ¬ d.answer < 0 ∧ (eof = true → ¬ d.answered.answer < 0)) := by
  unfold save
  dsimp only
  split
  · exact ⟨.aborted [] rfl (by decide),
      fun h => absurd h (show ¬ (0 : Int) ≤ CDN_STATUS_ERROR_SAVE_CHUNK by decide)⟩
  · rename_i hwrite
    split
    · unfold close
      split
      · exact ⟨.aborted [_] rfl (by decide),
          fun h => absurd h (show ¬ (0 : Int) ≤ OTA_STATUS_ERROR by decide)⟩
      · rename_i hclose
        exact ⟨.done _ rfl, fun _ => ⟨hwrite, fun _ => hclose⟩⟩
    · rename_i heof
      exact ⟨.goes _ hd, fun _ => ⟨hwrite, fun h => absurd h heof⟩⟩

theorem Download.abort_outcome (d : Download) (status : Int) :
    Outcome (d.abort (recvError status)) ∧ ¬ 0 ≤ (d.abort (recvError status)).2.1 :=
  ⟨.aborted [] rfl (recvError_neg status), Int.not_le.2 (recvError_neg status)⟩

/-- A call in the middle of a download in which something fails does not go on, and is not done. -/
theorem Download.run_outcome {d : Download} (hd : d.cdn.state = .fileDownloadAndSave) :
    Outcome d.run ∧ (0 ≤ d.run.2.1 → ¬ d.Errs) := by
  unfold Errs
  dsimp only
  by_cases hr : (d.recv HTTP_RECV_BUF_LEN).len ≤ 0
  · rw [run_fails hd hr]
    exact (abort_outcome _ _).imp_right fun hneg h => absurd h hneg
  · by_cases hend :
      d.cdn.fileSize ≤ d.cdn.totalBytesReceived + (d.recv HTTP_RECV_BUF_LEN).len
    · have hsave := save_outcome (d := d.received 0 (d.recv HTTP_RECV_BUF_LEN)) hd
        (d.cdn.fileSize - d.cdn.totalBytesReceived) true
      rw [run_last hd (by omega) hend]
      refine ⟨hsave.1, fun h herrs => ?_⟩
      obtain ⟨hwrite, hclose⟩ := hsave.2 h
      rcases herrs.2 with h | ⟨h, -⟩ | h | ⟨-, h⟩
      · exact hr h
      · exact h hend
      · exact hwrite h
      · exact hclose rfl h
    · by_cases hmod : (d.recv HTTP_RECV_BUF_LEN).len.toNat % 16 = 0
      · have hsave := save_outcome (d := d.received 0 (d.recv HTTP_RECV_BUF_LEN)) hd
          (d.recv HTTP_RECV_BUF_LEN).len false
        rw [run_aligned hd (by omega) (by omega) hmod]
        refine ⟨hsave.1, fun h herrs => ?_⟩
        rcases herrs.2 with h' | ⟨-, h', -⟩ | h' | ⟨h', -⟩
        · exact hr h'
        · exact h' hmod
        · exact (hsave.2 h).1 h'
        · exact hend h'
      · rw [run_padded hd (by omega) (by omega) hmod rfl]
        split
        · rename_i hr'
          exact (abort_outcome _ _).imp_right fun hneg h => absurd h hneg
        · rename_i hr'
          have hsave := save_outcome (d := (d.received 0 (d.recv HTTP_RECV_BUF_LEN)).received
            (d.recv HTTP_RECV_BUF_LEN).len.toNat ((d.received 0 (d.recv HTTP_RECV_BUF_LEN)).recv
              (alignLen (d.recv HTTP_RECV_BUF_LEN).len.toNat))) hd
            ((d.recv HTTP_RECV_BUF_LEN).len + ((d.received 0 (d.recv HTTP_RECV_BUF_LEN)).recv
              (alignLen (d.recv HTTP_RECV_BUF_LEN).len.toNat)).len) false
          refine ⟨hsave.1, fun h herrs => ?_⟩
          rcases herrs.2 with h' | ⟨-, -, h'⟩ | h' | ⟨h', -⟩
          · exact hr h'
          · exact hr' h'
          · exact (hsave.2 h).1 h'
          · exact hend h'

/-! ## The calls of a download -/

def callStep (d : Download) (_ : Unit) : Option (Download × Int × List FileEv) := some d.run

def Download.AlignsAll (d : Download) : Prop :=
  ∀ n, Meets callStep (fun d _ => d.AlignsWell) d (List.replicate n ())

def Download.NoErrors (d : Download) : Prop :=
  ∀ n, Meets callStep (fun d _ => ¬ d.Errs) d (List.replicate n ())

theorem meets_calls {C : Download → Prop} {d : Download} :
    (∀ n, Meets callStep (fun d _ => C d) d (List.replicate n ())) ↔
      C d ∧ ∀ n, Meets callStep (fun d _ => C d) d.run.1 (List.replicate n ()) := by
  constructor
  · intro h
    exact ⟨(h 1).1, fun n => (h (n + 1)).2⟩
  · rintro ⟨hd, h⟩ (_ | n)
    · trivial
    · exact ⟨hd, h n⟩

theorem Download.noErrors_iff {d : Download} : d.NoErrors ↔ ¬ d.Errs ∧ d.run.1.NoErrors :=
  meets_calls (C := fun d => ¬ d.Errs)

theorem Download.alignsAll_iff {d : Download} : d.AlignsAll ↔ d.AlignsWell ∧ d.run.1.AlignsAll :=
  meets_calls (C := AlignsWell)

theorem Download.run_idle {d : Download} (hd : d.cdn.state = .idle) :
    d.run = (d, CDN_STATUS_ERROR, []) := by
  simp only [run, hd]

theorem meets_idle {C : Download → Prop} {d : Download} (hd : d.cdn.state = .idle) (hc : C d)
    (n : Nat) : Meets callStep (fun d _ => C d) d (List.replicate n ()) := by
  induction n with
  | zero => trivial
  | succ n ih =>
    refine ⟨hc, ?_⟩
    show Meets callStep (fun d _ => C d) d.run.1 _
    rw [Download.run_idle hd]
    exact ih

theorem Download.AlignsAll.of_idle {d : Download} (hd : d.cdn.state = .idle) : d.AlignsAll :=
  meets_idle hd fun h => by rw [hd] at h; cases h

theorem Download.NoErrors.of_idle {d : Download} (hd : d.cdn.state = .idle) : d.NoErrors :=
  meets_idle hd fun h => by rw [h.1] at hd; cases hd

theorem Download.calls_ends {n : Nat} {d d' : Download} {status : Int} {evs : List FileEv}
    (hrun : d.run = (d', status, evs)) (hstatus : status ≠ CDN_STATUS_CONTINUE) :
    d.calls (n + 1) = some (status, evs) := by
  simp only [calls, hrun]
  exact if_neg hstatus

theorem Download.calls_goes {n : Nat} {d d' : Download} {evs : List FileEv}
    (hrun : d.run = (d', CDN_STATUS_CONTINUE, evs)) :
    d.calls (n + 1) = (d'.calls n).map fun r => (r.1, evs ++ r.2) := by
  simp only [calls, hrun, if_true]

theorem Download.calls_agree {m n : Nat} {d : Download} {r r' : Int × List FileEv}
    (hm : d.calls m = some r) (hn : d.calls n = some r') : r = r' := by
  induction m generalizing n d r r' with
  | zero => cases hm
  | succ m ih =>
    cases n with
    | zero => cases hn
    | succ n =>
      rcases hrun : d.run with ⟨d', status, evs⟩
      by_cases hstatus : status = CDN_STATUS_CONTINUE
      · subst hstatus
        rw [calls_goes hrun, Option.map_eq_some_iff] at hm hn
        obtain ⟨q, hq, rfl⟩ := hm
        obtain ⟨q', hq', rfl⟩ := hn
        rw [ih hq hq']
      · rw [calls_ends hrun hstatus] at hm hn
        exact Option.some.inj (hm.symm.trans hn)

/-- A download that says that it is done has had no error; where it says something else the file, once
open, has been aborted and has not been closed. -/
theorem Download.calls_outcome {n : Nat} {d : Download} {status : Int} {evs : List FileEv}
    (hd : d.cdn.state = .fileDownloadAndSave) (h : d.calls n = some (status, evs)) :
    d.NoErrors ∨ .aborted ∈ evs ∧ .closed ∉ evs := by
  induction n generalizing d status evs with
  | zero => cases h
  | succ n ih =>
    have hout := run_outcome hd
    rcases hrun : d.run with ⟨d', status', evs'⟩
    rw [hrun] at hout
    obtain ⟨hout, herrs⟩ := hout
    cases hout with
    | goes w hd' =>
      rw [calls_goes hrun, Option.map_eq_some_iff] at h
      obtain ⟨⟨status₁, evs₁⟩, hcalls, heq⟩ := h
      cases heq
      refine (ih hd' hcalls).imp (fun hno => ?_) fun ⟨hin, hout⟩ =>
        ⟨.tail _ hin, fun h => (List.mem_cons.1 h).elim nofun hout⟩
      refine noErrors_iff.2 ⟨herrs (Int.le_refl 0), ?_⟩
      rw [hrun]
      exact hno
    | done w hd' =>
      refine .inl (noErrors_iff.2 ⟨herrs (Int.one_nonneg), ?_⟩)
      rw [hrun]
      exact Download.NoErrors.of_idle hd'
    | aborted ws hd' hstatus =>
      rw [calls_ends hrun (by unfold CDN_STATUS_CONTINUE; omega)] at h
      cases h
      refine .inr ⟨by simp, by simp⟩

/-! ## The whole download -/

theorem wrote_of_calls {n : Nat} {d : Download} {evs : List FileEv}
    (hd : d.cdn.state = .fileDownloadAndSave)
    (h : d.calls n = some (CDN_STATUS_DOWNLOAD_DONE, evs)) : ∃ w rest, evs = .wrote w :: rest := by
  cases n with
  | zero => cases h
  | succ n =>
    have hout := (Download.run_outcome hd).1
    rcases hrun : d.run with ⟨d', status, evs'⟩
    rw [hrun] at hout
    cases hout with
    | goes w hd' =>
      rw [Download.calls_goes hrun, Option.map_eq_some_iff] at h
      obtain ⟨r, -, heq⟩ := h
      exact ⟨w, r.2, (congrArg Prod.snd heq).symm⟩
    | done w hd' =>
      rw [Download.calls_ends hrun (by decide)] at h
      cases h
      exact ⟨w, _, rfl⟩
    | aborted ws hd' hstatus =>
      rw [Download.calls_ends hrun (by unfold CDN_STATUS_CONTINUE; omega)] at h
      cases h
      exact absurd hstatus (by decide)

theorem Download.At.calls_closed {n : Nat} {d : Download} {size total : Nat} {body : List UInt8}
    {r : Int × List FileEv} (h : d.At size body total) (hend : body.length ≤ total)
    (hcalls : d.calls n = some r) : r.1 = CDN_STATUS_ERROR_RECV_CHUNK := by
  cases n with
  | zero => cases hcalls
  | succ n =>
    obtain ⟨a, answers, ha, -, -, -, hrecv⟩ :=
      recv_next h.stream h.patient HTTP_RECV_BUF_LEN (by decide)
    rw [List.drop_eq_nil_of_le hend, List.prefix_nil] at ha
    have hlen : (d.recv HTTP_RECV_BUF_LEN).len = 0 := by rw [hrecv, ha]; rfl
    rw [calls_ends (run_fails h.state (Int.le_of_eq hlen)) (Int.ne_of_lt (recvError_neg _))] at hcalls
    rw [← Option.some.inj hcalls, hlen]
    rfl

/-- The calls that are still to come put the rest of the file exactly if they all align well: each call
leaves the next one at an aligned place, not behind the end. -/
theorem Download.At.aligns {n : Nat} {d : Download} {size total : Nat} {body : List UInt8}
    {ws : List Write} (h : d.At size body total) (hsize : size ≤ body.length) (htotal : total ≤ size)
    (hmore : total < body.length) (hdvd : 16 ∣ total)
    (hcalls : d.calls n = some (CDN_STATUS_DOWNLOAD_DONE, ws.map .wrote ++ [.closed]))
    (hexact : Exact size body total ws) : d.AlignsAll := by
  induction n generalizing d total ws with
  | zero => cases hcalls
  | succ n ih =>
    rcases h.run_cases hsize htotal hmore with
      ⟨d', w, hrun, hidle, -, -, hwell⟩ | ⟨d', w, hrun, hnext, -, hat, hwell⟩
    · refine alignsAll_iff.2 ⟨hwell, ?_⟩
      rw [hrun]
      exact AlignsAll.of_idle hidle
    · rw [calls_goes hrun, Option.map_eq_some_iff] at hcalls
      obtain ⟨⟨status, evs⟩, hcalls, heq⟩ := hcalls
      cases ws with
      | nil => cases heq
      | cons v ws =>
        obtain ⟨rfl, heq⟩ := Prod.mk.inj heq
        obtain ⟨hv, rfl⟩ := List.cons.inj heq
        cases hv
        have hne : ws ≠ [] := by
          rintro rfl
          obtain ⟨v, rest, hwrote⟩ := wrote_of_calls hat.state hcalls
          cases hwrote
        obtain ⟨hdvd', hle, hexact⟩ := (exact_cons hnext hne hdvd).1 hexact
        have hmore' : total + w.bytes.length < body.length := by
          refine Nat.lt_of_not_le fun hend => ?_
          have hclosed := hat.calls_closed hend hcalls
          cases hclosed
        refine alignsAll_iff.2 ⟨hwell.2 ⟨hdvd', by omega⟩, ?_⟩
        rw [hrun]
        exact ih hat hle hmore' (by omega) hcalls hexact

theorem Download.At.finishes {d : Download} {size total : Nat} {body : List UInt8}
    (h : d.At size body total) (hsize : size ≤ body.length) (htotal : total ≤ size)
    (hmore : total < body.length) (hdvd : 16 ∣ total) (haligns : d.AlignsAll) :
    ∃ n ws, d.calls n = some (CDN_STATUS_DOWNLOAD_DONE, ws.map .wrote ++ [.closed]) ∧ ws ≠ [] ∧
      Exact size body total ws := by
  induction hrest : size - total using Nat.strong_induction_on generalizing d total with
  | _ rest ih =>
    obtain ⟨hwell₀, haligns⟩ := alignsAll_iff.1 haligns
    rcases h.run_cases hsize htotal hmore with
      ⟨d', w, hrun, -, hnext, hend, -⟩ | ⟨d', w, hrun, hnext, hpos, hat, hwell⟩
    · exact ⟨1, [w], calls_ends hrun (by decide), List.cons_ne_nil _ _, exact_last hsize hnext hend⟩
    · obtain ⟨hdvd', hend⟩ := hwell.1 hwell₀
      rw [hrun] at haligns
      obtain ⟨n, ws, hcalls, hne, hexact⟩ :=
        ih (size - (total + w.bytes.length)) (by omega) hat (by omega) (by omega) (by omega) haligns rfl
      refine ⟨n + 1, w :: ws, ?_, List.cons_ne_nil _ _, ?_⟩
      · rw [calls_goes hrun, hcalls]
        rfl
      · exact (exact_cons hnext hne hdvd).2 ⟨hdvd', by omega, hexact⟩

/-- The server is connected and sends the body, and the file is still to be opened. -/
structure Download.Starts (d : Download) (size : Nat) (body : List UInt8) : Prop where
  state : d.cdn.state = .cdnServerConnected
  fileSize : d.cdn.fileSize = size
  totalBytesReceived : d.cdn.totalBytesReceived = 0
  stream : d.sock.stream = body
  patient : Patient 0 d.sock.answers
  files : Willing d.files

/-- The calls end with a file that has exactly the bytes of the body. -/
def Download.Downloads (d : Download) (size : Nat) (body : List UInt8) : Prop :=
  ∃ n ws, d.calls n =
      some (CDN_STATUS_DOWNLOAD_DONE, .opened :: (ws.map .wrote ++ [.closed])) ∧
    Exact size body 0 ws

theorem Download.run_opens {d : Download} (hd : d.cdn.state = .cdnServerConnected)
    (hopen : ¬ d.answer < 0) :
    d.run = (d.answered.goto .fileDownloadAndSave, CDN_STATUS_CONTINUE, [.opened]) := by
  simp only [run, hd]
  exact if_neg hopen

theorem Download.Starts.opened {d : Download} {size : Nat} {body : List UInt8}
    (h : d.Starts size body) : (d.answered.goto .fileDownloadAndSave).At size body 0 where
  state := rfl
  fileSize := h.fileSize
  totalBytesReceived := h.totalBytesReceived
  stream := h.stream
  patient := h.patient
  files := h.files.answered

theorem Download.Starts.downloads_iff {d : Download} {size : Nat} {body : List UInt8}
    (h : d.Starts size body) (hpos : 1 ≤ size) (hsize : size ≤ body.length) :
    d.Downloads size body ↔ d.AlignsAll := by
  have hrun := run_opens h.state h.files.answer
  have haligns : d.AlignsAll ↔ (d.answered.goto .fileDownloadAndSave).AlignsAll := by
    refine alignsAll_iff.trans ?_
    rw [hrun]
    exact and_iff_right fun hd => by rw [h.state] at hd; cases hd
  rw [haligns]
  constructor
  · rintro ⟨n, ws, hcalls, hexact⟩
    cases n with
    | zero => cases hcalls
    | succ n =>
      rw [calls_goes hrun, Option.map_eq_some_iff] at hcalls
      obtain ⟨⟨status, evs⟩, hcalls, heq⟩ := hcalls
      obtain ⟨rfl, heq⟩ := Prod.mk.inj heq
      obtain ⟨-, rfl⟩ := List.cons.inj heq
      exact h.opened.aligns hsize (Nat.zero_le _) (by omega) (by omega) hcalls hexact
  · intro hwell
    obtain ⟨n, ws, hcalls, -, hexact⟩ :=
      h.opened.finishes hsize (Nat.zero_le _) (by omega) (by omega) hwell
    refine ⟨n + 1, ws, ?_, hexact⟩
    rw [calls_goes hrun, hcalls]
    rfl

theorem Download.not_errs {d : Download} (hd : d.cdn.state = .cdnServerConnected) : ¬ d.Errs := by
  rintro ⟨h, -⟩
  rw [hd] at h
  cases h

theorem Download.aborts {n : Nat} {d : Download} {status : Int} {evs : List FileEv}
    (hd : d.cdn.state = .cdnServerConnected) (h : d.calls n = some (status, evs))
    (herrs : ¬ d.NoErrors) : .aborted ∈ evs ∧ .closed ∉ evs := by
  cases n with
  | zero => cases h
  | succ n =>
    by_cases hopen : d.answer < 0
    · have hrun : d.run = (d.answered.goto .idle, CDN_STATUS_ERROR_OPEN_FILE, []) := by
        simp only [run, hd]
        exact if_pos hopen
      refine absurd (noErrors_iff.2 ⟨not_errs hd, ?_⟩) herrs
      rw [hrun]
      exact NoErrors.of_idle rfl
    · have hrun := run_opens hd hopen
      rw [calls_goes hrun, Option.map_eq_some_iff] at h
      obtain ⟨⟨status, evs⟩, hcalls, heq⟩ := h
      cases heq
      rcases calls_outcome rfl hcalls with hno | ⟨hin, hout⟩
      · refine absurd (noErrors_iff.2 ⟨not_errs hd, ?_⟩) herrs
        rw [hrun]
        exact hno
      · exact ⟨.tail _ hin, fun h => (List.mem_cons.1 h).elim nofun hout⟩

/-- A body of 16 bytes is cut after the first one; the others complete the file, which the client does not
see, and then the connection is closed. -/
def cutDownload : Download where
  cdn := ⟨.cdnServerConnected, none, 1, [1], 16, 0⟩
  sock := ⟨List.replicate 16 7, [.gives 0]⟩
  recvBuf := []
  files := []

/-- Of a file of 32 bytes the first receive gives ten, and the next one the six that are missing. -/
def wholeDownload : Download :=
  { cutDownload with
    cdn := { cutDownload.cdn with fileSize := 32 }
    sock := ⟨List.replicate 32 7, [.gives 9]⟩ }

def fullDownload : Download := { wholeDownload with files := [0, -1] }

/-- A download of a body that has all the bytes ends with the file exactly if every call aligns well. When
something fails the file is aborted and never closed. -/
theorem download_exact (d : Download) :
    (∀ (size : Nat) (body : List UInt8), d.Starts size body → 1 ≤ size →
      size ≤ body.length → (d.Downloads size body ↔ d.AlignsAll)) ∧
    ∀ (n : Nat) (status : Int) (evs : List FileEv),
      d.cdn.state = .cdnServerConnected → d.calls n = some (status, evs) → ¬ d.NoErrors →
        .aborted ∈ evs ∧ .closed ∉ evs :=
  ⟨fun _ _ h hpos hsize => h.downloads_iff hpos hsize, fun _ _ _ hd h herrs =>
    Download.aborts hd h herrs⟩

/-- One call opens the file, and the next two take it, or cannot write it. -/
theorem download_exact_whole :
    wholeDownload.Downloads 32 (List.replicate 32 7) ∧
      fullDownload.calls 2 = some (CDN_STATUS_ERROR_SAVE_CHUNK, [.opened, .aborted]) ∧
      .aborted ∈ [FileEv.opened, .aborted] ∧ .closed ∉ [FileEv.opened, .aborted] := by
  have hwhole : wholeDownload.AlignsAll :=
    Download.alignsAll_iff.2 ⟨nofun, Download.alignsAll_iff.2
      ⟨fun _ _ _ _ => ⟨by decide, .inl (by decide)⟩, Download.alignsAll_iff.2
        ⟨fun _ _ hgo => absurd hgo (by decide), Download.AlignsAll.of_idle rfl⟩⟩⟩
  have hfull : ¬ fullDownload.NoErrors := fun h =>
    (Download.noErrors_iff.1 (Download.noErrors_iff.1 h).2).1
      ⟨rfl, .inr (.inr (.inl (by decide)))⟩
  exact ⟨((download_exact wholeDownload).1 32 (List.replicate 32 7)
      ⟨rfl, rfl, rfl, rfl, trivial, nofun⟩ (by decide) (by decide)).2 hwhole, rfl,
    (download_exact fullDownload).2 2 _ _ rfl rfl hfull⟩

/-- The file that has been cut is complete and aborted. -/
theorem cut_aborted : cutDownload.Starts 16 (List.replicate 16 7) ∧
    ¬ cutDownload.Downloads 16 (List.replicate 16 7) := by
  refine ⟨⟨rfl, rfl, rfl, rfl, trivial, nofun⟩, ?_⟩
  rintro ⟨n, ws, hcalls, -⟩
  have herror : (cutDownload.calls 3).map Prod.fst = some CDN_STATUS_ERROR_RECV_CHUNK := by decide
  obtain ⟨r, hr, hstatus⟩ := Option.map_eq_some_iff.1 herror
  rw [Download.calls_agree hr hcalls] at hstatus
  cases hstatus

end SimpleLink.Ota
