import SimpleLink.Lib.Overwrite

/-!
# Requests of the HTTP client (`httpcli.c`, `ssock.c`)

A request is formatted piece by piece into a buffer on the stack, and each piece is sent. `slp` says
whether the sources are built with `__SLP__`.
-/

namespace SimpleLink.HttpCli

open Lib

abbrev Bytes : Type := List UInt8

abbrev SEND_BUFLEN : Nat := 128
abbrev HTTPCli_BUF_LEN : Nat := 128
abbrev MAXSENDLEN : Nat := 1460

abbrev HTTPCli_ESENDFAIL : Int := -103
abbrev HTTPCli_ESENDBUFSMALL : Int := -107
abbrev HTTPCli_EINPROGRESS : Int := -119
abbrev HTTPCli_EINTERNALBUFSMALL : Int := -120

/-! ## The socket -/

/-- What the socket has taken, how many bytes each call of `send` takes at most (all that it is offered when
nothing is given), and how many there is room for before `send` fails, and how. -/
structure SendSock where
  accepted : Bytes
  cuts : List Nat
  room : Nat
  wouldBlock : Bool

/-- `send`: the number of bytes that are taken, or nothing when it fails. -/
def send (buf : Bytes) (s : SendSock) : Option Nat × SendSock :=
  if s.room = 0 then (none, s)
  else
    let n := min (s.cuts.headD buf.length) (min buf.length s.room)
    (some n, { s with accepted := s.accepted ++ buf.take n, cuts := s.cuts.tail, room := s.room - n })

/-- What `Ssock_send` returns when `send` has failed. -/
def failStatus (slp : Bool) (status : Int) (s : SendSock) : Int :=
  if slp ∧ s.wouldBlock then if status = -1 then 0 else status else -1

/-- The loop of `Ssock_send`. -/
def sendLoop (slp : Bool) : Nat → Bytes → Int → SendSock → Int × SendSock
  | 0, _, status, s => (status, s)
  | turns + 1, buf, status, s =>
    if buf = [] then (status, s)
    else
      match send (buf.take MAXSENDLEN) s with
      | (none, s) => (failStatus slp status s, s)
      | (some n, s) => sendLoop slp turns (buf.drop n) (if status = -1 then (n : Int) else status + n) s

/-- `Ssock_send`. Each turn of the loop takes a byte or has its cut given. -/
def ssockSend (slp : Bool) (buf : Bytes) (s : SendSock) : Int × SendSock :=
  sendLoop slp (buf.length + s.cuts.length + 1) buf (-1) s

def sentSoFar (status : Int) : Int := if status = -1 then 0 else status

theorem send_takes (buf : Bytes) {s : SendSock} (hroom : s.room ≠ 0) :
    ∃ n, n ≤ buf.length ∧ n ≤ s.room ∧ (n = 0 → buf = [] ∨ s.cuts ≠ []) ∧
      send buf s = (some n,
        { s with accepted := s.accepted ++ buf.take n, cuts := s.cuts.tail, room := s.room - n }) := by
  refine ⟨min (s.cuts.headD buf.length) (min buf.length s.room), by omega, by omega, ?_, if_neg hroom⟩
  intro hzero
  cases hcuts : s.cuts with
  | nil =>
    rw [hcuts] at hzero
    have hlen : min buf.length (min buf.length s.room) = 0 := hzero
    exact .inl (List.length_eq_zero_iff.1 (by omega))
  | cons cut cuts => exact .inr (List.cons_ne_nil _ _)

/-- The loop sends all of the buffer if there is room, and what it returns says whether it has. -/
theorem sendLoop_cases {slp : Bool} {turns : Nat} {buf : Bytes} {status : Int} {s : SendSock}
    (hturns : buf.length + s.cuts.length < turns) (hstatus : -1 ≤ status)
    (hbuf : buf ≠ [] ∨ 0 ≤ status) :
    (buf.length ≤ s.room ∧ ∃ cuts, sendLoop slp turns buf status s =
      (sentSoFar status + buf.length,
        { s with accepted := s.accepted ++ buf, cuts := cuts, room := s.room - buf.length })) ∨
    (s.room < buf.length ∧ ∃ ret s', sendLoop slp turns buf status s = (ret, s') ∧
      ret < sentSoFar status + buf.length ∧ (slp = false → ret < 0)) := by
  induction turns generalizing buf status s with
  | zero => cases hturns
  | succ turns ih =>
    rw [sendLoop]
    by_cases hnil : buf = []
    · subst hnil
      have hpos := hbuf.resolve_left (not_not_intro rfl)
      refine .inl ⟨Nat.zero_le _, s.cuts, ?_⟩
      rw [if_pos rfl, List.append_nil, sentSoFar, if_neg (by omega)]
      simp
    · have hlen := List.length_pos_iff.2 hnil
      rw [if_neg hnil]
      by_cases hroom : s.room = 0
      · refine .inr ⟨by omega, ?_⟩
        rw [send, if_pos hroom]
        refine ⟨_, _, rfl, ?_, ?_⟩
        · unfold failStatus sentSoFar
          split <;> omega
        · rintro rfl
          exact Int.negSucc_lt_zero 0
      · obtain ⟨n, hn, hnroom, hzero, hsend⟩ := send_takes (buf.take MAXSENDLEN) hroom
        rw [List.length_take] at hn
        rw [List.take_take, Nat.min_eq_left (by omega)] at hsend
        have hstatus' : 0 ≤ (if status = -1 then (n : Int) else status + n) := by split <;> omega
        have hsofar : sentSoFar (if status = -1 then (n : Int) else status + n) =
            sentSoFar status + n := by
          rw [sentSoFar, if_neg (by omega), sentSoFar]
          split <;> omega
        have hturns' : (buf.drop n).length + s.cuts.tail.length < turns := by
          rw [List.length_drop, List.length_tail]
          by_cases hn₀ : n = 0
          · have hcuts := (hzero hn₀).resolve_left fun h => by
              rw [List.take_eq_nil_iff] at h
              exact h.elim (by decide) hnil
            have hpos := List.length_pos_iff.2 hcuts
            omega
          · omega
        rw [hsend]
        dsimp only
        rcases ih (s := { s with
            accepted := s.accepted ++ buf.take n, cuts := s.cuts.tail, room := s.room - n })
          hturns' (by omega) (.inr hstatus') with ⟨hfits, cuts, heq⟩ | ⟨hfails, ret, s', heq, hret, hslp⟩
        · rw [List.length_drop] at hfits
          dsimp only at hfits
          refine .inl ⟨by omega, cuts, ?_⟩
          rw [heq, hsofar, List.append_assoc, List.take_append_drop, List.length_drop]
          congr 1
          · omega
          · congr 1
            dsimp only
            omega
        · rw [List.length_drop] at hfails hret
          dsimp only at hfails
          exact .inr ⟨by omega, ret, s', heq, by omega, hslp⟩

/-- `Ssock_send` of something: it is all sent, or what is returned is less than its length. -/
theorem ssockSend_cases {slp : Bool} {buf : Bytes} (hbuf : buf ≠ []) (s : SendSock) :
    (buf.length ≤ s.room ∧ ∃ cuts, ssockSend slp buf s = ((buf.length : Int),
        { s with accepted := s.accepted ++ buf, cuts := cuts, room := s.room - buf.length })) ∨
    (s.room < buf.length ∧ ∃ ret s', ssockSend slp buf s = (ret, s') ∧ ret < buf.length ∧
      (slp = false → ret < 0)) := by
  have hzero : ∀ n : Nat, sentSoFar (-1) + (n : Int) = n := fun n => Int.zero_add n
  have hturns : buf.length + s.cuts.length < buf.length + s.cuts.length + 1 := Nat.lt_succ_self _
  have hcases := @sendLoop_cases slp _ buf (-1) s hturns (Int.le_refl (-1)) (.inl hbuf)
  rw [hzero] at hcases
  exact hcases

/-! ## A piece of a request -/

structure Cli where
  buf : Bytes
  buflen : Nat
  /-- `INPROGRESS_FLAG`. -/
  inProgress : Bool
  fields : List (Bytes × Bytes)
  sock : SendSock
  /-- The response is handled by a thread of its own. -/
  async : Bool

/-- What `vsnprintf` leaves in a buffer of `n` bytes. -/
def vsnprintf (n : Nat) (text : Bytes) : Bytes := text.take (n - 1) ++ [0]

def sendText (slp : Bool) (text : Bytes) (cli : Cli) : Bytes × Nat :=
  if cli.inProgress then if slp then (cli.buf.take cli.buflen, cli.buflen) else ([], 0)
  else (vsnprintf SEND_BUFLEN text, text.length)

def keepRest (sendbuf : Bytes) (len : Nat) (ret : Int) (cli : Cli) : Cli × Int :=
  if ret < len then
    let cli := { cli with buflen := (len - ret).toNat }
    if HTTPCli_BUF_LEN < cli.buflen then (cli, HTTPCli_EINTERNALBUFSMALL)
    else
      ({ cli with buf := overwrite cli.buf 0 ((sendbuf.drop ret.toNat).take cli.buflen) },
        HTTPCli_EINPROGRESS)
  else ({ cli with buflen := 0 }, ret)

/-- `sprsend` of a text that is formatted. -/
def sprsend (slp : Bool) (text : Bytes) (cli : Cli) : Cli × Int :=
  let (sendbuf, len) := sendText slp text cli
  if SEND_BUFLEN < len then (cli, HTTPCli_ESENDBUFSMALL)
  else
    let (ret, sock) := ssockSend slp (sendbuf.take len) cli.sock
    let cli := { cli with sock := sock }
    if ret < 0 then (cli, HTTPCli_ESENDFAIL)
    else if slp then keepRest sendbuf len ret cli
    else (cli, ret)

def HTTP_VER : Bytes := [72, 84, 84, 80, 47, 49, 46, 49]

/-- `"%s %s %s\r\n"`. -/
def requestLine (method requestURI : Bytes) : Bytes :=
  method ++ [32] ++ requestURI ++ [32] ++ HTTP_VER ++ [13, 10]

/-- `"%s: %s\r\n"`. -/
def fieldLine (field : Bytes × Bytes) : Bytes := field.1 ++ [58, 32] ++ field.2 ++ [13, 10]

def emptyLine : Bytes := [13, 10]

/-- `HTTPCli_sendField`; `thread` is what `threadCreate` returns. -/
def sendField (slp : Bool) (thread : Int) (field : Option (Bytes × Bytes)) (lastFlag : Bool) (cli : Cli) :
    Cli × Int :=
  let (cli, ret) := match field with
    | none => (cli, 0)
    | some field => sprsend slp (fieldLine field) cli
  if ret < 0 then (cli, ret)
  else if lastFlag then
    let (cli, ret) := sprsend slp emptyLine cli
    if ret < 0 then (cli, ret)
    else if cli.async ∧ thread < 0 then (cli, thread)
    else (cli, 0)
  else (cli, 0)

def sendFields (slp : Bool) (thread : Int) : List (Bytes × Bytes) → Cli → Cli × Int
  | [], cli => (cli, 0)
  | field :: fields, cli =>
    let (cli, ret) := sendField slp thread (some field) false cli
    if ret < 0 then (cli, ret) else sendFields slp thread fields cli

/-- `HTTPCli_sendRequest`; a missing `requestURI` is left out, as `xassert` loops on it. -/
def sendRequest (slp : Bool) (thread : Int) (method requestURI : Bytes) (moreFlag : Bool)
    (cli : Cli) : Cli × Int :=
  let (cli, ret) := sprsend slp (requestLine method requestURI) cli
  if ret < 0 then (cli, ret)
  else
    let (cli, ret) := sendFields slp thread cli.fields cli
    if ret < 0 then (cli, ret)
    else if moreFlag then (cli, 0)
    else
      let (cli, ret) := sendField slp thread none true cli
      if ret < 0 then (cli, ret) else (cli, 0)

/-! ## What is sent -/

def sentText (text : Bytes) : Bytes := (vsnprintf SEND_BUFLEN text).take text.length

theorem length_sentText {text : Bytes} (h : text.length ≤ SEND_BUFLEN) :
    (sentText text).length = text.length := by
  have hsize : SEND_BUFLEN = 128 := rfl
  unfold sentText vsnprintf
  rw [List.length_take, List.length_append, List.length_take, List.length_singleton]
  omega

theorem sentText_eq {line : Bytes} (h : (line ++ [10]).length ≤ SEND_BUFLEN) :
    sentText (line ++ [10]) = line ++ [10] ↔ (line ++ [10]).length ≠ SEND_BUFLEN := by
  have hsize : SEND_BUFLEN - 1 = 127 := rfl
  have hlen : (line ++ [10]).length = line.length + 1 := List.length_append
  unfold sentText vsnprintf
  by_cases hfull : (line ++ [10]).length = SEND_BUFLEN
  · have htake : (line ++ [10]).take (SEND_BUFLEN - 1) = line := by
      rw [← hfull, hlen, Nat.add_sub_cancel]
      exact List.take_left
    have hlen' : (line ++ [10]).length = (line ++ [0] : Bytes).length := by
      rw [List.length_append, List.length_append]
      rfl
    rw [htake, hlen', List.take_length]
    refine iff_of_false (fun heq => ?_) (not_not_intro (hlen'.symm.trans hfull))
    cases List.append_cancel_left heq
  · rw [List.take_of_length_le (i := SEND_BUFLEN - 1) (by omega), List.take_left]
    exact iff_of_true rfl hfull

/-- None of the texts is longer than the buffer, and the socket has room for all of them. -/
def Fits (texts : List Bytes) (cli : Cli) : Prop :=
  (∀ text ∈ texts, text.length ≤ SEND_BUFLEN) ∧ texts.flatten.length ≤ cli.sock.room

/-- The texts have been sent as they are in the buffer. -/
structure Sent (texts : List Bytes) (cli cli' : Cli) : Prop where
  inProgress : cli'.inProgress = cli.inProgress
  fields : cli'.fields = cli.fields
  async : cli'.async = cli.async
  accepted : cli'.sock.accepted = cli.sock.accepted ++ (texts.map sentText).flatten
  room : cli'.sock.room = cli.sock.room - texts.flatten.length

theorem Sent.nil (cli : Cli) : Sent [] cli cli where
  inProgress := rfl
  fields := rfl
  async := rfl
  accepted := (List.append_nil _).symm
  room := rfl

theorem Sent.append {texts texts' : List Bytes} {cli cli' cli'' : Cli} (h : Sent texts cli cli')
    (h' : Sent texts' cli' cli'') : Sent (texts ++ texts') cli cli'' where
  inProgress := h'.inProgress.trans h.inProgress
  fields := h'.fields.trans h.fields
  async := h'.async.trans h.async
  accepted := by
    rw [h'.accepted, h.accepted, List.map_append, List.flatten_append, List.append_assoc]
  room := by
    rw [h'.room, h.room, List.flatten_append, List.length_append, Nat.sub_sub]

theorem Sent.fits_append {texts texts' : List Bytes} {cli cli' : Cli} (h : Sent texts cli cli')
    (hfits : Fits texts cli) : Fits (texts ++ texts') cli ↔ Fits texts' cli' := by
  have hroom := hfits.2
  unfold Fits
  rw [h.room, List.forall_mem_append, and_iff_right hfits.1, List.flatten_append, List.length_append]
  exact and_congr_right' (by omega)

def Sends (texts : List Bytes) (cli : Cli) (r : Cli × Int) : Prop :=
  Fits texts cli ∧ 0 ≤ r.2 ∧ Sent texts cli r.1 ∨ ¬ Fits texts cli ∧ r.2 < 0

theorem sprsend_sends (slp : Bool) {text : Bytes} {cli : Cli} (hcli : cli.inProgress = false)
    (htext : text ≠ []) : Sends [text] cli (sprsend slp text cli) := by
  have hfits : Fits [text] cli ↔ text.length ≤ SEND_BUFLEN ∧ text.length ≤ cli.sock.room := by
    rw [Fits, List.forall_mem_singleton, List.flatten_singleton]
  have hsend : sendText slp text cli = (vsnprintf SEND_BUFLEN text, text.length) := by
    rw [sendText, hcli]
    rfl
  rw [Sends, hfits, sprsend, hsend]
  dsimp only
  by_cases hlong : SEND_BUFLEN < text.length
  · rw [if_pos hlong]
    exact .inr ⟨fun h => Nat.not_le.2 hlong h.1, show HTTPCli_ESENDBUFSMALL < 0 by decide⟩
  · have hlen := length_sentText (Nat.not_lt.1 hlong)
    have hpos := List.length_pos_iff.2 htext
    have hne : sentText text ≠ [] := List.length_pos_iff.1 (by omega)
    have htake : (vsnprintf SEND_BUFLEN text).take text.length = sentText text := rfl
    rw [if_neg hlong, htake]
    rcases @ssockSend_cases slp _ hne cli.sock with
      ⟨hroom, cuts, heq⟩ | ⟨hroom, ret, s', heq, hret, hslp⟩
    · rw [hlen] at hroom heq
      have hsent : ∀ {buf : Bytes} {buflen : Nat}, Sent [text] cli { cli with
          buf := buf
          buflen := buflen
          sock := { cli.sock with
            accepted := cli.sock.accepted ++ sentText text
            cuts := cuts
            room := cli.sock.room - text.length } } := by
        intro buf buflen
        exact ⟨rfl, rfl, rfl, by simp, by simp⟩
      rw [heq]
      dsimp only
      rw [if_neg (by omega)]
      refine .inl ⟨⟨Nat.not_lt.1 hlong, hroom⟩, ?_⟩
      cases slp with
      | false => exact ⟨Int.natCast_nonneg _, hsent⟩
      | true =>
        rw [if_pos rfl, keepRest, if_neg (by omega)]
        exact ⟨Int.natCast_nonneg _, hsent⟩
    · rw [hlen] at hroom hret
      refine .inr ⟨fun h => Nat.not_le.2 hroom h.2, ?_⟩
      rw [heq]
      dsimp only
      split
      · show HTTPCli_ESENDFAIL < 0
        decide
      · rename_i hneg
        cases slp with
        | false => exact absurd (hslp rfl) hneg
        | true =>
          rw [if_pos rfl, keepRest, if_pos hret]
          dsimp only
          split
          · show HTTPCli_EINTERNALBUFSMALL < 0
            decide
          · show HTTPCli_EINPROGRESS < 0
            decide

theorem Sends.append {texts texts' : List Bytes} {cli : Cli} {r r' : Cli × Int}
    (h : Sends texts cli r) (hneg : r.2 < 0 → r'.2 < 0)
    (hpos : 0 ≤ r.2 → Sends texts' r.1 r') : Sends (texts ++ texts') cli r' := by
  rcases h with ⟨hfits, hret, hsent⟩ | ⟨hfits, hret⟩
  · rcases hpos hret with ⟨hfits', hret', hsent'⟩ | ⟨hfits', hret'⟩
    · exact .inl ⟨(hsent.fits_append hfits).2 hfits', hret', hsent.append hsent'⟩
    · exact .inr ⟨fun h => hfits' ((hsent.fits_append hfits).1 h), hret'⟩
  · refine .inr ⟨fun h => hfits ⟨fun t ht => h.1 t (List.mem_append_left _ ht), ?_⟩, hneg hret⟩
    have hroom := h.2
    rw [List.flatten_append, List.length_append] at hroom
    omega

theorem fieldLine_ne_nil (field : Bytes × Bytes) : fieldLine field ≠ [] := by
  unfold fieldLine
  simp

theorem sendField_sends (slp : Bool) (thread : Int) (field : Bytes × Bytes) {cli : Cli}
    (hcli : cli.inProgress = false) :
    Sends [fieldLine field] cli (sendField slp thread (some field) false cli) := by
  have hsends := sprsend_sends slp hcli (fieldLine_ne_nil field)
  rcases hsend : sprsend slp (fieldLine field) cli with ⟨cli', ret⟩
  rw [hsend] at hsends
  simp only [sendField, hsend]
  by_cases hret : ret < 0
  · rwa [if_pos hret]
  · rw [if_neg hret]
    exact hsends.imp (fun h => ⟨h.1, Int.le_refl 0, h.2.2⟩) fun h => absurd h.2 hret

theorem sendFields_sends (slp : Bool) (thread : Int) (fields : List (Bytes × Bytes)) {cli : Cli}
    (hcli : cli.inProgress = false) :
    Sends (fields.map fieldLine) cli (sendFields slp thread fields cli) := by
  induction fields generalizing cli with
  | nil => exact .inl ⟨⟨nofun, Nat.zero_le _⟩, Int.le_refl 0, Sent.nil cli⟩
  | cons field fields ih =>
    have hsends := sendField_sends slp thread field hcli
    rcases hsend : sendField slp thread (some field) false cli with ⟨cli', ret⟩
    rw [hsend] at hsends
    simp only [sendFields, hsend]
    show Sends ([fieldLine field] ++ fields.map fieldLine) cli _
    refine hsends.append (fun hret => ?_) fun hret => ?_
    · rw [if_pos hret]
      exact hret
    · have hcli' : cli'.inProgress = false := by
        rcases hsends with ⟨-, -, hsent⟩ | ⟨-, hneg⟩
        · exact hsent.inProgress.trans hcli
        · exact absurd hret (Int.not_le.2 hneg)
      rw [if_neg (Int.not_lt.2 hret)]
      exact ih hcli'

theorem sendField_last (slp : Bool) (thread : Int) {cli : Cli} (hcli : cli.inProgress = false) :
    (cli.async ∧ thread < 0 → (sendField slp thread none true cli).2 < 0) ∧
      (¬ (cli.async ∧ thread < 0) → Sends [emptyLine] cli (sendField slp thread none true cli)) := by
  have hsends := sprsend_sends slp hcli (show emptyLine ≠ [] by decide)
  rcases hsend : sprsend slp emptyLine cli with ⟨cli', ret⟩
  rw [hsend] at hsends
  simp only [sendField, hsend]
  rw [if_neg (by decide), if_pos trivial]
  by_cases hret : ret < 0
  · rw [if_pos hret]
    exact ⟨fun _ => hret, fun _ => hsends⟩
  · rw [if_neg hret]
    have hsent := hsends.resolve_right fun h => hret h.2
    rw [hsent.2.2.async]
    by_cases hthread : cli.async ∧ thread < 0
    · rw [if_pos hthread]
      exact ⟨fun _ => hthread.2, fun h => absurd hthread h⟩
    · rw [if_neg hthread]
      exact ⟨fun h => absurd h hthread, fun _ => .inl ⟨hsent.1, Int.le_refl 0, hsent.2.2⟩⟩

def requestTexts (method requestURI : Bytes) (moreFlag : Bool) (cli : Cli) :
    List Bytes :=
  [requestLine method requestURI] ++ (cli.fields.map fieldLine ++
    if moreFlag then [] else [emptyLine])

/-- The last call of `HTTPCli_sendRequest`. -/
def sendEnd (slp : Bool) (thread : Int) (moreFlag : Bool) (cli : Cli) : Cli × Int :=
  if moreFlag then (cli, 0)
  else
    let (cli, ret) := sendField slp thread none true cli
    if ret < 0 then (cli, ret) else (cli, 0)

theorem sendEnd_sends (slp : Bool) (thread : Int) (moreFlag : Bool) {cli : Cli}
    (hcli : cli.inProgress = false) :
    (moreFlag = false ∧ cli.async ∧ thread < 0 → (sendEnd slp thread moreFlag cli).2 < 0) ∧
      (¬ (moreFlag = false ∧ cli.async ∧ thread < 0) →
        Sends (if moreFlag then [] else [emptyLine]) cli (sendEnd slp thread moreFlag cli)) := by
  cases moreFlag with
  | true =>
    exact ⟨nofun, fun _ => .inl ⟨⟨nofun, Nat.zero_le _⟩, Int.le_refl 0, Sent.nil cli⟩⟩
  | false =>
    obtain ⟨hfails, hsends⟩ := sendField_last slp thread hcli
    rcases hsend : sendField slp thread none true cli with ⟨cli', ret⟩
    rw [hsend] at hfails hsends
    simp only [sendEnd, hsend]
    rw [if_neg Bool.false_ne_true]
    constructor
    · intro hthread
      rw [if_pos (hfails hthread.2)]
      exact hfails hthread.2
    · intro hthread
      have hsends := hsends fun h => hthread ⟨trivial, h⟩
      by_cases hret : ret < 0
      · rwa [if_pos hret]
      · rw [if_neg hret]
        exact hsends.imp (fun h => ⟨h.1, Int.le_refl 0, h.2.2⟩) fun h => absurd h.2 hret

theorem sendRequest_eq (slp : Bool) (thread : Int) (method requestURI : Bytes)
    (moreFlag : Bool) (cli : Cli) :
    sendRequest slp thread method requestURI moreFlag cli =
      let r := sprsend slp (requestLine method requestURI) cli
      if r.2 < 0 then r
      else
        let r := sendFields slp thread r.1.fields r.1
        if r.2 < 0 then r else sendEnd slp thread moreFlag r.1 := rfl

/-- A request is sent as its texts; where the thread for the response cannot be created it fails. -/
theorem sendRequest_sends (slp : Bool) (thread : Int) (method requestURI : Bytes)
    (moreFlag : Bool) {cli : Cli} (hcli : cli.inProgress = false) :
    (moreFlag = false ∧ cli.async ∧ thread < 0 →
        (sendRequest slp thread method requestURI moreFlag cli).2 < 0) ∧
      (¬ (moreFlag = false ∧ cli.async ∧ thread < 0) →
        Sends (requestTexts method requestURI moreFlag cli) cli
          (sendRequest slp thread method requestURI moreFlag cli)) := by
  have hline : requestLine method requestURI ≠ [] := by
    unfold requestLine
    simp
  have hsends := sprsend_sends slp hcli hline
  rw [sendRequest_eq, requestTexts]
  generalize sprsend slp (requestLine method requestURI) cli = r at hsends ⊢
  dsimp only
  by_cases hret : r.2 < 0
  · rw [if_pos hret]
    exact ⟨fun _ => hret, fun _ => hsends.append id fun hpos => absurd hret (Int.not_lt.2 hpos)⟩
  · have hsent := (hsends.resolve_right fun h => hret h.2).2.2
    have hsends' := sendFields_sends slp thread r.1.fields (hsent.inProgress.trans hcli)
    rw [if_neg hret]
    rw [hsent.fields] at hsends' ⊢
    generalize sendFields slp thread cli.fields r.1 = r' at hsends' ⊢
    by_cases hret' : r'.2 < 0
    · rw [if_pos hret']
      refine ⟨fun _ => hret', fun _ => hsends.append (fun _ => hret') fun _ =>
        hsends'.append id fun hpos => absurd hret' (Int.not_lt.2 hpos)⟩
    · have hsent' := (hsends'.resolve_right fun h => hret' h.2).2.2
      obtain ⟨hfails, hends⟩ := sendEnd_sends slp thread moreFlag
        ((hsent.append hsent').inProgress.trans hcli)
      rw [if_neg hret']
      rw [(hsent.append hsent').async] at hfails hends
      refine ⟨hfails, fun hthread => hsends.append (fun h => absurd h hret) fun _ =>
        hsends'.append (fun h => absurd h hret') fun _ => hends hthread⟩

/-! ## Requests that are sent as they are -/

theorem requestTexts_line {method requestURI : Bytes} {moreFlag : Bool} {cli : Cli}
    {text : Bytes} (h : text ∈ requestTexts method requestURI moreFlag cli) :
    ∃ line, text = line ++ [10] := by
  unfold requestTexts at h
  rcases List.mem_append.1 h with h | h
  · rw [List.mem_singleton.1 h]
    exact ⟨method ++ [32] ++ requestURI ++ [32] ++ HTTP_VER ++ [13], by simp [requestLine]⟩
  · rcases List.mem_append.1 h with h | h
    · obtain ⟨field, -, rfl⟩ := List.mem_map.1 h
      exact ⟨field.1 ++ [58, 32] ++ field.2 ++ [13], by simp [fieldLine]⟩
    · cases moreFlag with
      | true => cases h
      | false =>
        rw [List.mem_singleton.1 h]
        exact ⟨[13], rfl⟩

theorem flatten_map_eq {texts : List Bytes} {f : Bytes → Bytes}
    (hf : ∀ text ∈ texts, (f text).length = text.length) :
    (texts.map f).flatten = texts.flatten ↔ ∀ text ∈ texts, f text = text := by
  induction texts with
  | nil => exact iff_of_true rfl nofun
  | cons text texts ih =>
    obtain ⟨hlen, hf⟩ := List.forall_mem_cons.1 hf
    rw [List.map_cons, List.flatten_cons, List.flatten_cons, List.forall_mem_cons, ← ih hf]
    exact ⟨fun h => List.append_inj h hlen, fun ⟨h, h'⟩ => by rw [h, h']⟩

def Faithful (slp : Bool) (thread : Int) (method requestURI : Bytes) (moreFlag : Bool)
    (cli : Cli) : Prop :=
  0 ≤ (sendRequest slp thread method requestURI moreFlag cli).2 →
    (sendRequest slp thread method requestURI moreFlag cli).1.sock.accepted =
      cli.sock.accepted ++ (requestTexts method requestURI moreFlag cli).flatten

/-- A request that succeeds has been sent as it is, unless one of its texts is exactly as long as the
buffer. -/
theorem send_request (slp : Bool) (thread : Int) (method requestURI : Bytes)
    (moreFlag : Bool) (cli : Cli) (hcli : cli.inProgress = false) :
    Faithful slp thread method requestURI moreFlag cli ↔
      (∀ text ∈ requestTexts method requestURI moreFlag cli, text.length ≠ SEND_BUFLEN) ∨
      (∃ text ∈ requestTexts method requestURI moreFlag cli, SEND_BUFLEN < text.length) ∨
      cli.sock.room < (requestTexts method requestURI moreFlag cli).flatten.length ∨
      moreFlag = false ∧ cli.async ∧ thread < 0 := by
  obtain ⟨hfails, hsends⟩ := sendRequest_sends slp thread method requestURI moreFlag hcli
  by_cases hthread : moreFlag = false ∧ cli.async ∧ thread < 0
  · exact iff_of_true (fun h => absurd (hfails hthread) (Int.not_lt.2 h)) (.inr (.inr (.inr hthread)))
  · rcases hsends hthread with ⟨hfits, hret, hsent⟩ | ⟨hfits, hret⟩
    · have hline : ∀ text ∈ requestTexts method requestURI moreFlag cli,
          sentText text = text ↔ text.length ≠ SEND_BUFLEN := by
        intro text htext
        have hlen := hfits.1 text htext
        obtain ⟨line, rfl⟩ := requestTexts_line htext
        exact sentText_eq hlen
      rw [Faithful, imp_iff_right hret, hsent.accepted, List.append_cancel_left_eq,
        flatten_map_eq fun text htext => length_sentText (hfits.1 text htext)]
      constructor
      · exact fun h => .inl fun text htext => (hline text htext).1 (h text htext)
      · rintro (h | ⟨text, htext, hlong⟩ | hroom | h)
        · exact fun text htext => (hline text htext).2 (h text htext)
        · exact absurd (hfits.1 text htext) (Nat.not_le.2 hlong)
        · exact absurd hfits.2 (Nat.not_le.2 hroom)
        · exact absurd h hthread
    · refine iff_of_true (fun h => absurd hret (Int.not_lt.2 h)) ?_
      rw [Fits, not_and_or] at hfits
      rcases hfits with hlong | hroom
      · obtain ⟨text, hlong⟩ := not_forall.1 hlong
        obtain ⟨htext, hlong⟩ := Classical.not_imp.1 hlong
        exact .inr (.inl ⟨text, htext, Nat.not_le.1 hlong⟩)
      · exact .inr (.inr (.inl (Nat.not_le.1 hroom)))

/-- A client that is connected to a socket with room, and a field with a value. -/
def connected (value : Bytes) : Cli where
  buf := List.replicate HTTPCli_BUF_LEN 0
  buflen := 0
  inProgress := false
  fields := [([72, 111, 115, 116], value)]
  sock := ⟨[], [3], 1000, false⟩
  async := false

theorem send_request_host :
    Faithful false 0 [71, 69, 84] [47] false (connected [97]) :=
  (send_request false 0 [71, 69, 84] [47] false (connected [97]) rfl).2
    (.inl (by decide))

/-- A field of 128 bytes with its line end: the line feed is sent as a zero, and the request succeeds. -/
theorem full_buffer_ends_with_zero :
    ¬ Faithful false 0 [71, 69, 84] [47] false (connected (List.replicate 120 97)) := by
  intro h
  have hsent := h (by decide +kernel)
  revert hsent
  decide +kernel

end SimpleLink.HttpCli
