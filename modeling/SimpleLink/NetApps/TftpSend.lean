import SimpleLink.NetApps.TftpRecv

/-!
# Sending a file (`tftpSendFile`)

The server acknowledges the blocks of a buffer. `log` records the packets that are sent and the
datagrams of the server that are read, in their order.
-/

namespace SimpleLink.NetApps.TftpSend

open Lib TftpClient TftpRecv

inductive Event where
  | sent (packet : Bytes)
  | read (datagram : Bytes)
deriving DecidableEq

structure Sys where
  tftp : Tftp
  phase : Phase
  log : List Event

def sysInit (szFileName buffer : Bytes) (packetBuffer : Vector UInt8 dataSize) : Sys where
  tftp := tftpInit szFileName buffer packetBuffer
  phase := .start
  log := []

def reads (s : Sys) : Act → List Event
  | .recv peer port bytes _ =>
    match s.phase with
    | .loop => if fromPeer s.tftp peer port then [.read bytes] else []
    | _ => []
  | _ => []

def sysStep (s : Sys) (act : Act) : Option (Sys × Unit) :=
  (tftpSendFile s.tftp s.phase act).map fun (tftp, phase, sent) =>
    ({ tftp := tftp
       phase := phase
       log := s.log ++ reads s act ++ sent.map .sent }, ())

/-! ## The property and the condition -/

/-- `n` is the block that is shorter than the others, no other one is sent after it, and its
acknowledgement has been read. -/
structure LastBlock (buffer : Bytes) (log : List Event) (n : Nat) : Prop where
  short : (fileBlock buffer n).length < segsize
  only : ∀ packet, .sent packet ∈ log → opcode packet = tftpData → packet.length < dataSize →
    packet = dataPacket buffer n
  acked : ∃ before after, log = before ++ .sent (dataPacket buffer n) :: after ∧
    (∀ packet, .sent packet ∈ after → opcode packet ≠ tftpData) ∧ .read (ackPacket n) ∈ after

structure SendLaw (buffer : Bytes) (s : Sys) : Prop where
  data : ∀ packet, .sent packet ∈ s.log → opcode packet = tftpData →
    ∃ n, 1 ≤ n ∧ segsize * (n - 1) ≤ buffer.length ∧ packet = dataPacket buffer n
  done : ∀ fileSize, s.phase = .returned 1 fileSize →
    fileSize = buffer.length ∧ ∃ n, LastBlock buffer s.log n

def FromServer (s : Sys) (act : Act) : Prop :=
  match s.phase, act with
  | .loop, .recv peer port bytes _ => fromPeer s.tftp peer port = true → ∃ k, bytes = ackPacket k
  | _, _ => True

/-- There is something left to send when the acknowledgement that is expected comes, and `tftpReSync`
does not find an acknowledgement in the packet buffer. -/
def SendCond (s : Sys) (act : Act) : Prop :=
  FromServer s act ∧
    match s.phase, act with
    | .loop, .timeout io => opcode (tftpFlushPackets io s.tftp.packetBuffer) ≠ tftpAck
    | .loop, .recv peer port bytes io =>
      fromPeer s.tftp peer port = true →
        if s.tftp.nextBlock = block bytes then s.tftp.bufferUsed < s.tftp.bufferSize
        else opcode (tftpFlushPackets io (recvfrom s.tftp port bytes).packetBuffer) ≠ tftpAck
    | _, _ => True

/-! ## The invariant -/

/-- `n` blocks have been sent. -/
structure Inv (buffer : Bytes) (n : Nat) (s : Sys) : Prop where
  contents : s.tftp.buffer = buffer
  bufferSize : s.tftp.bufferSize = buffer.length
  bufferUsed : s.tftp.bufferUsed = min (segsize * n) buffer.length
  fileSize : s.tftp.fileSize = 0
  nextBlock : s.phase = .loop → s.tftp.nextBlock = n % 2 ^ 16
  start : s.phase = .start → n = 0
  name : (readRequest s.tftp.szFileName).length ≤ dataSize
  data : ∀ packet, .sent packet ∈ s.log → opcode packet = tftpData →
    ∃ n, 1 ≤ n ∧ segsize * (n - 1) ≤ buffer.length ∧ packet = dataPacket buffer n
  fails : ∀ rc fileSize, s.phase = .returned rc fileSize → rc < 0

theorem Inv.law {buffer : Bytes} {n : Nat} {s : Sys} (h : Inv buffer n s) : SendLaw buffer s where
  data := h.data
  done fileSize hphase := absurd (h.fails 1 fileSize hphase) (by decide)

/-! ## Sending again -/

theorem opcode_ackPacket (k : Nat) (rest : Bytes) : opcode (ackPacket k ++ rest) = tftpAck := by
  unfold ackPacket
  rw [List.append_assoc]
  exact opcode_htons _ _

theorem opcode_take {packet : Bytes} {n : Nat} (h : 2 ≤ n) :
    opcode (packet.take n) = opcode packet := by
  unfold opcode ntohs
  rw [List.getD_eq_getElem?_getD, List.getD_eq_getElem?_getD, List.getD_eq_getElem?_getD,
    List.getD_eq_getElem?_getD, List.getElem?_take_of_lt (Nat.lt_of_lt_of_le Nat.zero_lt_two h),
    List.getElem?_take_of_lt (Nat.lt_of_lt_of_le Nat.one_lt_two h)]

theorem block_ackPacket (k : Nat) (rest : Bytes) : block (ackPacket k ++ rest) = k % 2 ^ 16 :=
  block_htons _ _ _

theorem opcode_readRequest (szFileName : Bytes) : opcode (readRequest szFileName) = tftpRrq := by
  unfold readRequest
  rw [List.append_assoc, List.append_assoc]
  exact opcode_htons _ _

/-- `tftpReSync` sends no data, and leaves the transfer as it is. -/
theorem tftpReSync_noData {t : Tftp} {io : Io} (hnext : t.nextBlock < 2 ^ 16)
    (hname : (readRequest t.szFileName).length ≤ dataSize)
    (hop : opcode (tftpFlushPackets io t.packetBuffer) ≠ tftpAck) :
    ∃ t' sent rc, tftpReSync io t = some (t', sent, rc) ∧ Same t t' ∧ rc ≤ 0 ∧
      (rc = 0 → t'.nextBlock = t.nextBlock) ∧ ∀ packet ∈ sent, opcode packet ≠ tftpData := by
  have hforth : ((t.nextBlock + (2 ^ 16 - 1)) % 2 ^ 16 + 1) % 2 ^ 16 = t.nextBlock := by omega
  let t₀ : Tftp := { t with
    packetBuffer := tftpFlushPackets io t.packetBuffer
    maxSyncError := t.maxSyncError - 1
    nextBlock := (t.nextBlock + (2 ^ 16 - 1)) % 2 ^ 16 }
  -- what is sent is a request or an acknowledgement
  have hresend : ∀ t₁ : Tftp, Same t t₁ → t₁.nextBlock = t₀.nextBlock →
      opcode (tftpPacket t₁) ≠ tftpData →
      Same t (resend io t₁).1 ∧ (resend io t₁).2.2 ≤ 0 ∧
        ((resend io t₁).2.2 = 0 → (resend io t₁).1.nextBlock = t.nextBlock) ∧
        ∀ packet ∈ (resend io t₁).2.1, opcode packet ≠ tftpData := by
    intro t₁ hsame hblock hpacket
    obtain ⟨hsame', hsent, hrc, hnext'⟩ := resend_same io t₁
    refine ⟨hsame.trans hsame', hrc, fun h0 => ?_, fun packet hp => ?_⟩
    · rw [hnext' h0, hblock]
      exact hforth
    · rw [hsent] at hp
      rw [List.mem_singleton.1 hp]
      exact hpacket
  unfold tftpReSync
  dsimp only
  split
  · exact ⟨_, _, _, rfl, ⟨rfl, rfl, rfl, rfl, rfl⟩, by decide, fun h0 => absurd h0 (by decide), nofun⟩
  · split
    · split
      · obtain ⟨t₁, hbuild, hsame, hblock, hpacket⟩ := tftpRRQBuild_eq (t := t₀) hname
        refine ⟨(resend io t₁).1, (resend io t₁).2.1, (resend io t₁).2.2,
          congrArg (Option.map (resend io)) hbuild, hresend t₁ ⟨hsame.szFileName, hsame.buffer,
            hsame.bufferSize, hsame.bufferUsed, hsame.fileSize⟩ hblock ?_⟩
        rw [hpacket, opcode_readRequest]
        decide
      · refine ⟨(resend io (tftpACKBuild t₀)).1, (resend io (tftpACKBuild t₀)).2.1,
          (resend io (tftpACKBuild t₀)).2.2, rfl, hresend (tftpACKBuild t₀) ⟨rfl, rfl, rfl, rfl, rfl⟩
            rfl ?_⟩
        rw [tftpACKBuild_packet, ← List.append_nil (ackPacket _), opcode_ackPacket]
        decide
    · exact ⟨_, _, _, rfl, ⟨rfl, rfl, rfl, rfl, rfl⟩, by decide, fun h0 => absurd h0 (by decide),
        nofun⟩

theorem tftpReSync_rc {t t' : Tftp} {io : Io} {sent : List Bytes} {rc : Int}
    (h : tftpReSync io t = some (t', sent, rc)) : rc ≤ 0 := by
  have hresend : ∀ t₁, resend io t₁ = (t', sent, rc) → rc ≤ 0 := by
    intro t₁ he
    have hrc := (resend_same io t₁).2.2.1
    rw [he] at hrc
    exact hrc
  have hfail : ∀ {t₁}, some (t₁, [], tftperrorFailed) = some (t', sent, rc) → rc ≤ 0 := by
    rintro t₁ ⟨⟩
    decide
  unfold tftpReSync at h
  dsimp only at h
  split at h
  · exact hfail h
  · split at h
    · split at h
      · obtain ⟨t₁, -, he⟩ := Option.map_eq_some_iff.1 h
        exact hresend t₁ he
      · exact hresend _ (Option.some.inj h)
    · split at h
      · split at h
        · obtain ⟨t₁, -, he⟩ := Option.map_eq_some_iff.1 h
          exact hresend t₁ he
        · obtain ⟨t₁, -, he⟩ := Option.map_eq_some_iff.1 h
          exact hresend t₁ he
      · exact hfail h

theorem processOther_rc {t t' : Tftp} {io : Io} {sent : List Bytes} {rc : Int}
    (h : processOther io t = some (t', sent, rc)) : rc ≤ 0 := by
  obtain ⟨⟨t₁, sent₁, rc₁⟩, hsync, he⟩ := Option.map_eq_some_iff.1 h
  obtain ⟨-, -, rfl⟩ : _ ∧ _ ∧ rc₁ = rc := by simpa using he
  exact tftpReSync_rc hsync

/-! ## The next block -/

theorem tftpDATABuild_opcode {t t' : Tftp} (h : tftpDATABuild t = some t') (n : Nat) :
    opcode (t'.packetBuffer.take (n + 4)) = tftpData := by
  unfold tftpDATABuild at h
  split at h
  · cases h
    dsimp only
    rw [opcode_take (Nat.le_add_left_of_le (by decide)), overwrite_zero, List.append_assoc,
      List.append_assoc, opcode_htons]
    rfl
  · cases h

/-- The packet that `processAck` sends. -/
theorem processAck_packet {t t' : Tftp} {io : Io} {sent : List Bytes} {rc : Int}
    (h : processAck io t = some (t', sent, rc)) :
    ∃ packet, sent = [packet] ∧ opcode packet = tftpData := by
  obtain ⟨t₁, hbuild, he⟩ := Option.map_eq_some_iff.1 h
  obtain ⟨-, hsent, -⟩ : _ ∧ _ ∧ _ := by simpa using he
  exact ⟨_, hsent.symm, tftpDATABuild_opcode hbuild _⟩

theorem processAck_eq {buffer : Bytes} {n : Nat} {t : Tftp} (io : Io) (hcontents : t.buffer = buffer)
    (hsize : t.bufferSize = buffer.length) (hlt : buffer.length < 2 ^ 32)
    (hused : t.bufferUsed = min (segsize * n) buffer.length) (hleft : t.bufferUsed < t.bufferSize)
    (hnext : t.nextBlock = n % 2 ^ 16) :
    ∃ t' rc, processAck io t = some (t', [dataPacket buffer (n + 1)], rc) ∧
      t'.buffer = buffer ∧ t'.bufferSize = buffer.length ∧ t'.fileSize = t.fileSize ∧
      t'.szFileName = t.szFileName ∧ t'.bufferUsed = min (segsize * (n + 1)) buffer.length ∧
      t'.nextBlock = (n + 1) % 2 ^ 16 ∧ segsize * n ≤ buffer.length ∧ rc ≤ 0 := by
  have hfull : t.bufferUsed = segsize * n := by omega
  have hcopy : subU32 t.bufferSize t.bufferUsed = buffer.length - t.bufferUsed := by
    unfold subU32
    omega
  obtain ⟨len, hlen, hmin, hle⟩ : ∃ len,
      (if subU32 t.bufferSize t.bufferUsed < segsize then subU32 t.bufferSize t.bufferUsed
        else segsize) = len ∧ len = min segsize (buffer.length - t.bufferUsed) ∧ len ≤ segsize := by
    rw [hcopy]
    refine ⟨_, rfl, ?_, ?_⟩
    · split <;> omega
    · split <;> omega
  have hdata : (t.buffer.drop t.bufferUsed).take len = fileBlock buffer (n + 1) := by
    unfold fileBlock
    rw [hcontents, hfull, Nat.add_sub_cancel, hmin, hfull, ← List.length_drop]
    exact List.take_eq_take_min.symm
  have hblock : htons ((t.nextBlock + 1) % 2 ^ 16) = htons (n + 1) := by
    rw [hnext, htons_mod, ← htons_mod (n + 1), ← htons_mod (n % 2 ^ 16 + 1)]
    congr 1
    omega
  let t₁ : Tftp := { t with
    peerPort := if t.nextBlock = 0 then t.tmpPort else t.peerPort
    length := len
    nextBlock := (t.nextBlock + 1) % 2 ^ 16 }
  have hbuild : tftpDATABuild t₁ = some { t₁ with
      packetBuffer := overwrite t.packetBuffer 0 (dataPacket buffer (n + 1)) } := by
    unfold tftpDATABuild
    have hroom : t.bufferUsed + len ≤ t.buffer.length ∧ len ≤ segsize := by
      rw [hcontents]
      omega
    rw [if_pos hroom]
    show some { t₁ with packetBuffer := overwrite t.packetBuffer 0 (htons tftpData ++
      htons ((t.nextBlock + 1) % 2 ^ 16) ++ (t.buffer.drop t.bufferUsed).take len) } = _
    rw [hdata, hblock]
    rfl
  have hpacket : (overwrite t.packetBuffer 0 (dataPacket buffer (n + 1))).take (len + 4) =
      dataPacket buffer (n + 1) := by
    have hlength : (dataPacket buffer (n + 1)).length = len + 4 := by
      rw [length_dataPacket, ← hdata, List.length_take, List.length_drop, hcontents]
      show 4 + _ = _
      omega
    rw [← hlength]
    exact take_overwrite_zero _ _
  have hsum : t.bufferUsed + len = min (segsize * (n + 1)) buffer.length := by
    rw [hmin, hfull, Nat.mul_succ]
    omega
  have hdone : (if subU32 t.bufferSize t.bufferUsed = 0 then (1 : Int) else 0) = 0 :=
    if_neg (by omega)
  refine ⟨{ t₁ with
      packetBuffer := overwrite t.packetBuffer 0 (dataPacket buffer (n + 1))
      bufferUsed := (t.bufferUsed + len) % 2 ^ 32
      length := len + 4 },
    if tftpSend io < 0 then tftpSend io else 0, ?_, hcontents, hsize, rfl, rfl, ?_, ?_, by omega, ?_⟩
  · unfold processAck
    simp only [hlen, hdone]
    rw [hbuild]
    simp only [Option.map_some]
    unfold tftpPacket
    rw [hpacket]
  · exact (Nat.mod_eq_of_lt (Nat.lt_of_le_of_lt (hsum ▸ Nat.min_le_right _ _) hlt)).trans hsum
  · show (t.nextBlock + 1) % 2 ^ 16 = (n + 1) % 2 ^ 16
    rw [hnext]
    exact Nat.mod_add_mod _ _ _
  · unfold tftpSend
    split <;> split <;> decide

/-! ## The loop -/

theorem inv_finish {buffer : Bytes} {m n : Nat} {s : Sys} {t : Tftp} {sent : List Bytes} {rc : Int}
    {read : List Event} (hs : Inv buffer m s) (hcontents : t.buffer = buffer)
    (hsize : t.bufferSize = buffer.length) (hused : t.bufferUsed = min (segsize * n) buffer.length)
    (hfile : t.fileSize = 0) (hname : t.szFileName = s.tftp.szFileName)
    (hread : ∀ packet, .sent packet ∉ read)
    (hsent : ∀ packet ∈ sent, opcode packet = tftpData →
      ∃ n, 1 ≤ n ∧ segsize * (n - 1) ≤ buffer.length ∧ packet = dataPacket buffer n)
    (hrc : rc ≤ 0) (hnext : rc = 0 → t.nextBlock = n % 2 ^ 16) :
    Inv buffer n ⟨t, finish t rc, s.log ++ read ++ sent.map .sent⟩ := by
  have hdata : ∀ packet, Event.sent packet ∈ s.log ++ read ++ sent.map .sent →
      opcode packet = tftpData →
      ∃ n, 1 ≤ n ∧ segsize * (n - 1) ≤ buffer.length ∧ packet = dataPacket buffer n := by
    intro packet hp
    rcases List.mem_append.1 hp with hp | hp
    · rcases List.mem_append.1 hp with hp | hp
      · exact hs.data packet hp
      · exact absurd hp (hread packet)
    · obtain ⟨packet', hp', he⟩ := List.mem_map.1 hp
      obtain rfl := Event.sent.inj he
      exact hsent packet' hp'
  have hname' : (readRequest t.szFileName).length ≤ dataSize := by
    rw [hname]
    exact hs.name
  unfold finish
  split
  · rename_i hneg
    refine ⟨hcontents, hsize, hused, hfile, nofun, nofun, hname', hdata, fun rc' fileSize h => ?_⟩
    obtain ⟨rfl, -⟩ := Phase.returned.inj h
    exact hneg
  · rename_i hneg
    have hrc0 : rc = 0 := Int.le_antisymm hrc (Int.not_lt.1 hneg)
    rw [hrc0, if_neg (by decide)]
    exact ⟨hcontents, hsize, hused, hfile, fun _ => hnext hrc0, nofun, hname', hdata, nofun⟩

theorem inv_same {buffer : Bytes} {n : Nat} {s : Sys} {t : Tftp} {sent : List Bytes} {rc : Int}
    {read : List Event} (hs : Inv buffer n s) (hloop : s.phase = .loop) (hsame : Same s.tftp t)
    (hread : ∀ packet, .sent packet ∉ read) (hsent : ∀ packet ∈ sent, opcode packet ≠ tftpData)
    (hrc : rc ≤ 0) (hnext : rc = 0 → t.nextBlock = s.tftp.nextBlock) :
    Inv buffer n ⟨t, finish t rc, s.log ++ read ++ sent.map .sent⟩ :=
  inv_finish hs (hsame.buffer.trans hs.contents) (hsame.bufferSize.trans hs.bufferSize)
    (hsame.bufferUsed.trans hs.bufferUsed) (hsame.fileSize.trans hs.fileSize) hsame.szFileName hread
    (fun packet hp hop => absurd hop (hsent packet hp)) hrc
    fun h0 => (hnext h0).trans (hs.nextBlock hloop)

theorem tftpProcessPacket_zero {t : Tftp} (io : Io) (h : t.length = 0) :
    tftpProcessPacket io t = tftpReSync io t :=
  if_pos h

theorem tftpProcessPacket_ack {t : Tftp} {rest : Bytes} {k : Nat} (io : Io)
    (hpb : t.packetBuffer = ackPacket k ++ rest) (hlen : t.length ≠ 0) :
    tftpProcessPacket io t =
      if t.nextBlock ≠ k % 2 ^ 16 then processOther io t else processAck io t := by
  unfold tftpProcessPacket
  dsimp only
  rw [hpb, opcode_ackPacket, block_ackPacket, if_neg hlen, if_neg (by decide), if_neg (by decide),
    if_pos rfl]

theorem recvfrom_ack (t : Tftp) (port k : Nat) :
    (recvfrom t port (ackPacket k)).packetBuffer =
      ackPacket k ++ t.packetBuffer.drop (ackPacket k).length :=
  overwrite_zero _ _

theorem recv_inv {buffer : Bytes} {n : Nat} {s : Sys} (hs : Inv buffer n s)
    (hlt : buffer.length < 2 ^ 32) (hloop : s.phase = .loop) {peer : Bool} {port : Nat}
    {bytes : Bytes} {io : Io} (hcond : SendCond s (.recv peer port bytes io)) :
    ∃ s' o n', sysStep s (.recv peer port bytes io) = some (s', o) ∧ Inv buffer n' s' := by
  obtain ⟨hserver, hcond⟩ := hcond
  unfold FromServer at hserver
  rw [hloop] at hserver hcond
  unfold sysStep tftpSendFile transferStep reads
  rw [hloop]
  by_cases hpeer : fromPeer s.tftp peer port = true
  · obtain ⟨k, rfl⟩ := hserver hpeer
    have hcond := hcond hpeer
    have hblock : block (ackPacket k) = k % 2 ^ 16 := by
      rw [← List.append_nil (ackPacket k), block_ackPacket]
    rw [hblock] at hcond
    let t : Tftp := { recvfrom s.tftp port (ackPacket k) with length := 4 }
    have hread : ∀ packet, Event.sent packet ∉ [.read (ackPacket k)] := by
      intro packet hp
      cases List.mem_singleton.1 hp
    have hprocess := tftpProcessPacket_ack (t := t) io (recvfrom_ack s.tftp port k)
      (Nat.succ_ne_zero 3)
    -- what the step makes of what `tftpProcessPacket` gives
    have hstep : ∀ {t' sent rc n'}, tftpProcessPacket io t = some (t', sent, rc) →
        Inv buffer n' ⟨t', finish t' rc, s.log ++ [.read (ackPacket k)] ++ sent.map .sent⟩ →
        ∃ s' o n', (loopStep s.tftp (.recv peer port (ackPacket k) io)).map
          (fun (tftp, phase, sent) => ((⟨tftp, phase, s.log ++
            (if fromPeer s.tftp peer port then [.read (ackPacket k)] else []) ++
              sent.map .sent⟩ : Sys), ())) = some (s', o) ∧ Inv buffer n' s' := by
      intro t' sent rc n' hres hinv
      refine ⟨_, (), n', ?_, hinv⟩
      unfold loopStep
      dsimp only
      rw [if_pos hpeer, if_pos hpeer]
      show ((tftpProcessPacket io t).map _).map _ = _
      rw [hres]
      rfl
    by_cases hne : s.tftp.nextBlock = k % 2 ^ 16
    · rw [if_pos hne] at hcond
      obtain ⟨t', rc, hack, hcontents, hsize, hfile, hname, hused, hnext, hfull, hrc⟩ :=
        processAck_eq (t := t) io hs.contents hs.bufferSize hlt hs.bufferUsed hcond
          (hs.nextBlock hloop)
      have hres : tftpProcessPacket io t = some (t', [dataPacket buffer (n + 1)], rc) := by
        rw [hprocess]
        exact (if_neg (not_not_intro hne)).trans hack
      refine hstep hres (inv_finish hs hcontents hsize hused (hfile.trans hs.fileSize) hname hread
        (fun packet hp _ => ?_) hrc fun _ => hnext)
      refine ⟨n + 1, Nat.le_add_left 1 n, ?_, List.mem_singleton.1 hp⟩
      rw [Nat.add_sub_cancel]
      exact hfull
    · rw [if_neg hne] at hcond
      have hlt' : t.nextBlock < 2 ^ 16 := by
        show s.tftp.nextBlock < _
        rw [hs.nextBlock hloop]
        exact Nat.mod_lt _ (by decide)
      obtain ⟨t', sent, rc, hsync, hsame, hrc, hnext, hsent⟩ :=
        tftpReSync_noData (t := t) hlt' hs.name hcond
      have hres : tftpProcessPacket io t = some ({ t' with length := 0 }, sent, rc) := by
        rw [hprocess]
        refine (if_pos hne).trans ?_
        unfold processOther
        rw [hsync]
        rfl
      refine hstep hres (inv_same hs hloop ?_ hread hsent hrc hnext)
      exact ⟨hsame.szFileName, hsame.buffer, hsame.bufferSize, hsame.bufferUsed, hsame.fileSize⟩
  · unfold loopStep
    dsimp only
    rw [if_neg hpeer, if_neg hpeer]
    refine ⟨_, (), n, rfl, hs.contents, hs.bufferSize, hs.bufferUsed, hs.fileSize,
      fun _ => hs.nextBlock hloop, nofun, hs.name, ?_, nofun⟩
    show ∀ packet, .sent packet ∈ s.log ++ [] ++ [] → _
    rw [List.append_nil, List.append_nil]
    exact hs.data

theorem tftpWRQBuild_eq {t : Tftp} (h : (readRequest t.szFileName).length ≤ dataSize) :
    ∃ t', tftpWRQBuild t = some t' ∧ Same t t' ∧ opcode (tftpPacket t') = tftpWrq := by
  refine ⟨_, if_pos h, ⟨rfl, rfl, rfl, rfl, rfl⟩, ?_⟩
  rw [tftpPacket_overwrite t, List.append_assoc, List.append_assoc]
  exact opcode_htons _ _

theorem start_inv {buffer : Bytes} {n : Nat} {s : Sys} (hs : Inv buffer n s)
    (hstart : s.phase = .start) (io : Io) :
    ∃ s' o n', sysStep s (.start io) = some (s', o) ∧ Inv buffer n' s' := by
  obtain ⟨t, hbuild, hsame, hpacket⟩ := tftpWRQBuild_eq hs.name
  have hsent : ∀ packet ∈ [tftpPacket t], opcode packet = tftpData →
      ∃ n, 1 ≤ n ∧ segsize * (n - 1) ≤ buffer.length ∧ packet = dataPacket buffer n := by
    intro packet hp hop
    rw [List.mem_singleton.1 hp, hpacket] at hop
    exact absurd hop (by decide)
  -- what the step leaves
  have hinv : ∀ {t' rc}, Same t t' → rc ≤ 0 → (rc = 0 → t'.nextBlock = 0) →
      Inv buffer n ⟨t', finish t' rc, s.log ++ [] ++ [tftpPacket t].map .sent⟩ := by
    intro t' rc hsame' hrc hnext
    have hsame' := hsame.trans hsame'
    refine inv_finish hs (hsame'.buffer.trans hs.contents) (hsame'.bufferSize.trans hs.bufferSize)
      (hsame'.bufferUsed.trans hs.bufferUsed) (hsame'.fileSize.trans hs.fileSize)
      hsame'.szFileName nofun hsent hrc fun h0 => ?_
    rw [hnext h0, hs.start hstart, Nat.zero_mod]
  unfold sysStep tftpSendFile transferStep transferStart
  rw [hstart]
  dsimp only
  rw [hbuild]
  refine ⟨_, (), n, rfl, ?_⟩
  show Inv buffer n (Sys.mk _ _ _)
  split
  · rename_i hneg
    exact hinv ⟨rfl, rfl, rfl, rfl, rfl⟩ (Int.le_of_lt hneg) fun h0 => absurd h0 (Int.ne_of_lt hneg)
  · have hloop : ∀ t' : Tftp, finish t' 0 = .loop := fun _ => rfl
    have h0 := @hinv { t with maxSyncError := maxSyncTries, nextBlock := 0 } 0
      ⟨rfl, rfl, rfl, rfl, rfl⟩ (Int.le_refl 0) fun _ => rfl
    rw [hloop] at h0
    exact h0

theorem timeout_inv {buffer : Bytes} {n : Nat} {s : Sys} (hs : Inv buffer n s)
    (hloop : s.phase = .loop) {io : Io} (hcond : SendCond s (.timeout io)) :
    ∃ s' o n', sysStep s (.timeout io) = some (s', o) ∧ Inv buffer n' s' := by
  have hop := hcond.2
  rw [hloop] at hop
  have hlt : s.tftp.nextBlock < 2 ^ 16 := by
    rw [hs.nextBlock hloop]
    exact Nat.mod_lt _ (by decide)
  obtain ⟨t', sent, rc, hsync, hsame, hrc, hnext, hsent⟩ :=
    tftpReSync_noData (t := { s.tftp with length := 0 }) hlt hs.name hop
  have hsame' : Same s.tftp t' :=
    ⟨hsame.szFileName, hsame.buffer, hsame.bufferSize, hsame.bufferUsed, hsame.fileSize⟩
  refine ⟨_, (), n, ?_, @inv_same buffer n s t' sent rc [] hs hloop hsame' nofun hsent hrc hnext⟩
  unfold sysStep tftpSendFile transferStep loopStep process
  rw [hloop]
  dsimp only
  rw [tftpProcessPacket_zero _ rfl, hsync]
  rfl

theorem sysStep_inv {buffer : Bytes} {n : Nat} {s : Sys} (hs : Inv buffer n s)
    (hlt : buffer.length < 2 ^ 32) {act : Act} (hcond : SendCond s act) :
    ∃ s' o n', sysStep s act = some (s', o) ∧ Inv buffer n' s' := by
  -- nothing is read or sent, and nothing changes
  have hstay : ∀ phase, s.phase = phase → reads s act = [] →
      tftpSendFile s.tftp phase act = some (s.tftp, phase, []) →
      ∃ s' o n', sysStep s act = some (s', o) ∧ Inv buffer n' s' := by
    intro phase hphase hreads hsend
    refine ⟨s, (), n, ?_, hs⟩
    unfold sysStep
    rw [hphase, hsend, hreads]
    show some (Sys.mk s.tftp phase (s.log ++ [] ++ []), ()) = _
    rw [List.append_nil, List.append_nil, ← hphase]
  cases hphase : s.phase with
  | start =>
    cases act with
    | start io => exact start_inv hs hphase io
    | recv peer port bytes io => exact hstay _ hphase (by simp [reads, hphase]) rfl
    | timeout io => exact hstay _ hphase rfl rfl
    | error => exact hstay _ hphase rfl rfl
  | returned rc fileSize =>
    cases act with
    | recv peer port bytes io => exact hstay _ hphase (by simp [reads, hphase]) rfl
    | _ => exact hstay _ hphase rfl rfl
  | loop =>
    cases act with
    | recv peer port bytes io => exact recv_inv hs hlt hphase hcond
    | timeout io => exact timeout_inv hs hphase hcond
    | start io => exact hstay _ hphase rfl rfl
    | error =>
      have hinv := @inv_same buffer n s s.tftp [] tftperrorSocket [] hs hphase
        ⟨rfl, rfl, rfl, rfl, rfl⟩ nofun nofun (by decide) fun h0 => absurd h0 (by decide)
      refine ⟨_, (), n, ?_, hinv⟩
      unfold sysStep tftpSendFile transferStep
      rw [hphase]
      rfl

theorem inv_init (szFileName buffer : Bytes) (packetBuffer : Vector UInt8 dataSize)
    (hname : (readRequest szFileName).length ≤ dataSize) :
    Inv buffer 0 (sysInit szFileName buffer packetBuffer) where
  contents := rfl
  bufferSize := rfl
  bufferUsed := (Nat.zero_min _).symm
  fileSize := rfl
  nextBlock := nofun
  start _ := rfl
  name := hname
  data := nofun
  fails := nofun

/-! ## Transfers that complete -/

/-- What is reported as complete has ended with a packet of data. -/
def EndsWithData (s : Sys) : Prop :=
  ∀ fileSize, s.phase = .returned 1 fileSize →
    ∃ log packet, s.log = log ++ [.sent packet] ∧ opcode packet = tftpData

theorem EndsWithData.not_law {buffer : Bytes} {s : Sys} (h : EndsWithData s) {fileSize : Nat}
    (hphase : s.phase = .returned 1 fileSize) : ¬ SendLaw buffer s := by
  intro hlaw
  obtain ⟨log, packet, hlog, hop⟩ := h fileSize hphase
  obtain ⟨-, n, hlast⟩ := hlaw.done fileSize hphase
  obtain ⟨before, after, hsplit, hnone, hread⟩ := hlast.acked
  cases after with
  | nil => cases hread
  | cons event after =>
    have hend : s.log.getLast? = some (.sent packet) := by
      rw [hlog]
      exact List.getLast?_concat
    rw [hsplit, List.getLast?_append_cons, List.getLast?_cons_cons] at hend
    exact hnone packet (List.mem_of_getLast? hend) hop

theorem finish_done {t : Tftp} {rc : Int} {fileSize : Nat} (h : finish t rc = .returned 1 fileSize) :
    rc = 1 := by
  unfold finish at h
  split at h
  · rename_i hneg
    exact (Phase.returned.inj h).1
  · split at h
    · assumption
    · cases h

theorem process_eq {t t' : Tftp} {io : Io} {phase : Phase} {sent : List Bytes}
    (h : process io t = some (t', phase, sent)) :
    ∃ rc, tftpProcessPacket io t = some (t', sent, rc) ∧ phase = finish t' rc := by
  obtain ⟨⟨t₁, sent₁, rc⟩, hprocess, he⟩ := Option.map_eq_some_iff.1 h
  obtain ⟨rfl, rfl, rfl⟩ : t₁ = t' ∧ finish t₁ rc = phase ∧ sent₁ = sent := by simpa using he
  exact ⟨rc, hprocess, rfl⟩

theorem loopStep_done {s : Sys} {act : Act} (hcond : FromServer s act) (hloop : s.phase = .loop)
    {t : Tftp} {sent : List Bytes} {fileSize : Nat}
    (h : loopStep s.tftp act = some (t, .returned 1 fileSize, sent)) :
    ∃ packet, sent = [packet] ∧ opcode packet = tftpData := by
  cases act with
  | start io => cases h
  | error => cases h
  | timeout io =>
    obtain ⟨rc, hprocess, hfinish⟩ := process_eq h
    rw [tftpProcessPacket_zero _ rfl] at hprocess
    obtain rfl := finish_done hfinish.symm
    exact absurd (tftpReSync_rc hprocess) (by decide)
  | recv peer port bytes io =>
    unfold loopStep at h
    dsimp only at h
    split at h
    · rename_i hpeer
      unfold FromServer at hcond
      rw [hloop] at hcond
      obtain ⟨k, rfl⟩ := hcond hpeer
      obtain ⟨rc, hprocess, hfinish⟩ := process_eq h
      obtain rfl := finish_done hfinish.symm
      let t₁ : Tftp := { recvfrom s.tftp port (ackPacket k) with length := 4 }
      have hack := tftpProcessPacket_ack (t := t₁) io (recvfrom_ack s.tftp port k)
        (Nat.succ_ne_zero 3)
      have hprocess := hack.symm.trans hprocess
      split at hprocess
      · exact absurd (processOther_rc hprocess) (by decide)
      · exact processAck_packet hprocess
    · cases h

theorem sysStep_ends {s s' : Sys} {act : Act} {o : Unit} (hs : EndsWithData s)
    (hcond : FromServer s act) (h : sysStep s act = some (s', o)) : EndsWithData s' := by
  obtain ⟨⟨t, phase, sent⟩, hsend, he⟩ := Option.map_eq_some_iff.1 h
  obtain ⟨rfl, -⟩ := Prod.mk.inj he
  intro fileSize hphase'
  obtain rfl : phase = .returned 1 fileSize := hphase'
  unfold tftpSendFile transferStep at hsend
  cases hphase : s.phase with
  | start =>
    rw [hphase] at hsend
    cases act with
    | start io =>
      obtain ⟨t₁, -, hstart⟩ := Option.map_eq_some_iff.1 hsend
      split at hstart
      · rename_i hneg
        obtain ⟨-, hfinish, -⟩ : _ ∧ finish t₁ (tftpSend io) = _ ∧ _ := by simpa using hstart
        rw [finish_done hfinish] at hneg
        exact absurd hneg (by decide)
      · cases hstart
    | _ => cases hsend
  | loop =>
    rw [hphase] at hsend
    obtain ⟨packet, rfl, hop⟩ := loopStep_done hcond hphase hsend
    exact ⟨_, packet, rfl, hop⟩
  | returned rc size =>
    rw [hphase] at hsend
    obtain ⟨-, ⟨rfl, rfl⟩, rfl⟩ : _ ∧ (rc = 1 ∧ size = fileSize) ∧ [] = sent := by simpa using hsend
    have hreads : reads s act = [] := by
      unfold reads
      rw [hphase]
      split <;> rfl
    obtain ⟨log, packet, hlog, hop⟩ := hs size hphase
    refine ⟨log, packet, ?_, hop⟩
    show s.log ++ reads s act ++ [] = _
    rw [hreads, List.append_nil, List.append_nil]
    exact hlog

/-! ## The results -/

/-- In every run in which an acknowledgement comes only while there is something left to send, and
`tftpReSync` does not find one in the packet buffer. A transfer that completes does not have the
property: the last packet of data is sent by the step that completes it. -/
theorem tftp_send (szFileName buffer : Bytes) (packetBuffer : Vector UInt8 dataSize)
    (hlt : buffer.length < 2 ^ 32) (hname : (readRequest szFileName).length ≤ dataSize) :
    (∀ is, Meets sysStep SendCond (sysInit szFileName buffer packetBuffer) is →
      ∃ s os, runs sysStep (sysInit szFileName buffer packetBuffer) is = some (s, os) ∧
        SendLaw buffer s) ∧
    ∀ is s os fileSize, Meets sysStep FromServer (sysInit szFileName buffer packetBuffer) is →
      runs sysStep (sysInit szFileName buffer packetBuffer) is = some (s, os) →
      s.phase = .returned 1 fileSize → ¬ SendLaw buffer s := by
  constructor
  · intro is hmeets
    have hstep : ∀ s act, (∃ n, Inv buffer n s) → SendCond s act →
        ∃ s' o, sysStep s act = some (s', o) ∧ ∃ n, Inv buffer n s' := by
      rintro s act ⟨n, hI⟩ hC
      obtain ⟨s', o, n', hs, hinv⟩ := sysStep_inv hI hlt hC
      exact ⟨s', o, hs, n', hinv⟩
    obtain ⟨s, os, hr, n, hinv⟩ := runs_invariant (I := fun s => ∃ n, Inv buffer n s) hstep
      ⟨0, inv_init szFileName buffer packetBuffer hname⟩ hmeets
    exact ⟨s, os, hr, hinv.law⟩
  · intro is s os fileSize hmeets hr hphase
    have hinit : EndsWithData (sysInit szFileName buffer packetBuffer) := by
      rintro fileSize ⟨⟩
    exact (hmeets.preserves (I := EndsWithData) sysStep_ends hinit hr).not_law hphase

/-- The first block has been sent. -/
theorem tftp_send_three :
    ∃ s os, runs sysStep (sysInit [102] [1, 2, 3] (Vector.replicate dataSize 0))
        [.start ⟨[], true⟩, .recv true 3000 (ackPacket 0) ⟨[], true⟩] = some (s, os) ∧
      SendLaw [1, 2, 3] s := by
  have h := (tftp_send [102] [1, 2, 3] (Vector.replicate dataSize 0) (by decide) (by decide)).1
  refine h _ ?_
  refine And.intro ⟨trivial, trivial⟩ <| And.intro ⟨fun _ => ⟨0, rfl⟩, fun _ => ?_⟩ trivial
  show if 0 = block (ackPacket 0) then 0 < 3 else _
  rw [if_pos (by decide)]
  decide

set_option maxRecDepth 20000 in
/-- A file of three bytes is reported as complete and empty, after a second packet without data that
nothing acknowledges. -/
theorem size_not_reported :
    ∃ s os, runs sysStep (sysInit [102] [1, 2, 3] (Vector.replicate dataSize 0))
        [.start ⟨[], true⟩, .recv true 3000 (ackPacket 0) ⟨[], true⟩,
          .recv true 3000 (ackPacket 1) ⟨[], true⟩] = some (s, os) ∧
      s.phase = .returned 1 0 ∧
      s.log.getLast? = some (.sent (htons tftpData ++ htons 2)) ∧ ¬ SendLaw [1, 2, 3] s := by
  refine ⟨_, _, rfl, by decide +kernel, by decide +kernel, fun h => ?_⟩
  obtain ⟨hsize, -⟩ := h.done 0 (by decide +kernel)
  exact absurd hsize (by decide)

end SimpleLink.NetApps.TftpSend
