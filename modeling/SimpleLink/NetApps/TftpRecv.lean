import SimpleLink.NetApps.TftpClient

/-!
# Receiving a file (`tftpGetFile`)

The server sends the blocks of a file; the network repeats and loses them, and other datagrams
arrive too. `received` counts the blocks that have been delivered in order.
-/

namespace SimpleLink.NetApps.TftpRecv

open Lib TftpClient

/-- Block `k` of a file, from block 1 on. -/
def fileBlock (file : Bytes) (k : Nat) : Bytes := (file.drop (segsize * (k - 1))).take segsize

/-- The blocks 1 to `n`. -/
def blocks (file : Bytes) (n : Nat) : Bytes :=
  (List.range n).flatMap fun k => fileBlock file (k + 1)

def dataPacket (file : Bytes) (k : Nat) : Bytes :=
  htons tftpData ++ htons k ++ fileBlock file k

def ackPacket (k : Nat) : Bytes := htons tftpAck ++ htons k

def readRequest (szFileName : Bytes) : Bytes :=
  htons tftpRrq ++ szFileName ++ [0] ++ [111, 99, 116, 101, 116, 0]

/-- `sent` records each packet that is sent, with the number of blocks received by then. -/
structure Sys where
  tftp : Tftp
  phase : Phase
  received : Nat
  sent : List (Nat × Bytes)

def sysInit (szFileName buffer : Bytes) (packetBuffer : Vector UInt8 dataSize) : Sys where
  tftp := tftpInit szFileName buffer packetBuffer
  phase := .start
  received := 0
  sent := []

def delivers (file : Bytes) (s : Sys) : Act → Bool
  | .recv peer port bytes _ =>
    match s.phase with
    | .loop => fromPeer s.tftp peer port && bytes = dataPacket file (s.received + 1)
    | _ => false
  | _ => false

def sysStep (file : Bytes) (s : Sys) (act : Act) : Option (Sys × Unit) :=
  (tftpGetFile s.tftp s.phase act).map fun (tftp, phase, sent) =>
    let received := if delivers file s act then s.received + 1 else s.received
    ({ tftp := tftp
       phase := phase
       received := received
       sent := s.sent ++ sent.map (received, ·) }, ())

/-! ## The property and the condition -/

structure RecvLaw (file : Bytes) (s : Sys) : Prop where
  buffer : s.tftp.buffer.take s.tftp.bufferUsed = (blocks file s.received).take s.tftp.bufferSize
  bufferUsed : s.tftp.bufferUsed = min (blocks file s.received).length s.tftp.bufferSize
  fileSize : s.tftp.fileSize = (blocks file s.received).length
  nextBlock : s.phase = .loop → s.tftp.nextBlock = (s.received + 1) % 2 ^ 16
  sent : ∀ p ∈ s.sent, p.2 = if p.1 = 0 then readRequest s.tftp.szFileName else ackPacket p.1
  whole : ∀ fileSize, s.phase = .returned 1 fileSize →
    s.tftp.buffer.take fileSize = file ∧ fileSize = file.length
  part : ∀ fileSize, s.phase = .returned 0 fileSize →
    s.tftp.buffer = file.take s.tftp.bufferSize ∧ fileSize = file.length

/-- A packet in the packet buffer leads to `tftpReSync`. -/
def Resyncs (t : Tftp) : Prop :=
  t.length = 0 ∨
    (opcode t.packetBuffer = tftpData ∨ opcode t.packetBuffer = tftpAck) ∧
      t.nextBlock ≠ block t.packetBuffer

/-- `tftpReSync` does not find an acknowledgement in the packet buffer, and block 0 is none that has
been received. -/
def ResyncOk (s : Sys) (t : Tftp) (io : Io) : Prop :=
  opcode (tftpFlushPackets io t.packetBuffer) ≠ tftpAck ∧ (t.nextBlock = 1 → s.received = 0)

/-- A datagram of the peer is a block of the file, the next one or one before; one with the number of
the next one is the next one. Or it is too short for a header, and with what the packet buffer has
held before is not taken for an error or for the next block. -/
def FromServer (file : Bytes) (s : Sys) (bytes : Bytes) (t : Tftp) : Prop :=
  (∃ k, 1 ≤ k ∧ k ≤ s.received + 1 ∧ bytes = dataPacket file k ∧
    (t.nextBlock = block t.packetBuffer → bytes = dataPacket file (s.received + 1))) ∨
  bytes.length < tftpHeader ∧ (bytes ≠ [] → opcode t.packetBuffer ≠ tftpError ∧
    (opcode t.packetBuffer = tftpData ∨ opcode t.packetBuffer = tftpAck →
      t.nextBlock ≠ block t.packetBuffer))

def RecvCond (file : Bytes) (s : Sys) (act : Act) : Prop :=
  match s.phase, act with
  | .loop, .timeout io => ResyncOk s s.tftp io
  | .loop, .recv peer port bytes io =>
    fromPeer s.tftp peer port = true →
      let t := { recvfrom s.tftp port bytes with length := (bytes.take dataSize).length }
      FromServer file s bytes t ∧ (Resyncs t → ResyncOk s t io)
  | _, _ => True

/-! ## Blocks -/

theorem blocks_eq_take (file : Bytes) (n : Nat) : blocks file n = file.take (segsize * n) := by
  induction n with
  | zero => rfl
  | succ n ih =>
    unfold blocks at ih ⊢
    rw [List.range_succ, List.flatMap_append, ih, List.flatMap_singleton, Nat.mul_succ,
      List.take_add]
    rfl

theorem blocks_succ (file : Bytes) (n : Nat) :
    blocks file (n + 1) = blocks file n ++ fileBlock file (n + 1) := by
  unfold blocks
  rw [List.range_succ, List.flatMap_append, List.flatMap_singleton]

theorem length_fileBlock_le (file : Bytes) (k : Nat) : (fileBlock file k).length ≤ segsize := by
  unfold fileBlock
  rw [List.length_take]
  exact Nat.min_le_left _ _

theorem length_dataPacket (file : Bytes) (k : Nat) :
    (dataPacket file k).length = tftpHeader + (fileBlock file k).length := by
  unfold dataPacket
  rw [List.length_append, List.length_append, length_htons, length_htons]

theorem take_dataPacket (file : Bytes) (k : Nat) :
    (dataPacket file k).take dataSize = dataPacket file k := by
  refine List.take_of_length_le ?_
  rw [length_dataPacket]
  exact Nat.add_le_add_left (length_fileBlock_le file k) tftpHeader

theorem opcode_dataPacket (file : Bytes) (k : Nat) (rest : Bytes) :
    opcode (dataPacket file k ++ rest) = tftpData := by
  unfold dataPacket
  rw [List.append_assoc, List.append_assoc]
  exact opcode_htons _ _

theorem block_dataPacket (file : Bytes) (k : Nat) (rest : Bytes) :
    block (dataPacket file k ++ rest) = k % 2 ^ 16 := by
  unfold dataPacket
  rw [List.append_assoc]
  exact block_htons _ _ _

/-! ## The invariant -/

/-- The caller's buffer and the counters. -/
structure Copied (file : Bytes) (n : Nat) (t : Tftp) : Prop where
  buffer : t.buffer.take t.bufferUsed = (blocks file n).take t.bufferSize
  bufferUsed : t.bufferUsed = min (blocks file n).length t.bufferSize
  fileSize : t.fileSize = (blocks file n).length
  bufferSize : t.buffer.length = t.bufferSize

/-- The fields that sending and receiving leave alone. -/
structure Same (t t' : Tftp) : Prop where
  szFileName : t'.szFileName = t.szFileName
  buffer : t'.buffer = t.buffer
  bufferSize : t'.bufferSize = t.bufferSize
  bufferUsed : t'.bufferUsed = t.bufferUsed
  fileSize : t'.fileSize = t.fileSize

theorem Copied.same {file : Bytes} {n : Nat} {t t' : Tftp} (h : Copied file n t) (hs : Same t t') :
    Copied file n t' := by
  refine ⟨?_, ?_, ?_, ?_⟩
  · rw [hs.buffer, hs.bufferUsed, hs.bufferSize]
    exact h.buffer
  · rw [hs.bufferUsed, hs.bufferSize]
    exact h.bufferUsed
  · rw [hs.fileSize]
    exact h.fileSize
  · rw [hs.buffer, hs.bufferSize]
    exact h.bufferSize

theorem Same.trans {t t' t'' : Tftp} (h : Same t t') (h' : Same t' t'') : Same t t'' :=
  ⟨h'.szFileName.trans h.szFileName, h'.buffer.trans h.buffer, h'.bufferSize.trans h.bufferSize,
    h'.bufferUsed.trans h.bufferUsed, h'.fileSize.trans h.fileSize⟩

/-- What is sent when `n` blocks have been received. -/
def lastPacket (szFileName : Bytes) (n : Nat) : Bytes :=
  if n = 0 then readRequest szFileName else ackPacket n

structure Inv (file : Bytes) (s : Sys) : Prop where
  copied : Copied file s.received s.tftp
  name : (readRequest s.tftp.szFileName).length ≤ dataSize
  start : s.phase = .start → s.received = 0
  nextBlock : s.phase = .loop → s.tftp.nextBlock = (s.received + 1) % 2 ^ 16
  full : s.phase = .loop → segsize * s.received ≤ file.length
  sent : ∀ p ∈ s.sent, p.2 = lastPacket s.tftp.szFileName p.1
  whole : ∀ fileSize, s.phase = .returned 1 fileSize →
    s.tftp.buffer.take fileSize = file ∧ fileSize = file.length
  part : ∀ fileSize, s.phase = .returned 0 fileSize →
    s.tftp.buffer = file.take s.tftp.bufferSize ∧ fileSize = file.length

theorem Inv.law {file : Bytes} {s : Sys} (h : Inv file s) : RecvLaw file s :=
  ⟨h.copied.buffer, h.copied.bufferUsed, h.copied.fileSize, h.nextBlock, h.sent, h.whole, h.part⟩

/-! ## Sending again -/

theorem tftpRRQBuild_eq {t : Tftp} (h : (readRequest t.szFileName).length ≤ dataSize) :
    ∃ t', tftpRRQBuild t = some t' ∧ Same t t' ∧ t'.nextBlock = t.nextBlock ∧
      tftpPacket t' = readRequest t.szFileName := by
  refine ⟨_, if_pos h, ⟨rfl, rfl, rfl, rfl, rfl⟩, rfl, ?_⟩
  exact tftpPacket_overwrite t (readRequest t.szFileName)

theorem tftpACKBuild_packet (t : Tftp) : tftpPacket (tftpACKBuild t) = ackPacket t.nextBlock :=
  tftpPacket_overwrite t (htons tftpAck ++ htons t.nextBlock)

theorem resend_same (io : Io) (t : Tftp) :
    Same t (resend io t).1 ∧ (resend io t).2.1 = [tftpPacket t] ∧ (resend io t).2.2 ≤ 0 ∧
      ((resend io t).2.2 = 0 → (resend io t).1.nextBlock = (t.nextBlock + 1) % 2 ^ 16) := by
  unfold resend
  split
  · rename_i hneg
    exact ⟨⟨rfl, rfl, rfl, rfl, rfl⟩, rfl, Int.le_of_lt hneg, fun h0 => absurd h0 (Int.ne_of_lt hneg)⟩
  · refine ⟨⟨rfl, rfl, rfl, rfl, rfl⟩, rfl, ?_, fun _ => rfl⟩
    show tftpSend io ≤ 0
    unfold tftpSend
    split <;> decide

/-- `tftpReSync` sends the last packet again, and leaves the transfer as it is. -/
theorem tftpReSync_eq {t : Tftp} {io : Io} {n : Nat}
    (hname : (readRequest t.szFileName).length ≤ dataSize)
    (hnext : t.nextBlock = (n + 1) % 2 ^ 16)
    (hop : opcode (tftpFlushPackets io t.packetBuffer) ≠ tftpAck)
    (hzero : t.nextBlock = 1 → n = 0) :
    ∃ t' sent rc, tftpReSync io t = some (t', sent, rc) ∧ Same t t' ∧ rc ≤ 0 ∧
      (rc = 0 → t'.nextBlock = t.nextBlock) ∧
      ∀ packet ∈ sent, packet = lastPacket t.szFileName n := by
  have hback : (t.nextBlock + (2 ^ 16 - 1)) % 2 ^ 16 = n % 2 ^ 16 := by
    rw [hnext]
    omega
  have hforth : (n % 2 ^ 16 + 1) % 2 ^ 16 = t.nextBlock := by
    rw [hnext]
    omega
  unfold tftpReSync
  dsimp only
  split
  · exact ⟨_, _, _, rfl, ⟨rfl, rfl, rfl, rfl, rfl⟩, by decide,
      fun h0 => absurd h0 (by decide), nofun⟩
  · rw [hback]
    split
    · split
      · rename_i hn
        have hn0 : n = 0 := by
          refine hzero ?_
          rw [hnext]
          omega
        let t₀ : Tftp := { t with
          packetBuffer := tftpFlushPackets io t.packetBuffer
          maxSyncError := t.maxSyncError - 1
          nextBlock := n % 2 ^ 16 }
        obtain ⟨t', hbuild, hsame, hblock, hpacket⟩ := tftpRRQBuild_eq (t := t₀) hname
        obtain ⟨hsame', hsent, hrc, hnextBlock⟩ := resend_same io t'
        refine ⟨(resend io t').1, (resend io t').2.1, (resend io t').2.2,
          congrArg (Option.map (resend io)) hbuild, ?_, hrc, fun h0 => ?_, fun packet hp => ?_⟩
        · exact Same.trans ⟨hsame.szFileName, hsame.buffer, hsame.bufferSize, hsame.bufferUsed,
            hsame.fileSize⟩ hsame'
        · refine (hnextBlock h0).trans ?_
          rw [hblock]
          exact hforth
        · rw [hsent] at hp
          rw [List.mem_singleton.1 hp, hpacket]
          unfold lastPacket
          rw [if_pos hn0]
      · rename_i hn
        have hn0 : n ≠ 0 := by
          rintro rfl
          exact hn rfl
        let t₀ : Tftp := { t with
          packetBuffer := tftpFlushPackets io t.packetBuffer
          maxSyncError := t.maxSyncError - 1
          nextBlock := n % 2 ^ 16 }
        have hack : Same t (tftpACKBuild t₀) := ⟨rfl, rfl, rfl, rfl, rfl⟩
        obtain ⟨hsame', hsent, hrc, hnextBlock⟩ := resend_same io (tftpACKBuild t₀)
        refine ⟨(resend io (tftpACKBuild t₀)).1, (resend io (tftpACKBuild t₀)).2.1,
          (resend io (tftpACKBuild t₀)).2.2, rfl, hack.trans hsame', hrc, fun h0 => ?_,
          fun packet hp => ?_⟩
        · exact (hnextBlock h0).trans hforth
        · rw [hsent] at hp
          rw [List.mem_singleton.1 hp, tftpACKBuild_packet]
          unfold lastPacket ackPacket
          rw [if_neg hn0]
          show _ ++ htons (n % 2 ^ 16) = _
          rw [htons_mod]
    · exact ⟨_, _, _, rfl, ⟨rfl, rfl, rfl, rfl, rfl⟩, by decide,
        fun h0 => absurd h0 (by decide), nofun⟩

/-! ## The next block -/

theorem length_blocks (file : Bytes) (n : Nat) :
    (blocks file n).length = min (segsize * n) file.length := by
  rw [blocks_eq_take, List.length_take]

theorem packetData_eq {file : Bytes} {k c : Nat} {t : Tftp} {rest : Bytes}
    (hpb : t.packetBuffer = dataPacket file k ++ rest) (hc : c ≤ (fileBlock file k).length) :
    packetData t c = some ((fileBlock file k).take c) := by
  have hle := Nat.le_trans hc (length_fileBlock_le file k)
  have hdrop : t.packetBuffer.drop tftpHeader = fileBlock file k ++ rest := by
    rw [hpb]
    unfold dataPacket
    rw [List.append_assoc]
    exact List.drop_left' rfl
  unfold packetData
  rw [if_pos hle, hdrop, List.take_append_of_le_length hc]

theorem copyData_eq {file : Bytes} {n : Nat} {t : Tftp} {rest : Bytes}
    (hbuffer : t.buffer.take t.bufferUsed = (blocks file n).take t.bufferSize)
    (hused : t.bufferUsed = min (blocks file n).length t.bufferSize)
    (hsize : t.buffer.length = t.bufferSize)
    (hfile : t.fileSize = (blocks file (n + 1)).length)
    (hpb : t.packetBuffer = dataPacket file (n + 1) ++ rest) :
    ∃ t', copyData t (fileBlock file (n + 1)).length = some t' ∧ Copied file (n + 1) t' ∧
      t'.szFileName = t.szFileName ∧ t'.length = t.length ∧ t'.nextBlock = t.nextBlock := by
  have hsucc := blocks_succ file n
  unfold copyData
  by_cases hroom : t.bufferSize > t.bufferUsed
  · rw [if_pos hroom]
    have hlen : t.bufferUsed = (blocks file n).length := by omega
    have hall : (blocks file n).take t.bufferSize = blocks file n :=
      List.take_of_length_le (by omega)
    rw [hall] at hbuffer
    obtain ⟨c, hc, hcle, htake⟩ : ∃ c, (if t.bufferSize - t.bufferUsed <
        (fileBlock file (n + 1)).length then t.bufferSize - t.bufferUsed
        else (fileBlock file (n + 1)).length) = c ∧ c ≤ (fileBlock file (n + 1)).length ∧
        c = min (fileBlock file (n + 1)).length (t.bufferSize - t.bufferUsed) := by
      refine ⟨_, rfl, ?_, ?_⟩
      · split <;> omega
      · split <;> omega
    have hdata : ((fileBlock file (n + 1)).take c).length = c := by
      rw [List.length_take, Nat.min_eq_left hcle]
    rw [hc]
    refine ⟨_, congrArg (Option.map _) (packetData_eq hpb hcle), ⟨?_, ?_, hfile, ?_⟩, rfl, rfl, rfl⟩
    · have hpos : t.bufferUsed ≤ t.buffer.length := by omega
      have htake' := take_overwrite hpos ((fileBlock file (n + 1)).take c)
      rw [hdata] at htake'
      refine htake'.trans ?_
      show _ = (blocks file (n + 1)).take t.bufferSize
      have hmin : (fileBlock file (n + 1)).take c =
          (fileBlock file (n + 1)).take (t.bufferSize - t.bufferUsed) := by
        rw [htake, Nat.min_comm]
        exact List.take_eq_take_min.symm
      rw [hbuffer, hsucc, List.take_append, hall, ← hlen, hmin]
    · show t.bufferUsed + c = min (blocks file (n + 1)).length t.bufferSize
      rw [hsucc, List.length_append]
      omega
    · refine (length_overwrite ?_).trans hsize
      rw [hdata]
      omega
  · rw [if_neg hroom]
    refine ⟨t, rfl, ⟨?_, ?_, hfile, hsize⟩, rfl, rfl, rfl⟩
    · rw [hbuffer, hsucc, List.take_append_of_le_length (by omega)]
    · rw [hsucc, List.length_append]
      omega

theorem subU32_header {n : Nat} (h : n ≤ segsize) : subU32 (tftpHeader + n) tftpHeader = n := by
  have hlt : n < 2 ^ 32 := Nat.lt_of_le_of_lt h (by decide)
  unfold subU32
  have hsub : tftpHeader + n + 2 ^ 32 - tftpHeader = n + 2 ^ 32 := by
    rw [Nat.add_assoc]
    exact Nat.add_sub_cancel_left ..
  rw [hsub, Nat.add_mod_right, Nat.mod_eq_of_lt hlt]

theorem processBlock_eq {file : Bytes} {n : Nat} {t : Tftp} {rest : Bytes} (io : Io)
    (hcopied : Copied file n t) (hfile : file.length < 2 ^ 32)
    (hnext : t.nextBlock = (n + 1) % 2 ^ 16)
    (hpb : t.packetBuffer = dataPacket file (n + 1) ++ rest)
    (hlength : t.length = (dataPacket file (n + 1)).length) :
    ∃ t' sent rc, processBlock io t = some (t', sent, rc) ∧ Copied file (n + 1) t' ∧
      t'.szFileName = t.szFileName ∧ (∀ packet ∈ sent, packet = ackPacket (n + 1)) ∧
      (rc < 0 ∨ rc = 1 ∧ (fileBlock file (n + 1)).length < segsize ∨
        rc = 0 ∧ segsize ≤ (fileBlock file (n + 1)).length ∧
          t'.nextBlock = (n + 2) % 2 ^ 16) := by
  have hle := length_fileBlock_le file (n + 1)
  have hlen : subU32 t.length tftpHeader = (fileBlock file (n + 1)).length := by
    rw [hlength, length_dataPacket]
    exact subU32_header hle
  have htotal : (t.fileSize + (fileBlock file (n + 1)).length) % 2 ^ 32 =
      (blocks file (n + 1)).length := by
    rw [hcopied.fileSize, ← List.length_append, ← blocks_succ]
    refine Nat.mod_eq_of_lt ?_
    rw [length_blocks]
    omega
  let t₀ : Tftp := { t with
    peerPort := if t.nextBlock = 1 then t.tmpPort else t.peerPort
    maxSyncError := maxSyncTries
    length := (fileBlock file (n + 1)).length
    fileSize := (blocks file (n + 1)).length }
  obtain ⟨t₁, hcopy, hcopied', hname, hlength', hblock⟩ := copyData_eq (t := t₀) hcopied.buffer
    hcopied.bufferUsed hcopied.bufferSize rfl hpb
  have hack : tftpPacket (tftpACKBuild t₁) = ackPacket (n + 1) := by
    rw [tftpACKBuild_packet, hblock]
    show _ ++ htons t.nextBlock = _
    rw [hnext, htons_mod]
    rfl
  have hsame : Copied file (n + 1) (tftpACKBuild t₁) := hcopied'.same ⟨rfl, rfl, rfl, rfl, rfl⟩
  unfold processBlock
  simp only [hlen, htotal]
  rw [hcopy]
  simp only [Option.map_some]
  split
  · rename_i hneg
    refine ⟨_, _, _, rfl, hsame, hname, fun packet hp => ?_, .inl hneg⟩
    rw [List.mem_singleton.1 hp, hack]
  · refine ⟨_, _, _, rfl, hsame.same ⟨rfl, rfl, rfl, rfl, rfl⟩, hname, fun packet hp => ?_, .inr ?_⟩
    · rw [List.mem_singleton.1 hp, hack]
    · have hlength' : t₁.length = (fileBlock file (n + 1)).length := hlength'
      rw [hlength']
      split
      · rename_i hlt
        exact .inl ⟨rfl, hlt⟩
      · rename_i hge
        refine .inr ⟨rfl, Nat.le_of_not_lt hge, ?_⟩
        show (t₁.nextBlock + 1) % 2 ^ 16 = _
        rw [hblock]
        show (t.nextBlock + 1) % 2 ^ 16 = _
        rw [hnext]
        omega

/-! ## The loop -/

theorem blocks_whole {file : Bytes} {n : Nat} (hfull : segsize * n ≤ file.length)
    (hshort : (fileBlock file (n + 1)).length < segsize) : blocks file (n + 1) = file := by
  rw [blocks_eq_take]
  refine List.take_of_length_le ?_
  have hlen : (fileBlock file (n + 1)).length = min segsize (file.length - segsize * n) := by
    unfold fileBlock
    rw [List.length_take, List.length_drop, Nat.add_sub_cancel]
  rw [Nat.mul_succ]
  omega

theorem full_succ {file : Bytes} {n : Nat} (hfull : segsize * n ≤ file.length)
    (hlen : segsize ≤ (fileBlock file (n + 1)).length) : segsize * (n + 1) ≤ file.length := by
  unfold fileBlock at hlen
  rw [List.length_take, List.length_drop, Nat.add_sub_cancel] at hlen
  rw [Nat.mul_succ]
  omega

theorem inv_finish {file : Bytes} {s : Sys} {n : Nat} {t : Tftp} {sent : List Bytes} {rc : Int}
    (hs : Inv file s) (hcopied : Copied file n t) (hname : t.szFileName = s.tftp.szFileName)
    (hsent : ∀ packet ∈ sent, packet = lastPacket s.tftp.szFileName n)
    (hrc : rc < 0 ∨ rc = 1 ∧ blocks file n = file ∨
      rc = 0 ∧ segsize * n ≤ file.length ∧ t.nextBlock = (n + 1) % 2 ^ 16) :
    Inv file {
      tftp := t
      phase := finish t rc
      received := n
      sent := s.sent ++ sent.map (n, ·) } := by
  have hname' : (readRequest t.szFileName).length ≤ dataSize := by
    rw [hname]
    exact hs.name
  have hsent' : ∀ p ∈ s.sent ++ sent.map (n, ·), p.2 = lastPacket t.szFileName p.1 := by
    intro p hp
    rw [hname]
    rcases List.mem_append.1 hp with hp | hp
    · exact hs.sent p hp
    · obtain ⟨packet, hpacket, rfl⟩ := List.mem_map.1 hp
      exact hsent packet hpacket
  unfold finish
  rcases hrc with hneg | ⟨rfl, hwhole⟩ | ⟨rfl, hfull, hnext⟩
  · rw [if_pos hneg]
    refine ⟨hcopied, hname', nofun, nofun, nofun, hsent', fun fileSize h => ?_, fun fileSize h => ?_⟩
    · obtain ⟨rfl, -⟩ := Phase.returned.inj h
      exact absurd hneg (by decide)
    · obtain ⟨rfl, -⟩ := Phase.returned.inj h
      exact absurd hneg (by decide)
  · have hsize := hcopied.fileSize
    have hused := hcopied.bufferUsed
    have hbuffer := hcopied.buffer
    rw [hwhole] at hsize hused hbuffer
    rw [if_neg (by decide), if_pos rfl]
    refine ⟨hcopied, hname', nofun, nofun, nofun, hsent', fun fileSize h => ?_, fun fileSize h => ?_⟩
    · obtain ⟨hrc, rfl⟩ := Phase.returned.inj h
      split at hrc
      · cases hrc
      · rename_i hge
        have hle : file.length ≤ t.bufferSize := by omega
        refine ⟨?_, hsize⟩
        rw [List.take_of_length_le hle] at hbuffer
        have heq : t.fileSize = t.bufferUsed := by omega
        show t.buffer.take t.fileSize = file
        rw [heq]
        exact hbuffer
    · obtain ⟨hrc, rfl⟩ := Phase.returned.inj h
      split at hrc
      · rename_i hlt
        refine ⟨?_, hsize⟩
        have heq : t.bufferUsed = t.buffer.length := by
          rw [hcopied.bufferSize]
          omega
        rw [heq, List.take_length] at hbuffer
        exact hbuffer
      · cases hrc
  · rw [if_neg (by decide), if_neg (by decide)]
    exact ⟨hcopied, hname', nofun, fun _ => hnext, fun _ => hfull, hsent', nofun, nofun⟩

theorem processOther_eq {t : Tftp} {io : Io} {n : Nat}
    (hname : (readRequest t.szFileName).length ≤ dataSize)
    (hnext : t.nextBlock = (n + 1) % 2 ^ 16)
    (hop : opcode (tftpFlushPackets io t.packetBuffer) ≠ tftpAck)
    (hzero : t.nextBlock = 1 → n = 0) :
    ∃ t' sent rc, processOther io t = some (t', sent, rc) ∧ Same t t' ∧ rc ≤ 0 ∧
      (rc = 0 → t'.nextBlock = t.nextBlock) ∧
      ∀ packet ∈ sent, packet = lastPacket t.szFileName n := by
  obtain ⟨t', sent, rc, hsync, hsame, hrc, hblock, hsent⟩ := tftpReSync_eq hname hnext hop hzero
  refine ⟨{ t' with length := 0 }, sent, rc, ?_, hsame.trans ⟨rfl, rfl, rfl, rfl, rfl⟩, hrc, hblock,
    hsent⟩
  unfold processOther
  rw [hsync]
  rfl

theorem process_other {file : Bytes} {s : Sys} {t : Tftp} {io : Io} (hs : Inv file s)
    (hloop : s.phase = .loop) (hsame : Same s.tftp t) (hblock : t.nextBlock = s.tftp.nextBlock)
    (herror : t.length ≠ 0 → opcode t.packetBuffer ≠ tftpError)
    (hother : t.length ≠ 0 → opcode t.packetBuffer = tftpData ∨ opcode t.packetBuffer = tftpAck →
      t.nextBlock ≠ block t.packetBuffer)
    (hresync : Resyncs t → ResyncOk s t io) :
    ∃ t' phase sent, process io t = some (t', phase, sent) ∧
      Inv file ⟨t', phase, s.received, s.sent ++ sent.map (s.received, ·)⟩ := by
  have hname : (readRequest t.szFileName).length ≤ dataSize := by
    rw [hsame.szFileName]
    exact hs.name
  have hnext := hblock.trans (hs.nextBlock hloop)
  -- what `tftpReSync` and `TFTPERROR_FAILED` leave
  have hdone : ∀ {t' sent rc}, tftpProcessPacket io t = some (t', sent, rc) → Same t t' → rc ≤ 0 →
      (rc = 0 → t'.nextBlock = t.nextBlock) →
      (∀ packet ∈ sent, packet = lastPacket t.szFileName s.received) →
      ∃ t' phase sent, process io t = some (t', phase, sent) ∧
        Inv file ⟨t', phase, s.received, s.sent ++ sent.map (s.received, ·)⟩ := by
    intro t' sent rc hprocess hsame' hrc hnext' hsent
    refine ⟨t', finish t' rc, sent, ?_, ?_⟩
    · unfold process
      rw [hprocess]
      rfl
    · refine inv_finish hs (hs.copied.same (hsame.trans hsame'))
        (hsame.trans hsame').szFileName ?_ ?_
      · rw [← hsame.szFileName]
        exact hsent
      · rcases Int.lt_or_eq_of_le hrc with hlt | heq
        · exact .inl hlt
        · exact .inr (.inr ⟨heq, hs.full hloop, (hnext' heq).trans hnext⟩)
  by_cases hlen : t.length = 0
  · obtain ⟨hop, hzero⟩ := hresync (.inl hlen)
    obtain ⟨t', sent, rc, hsync, hsame', hrc, hnext', hsent⟩ := tftpReSync_eq hname hnext hop hzero
    refine hdone ?_ hsame' hrc hnext' hsent
    unfold tftpProcessPacket
    rw [if_pos hlen]
    exact hsync
  · by_cases hop : opcode t.packetBuffer = tftpData ∨ opcode t.packetBuffer = tftpAck
    · have hne := hother hlen hop
      obtain ⟨hack, hzero⟩ := hresync (.inr ⟨hop, hne⟩)
      obtain ⟨t', sent, rc, hsync, hsame', hrc, hnext', hsent⟩ :=
        processOther_eq hname hnext hack hzero
      refine hdone ?_ hsame' hrc hnext' hsent
      unfold tftpProcessPacket
      dsimp only
      rw [if_neg hlen, if_neg (herror hlen)]
      split
      · exact hsync
      · rename_i hdata
        rw [if_pos (hop.resolve_left hdata)]
        exact hsync
    · have hfail : tftpProcessPacket io t = some (t, [], tftperrorFailed) := by
        unfold tftpProcessPacket
        dsimp only
        rw [if_neg hlen, if_neg (herror hlen), if_neg fun h => hop (.inl h),
          if_neg fun h => hop (.inr h)]
      exact hdone hfail ⟨rfl, rfl, rfl, rfl, rfl⟩ (by decide) (fun _ => rfl) nofun

theorem process_next {file : Bytes} {s : Sys} {t : Tftp} {rest : Bytes} (io : Io)
    (hs : Inv file s) (hfile : file.length < 2 ^ 32) (hloop : s.phase = .loop)
    (hsame : Same s.tftp t) (hblock : t.nextBlock = s.tftp.nextBlock)
    (hpb : t.packetBuffer = dataPacket file (s.received + 1) ++ rest)
    (hlength : t.length = (dataPacket file (s.received + 1)).length) :
    ∃ t' phase sent, process io t = some (t', phase, sent) ∧
      Inv file ⟨t', phase, s.received + 1, s.sent ++ sent.map (s.received + 1, ·)⟩ := by
  have hnext := hblock.trans (hs.nextBlock hloop)
  obtain ⟨t', sent, rc, hprocess, hcopied, hname, hsent, hrc⟩ :=
    processBlock_eq io (hs.copied.same hsame) hfile hnext hpb hlength
  have hlen : t.length ≠ 0 := by
    rw [hlength, length_dataPacket]
    exact Nat.ne_of_gt (Nat.add_pos_left (by decide) _)
  have hop : opcode t.packetBuffer = tftpData := by
    rw [hpb]
    exact opcode_dataPacket _ _ _
  have hblock' : t.nextBlock = block t.packetBuffer := by
    rw [hpb, block_dataPacket]
    exact hnext
  refine ⟨t', finish t' rc, sent, ?_, inv_finish hs hcopied (hname.trans hsame.szFileName) ?_ ?_⟩
  · unfold process tftpProcessPacket
    dsimp only
    rw [if_neg hlen, hop, if_neg (by decide), if_pos rfl, if_neg (not_not_intro hblock'), hprocess]
    rfl
  · intro packet hp
    rw [hsent packet hp]
    exact (if_neg (Nat.succ_ne_zero _)).symm
  · rcases hrc with hneg | ⟨rfl, hshort⟩ | ⟨rfl, hfull, hnext'⟩
    · exact .inl hneg
    · exact .inr (.inl ⟨rfl, blocks_whole (hs.full hloop) hshort⟩)
    · exact .inr (.inr ⟨rfl, full_succ (hs.full hloop) hfull, hnext'⟩)

theorem recv_inv {file : Bytes} {s : Sys} (hs : Inv file s) (hfile : file.length < 2 ^ 32)
    (hloop : s.phase = .loop) {peer : Bool} {port : Nat} {bytes : Bytes} {io : Io}
    (hcond : RecvCond file s (.recv peer port bytes io)) :
    ∃ s' o, sysStep file s (.recv peer port bytes io) = some (s', o) ∧ Inv file s' := by
  unfold RecvCond at hcond
  rw [hloop] at hcond
  unfold sysStep tftpGetFile transferStep
  rw [hloop]
  by_cases hpeer : fromPeer s.tftp peer port = true
  · obtain ⟨hserver, hresync⟩ := hcond hpeer
    have hsame : Same s.tftp { recvfrom s.tftp port bytes with
        length := (bytes.take dataSize).length } := ⟨rfl, rfl, rfl, rfl, rfl⟩
    by_cases hnext : bytes = dataPacket file (s.received + 1)
    · have hdelivers : delivers file s (.recv peer port bytes io) = true := by
        simp [delivers, hloop, hpeer, hnext]
      have htake : bytes.take dataSize = dataPacket file (s.received + 1) := by
        rw [hnext]
        exact take_dataPacket _ _
      have hpb : (recvfrom s.tftp port bytes).packetBuffer = dataPacket file (s.received + 1) ++
          s.tftp.packetBuffer.drop (dataPacket file (s.received + 1)).length := by
        show overwrite _ 0 (bytes.take dataSize) = _
        rw [htake]
        exact overwrite_zero _ _
      obtain ⟨t', phase, sent, hprocess, hinv⟩ := process_next io hs hfile hloop hsame rfl hpb
        (congrArg List.length htake)
      refine ⟨_, (), ?_, hinv⟩
      rw [hdelivers]
      unfold loopStep
      dsimp only
      rw [if_pos hpeer, hprocess]
      rfl
    · have hdelivers : delivers file s (.recv peer port bytes io) = false := by
        simp [delivers, hloop, hpeer, hnext]
      have hlength : ∀ {P : Prop}, (bytes ≠ [] → P) → (bytes.take dataSize).length ≠ 0 → P := by
        intro P hP hlen
        refine hP ?_
        rintro rfl
        exact hlen rfl
      have herror : (bytes.take dataSize).length ≠ 0 →
          opcode (overwrite s.tftp.packetBuffer 0 (bytes.take dataSize)) ≠ tftpError := by
        intro hlen
        rcases hserver with ⟨k, -, -, hk, -⟩ | ⟨-, hshort⟩
        · rw [overwrite_zero, hk, take_dataPacket, opcode_dataPacket]
          decide
        · exact hlength (fun h => (hshort h).1) hlen
      have hother : (bytes.take dataSize).length ≠ 0 →
          (opcode (overwrite s.tftp.packetBuffer 0 (bytes.take dataSize)) = tftpData ∨
            opcode (overwrite s.tftp.packetBuffer 0 (bytes.take dataSize)) = tftpAck) →
          s.tftp.nextBlock ≠ block (overwrite s.tftp.packetBuffer 0 (bytes.take dataSize)) := by
        intro hlen hop
        rcases hserver with ⟨k, -, -, -, hk⟩ | ⟨-, hshort⟩
        · exact fun heq => hnext (hk heq)
        · exact hlength (fun h => (hshort h).2 hop) hlen
      obtain ⟨t', phase, sent, hprocess, hinv⟩ :=
        process_other hs hloop hsame rfl herror hother hresync
      refine ⟨_, (), ?_, hinv⟩
      rw [hdelivers]
      unfold loopStep
      dsimp only
      rw [if_pos hpeer, hprocess]
      rfl
  · have hdelivers : delivers file s (.recv peer port bytes io) = false := by
      simp [delivers, hloop, hpeer]
    unfold loopStep
    dsimp only
    rw [if_neg hpeer, hdelivers]
    refine ⟨_, (), rfl, hs.copied.same ⟨rfl, rfl, rfl, rfl, rfl⟩, hs.name, nofun,
      fun _ => hs.nextBlock hloop, fun _ => hs.full hloop, ?_, nofun, nofun⟩
    show ∀ p ∈ s.sent ++ [], _
    rw [List.append_nil]
    exact hs.sent

theorem start_inv {file : Bytes} {s : Sys} (hs : Inv file s) (hstart : s.phase = .start) (io : Io) :
    ∃ s' o, sysStep file s (.start io) = some (s', o) ∧ Inv file s' := by
  obtain ⟨t, hbuild, hsame, -, hpacket⟩ := tftpRRQBuild_eq hs.name
  have hreceived := hs.start hstart
  have hsent : ∀ packet ∈ [tftpPacket t], packet = lastPacket s.tftp.szFileName s.received := by
    intro packet hp
    rw [List.mem_singleton.1 hp, hpacket, hreceived]
    rfl
  unfold sysStep tftpGetFile transferStep transferStart
  rw [hstart]
  dsimp only
  rw [hbuild]
  refine ⟨_, (), rfl, ?_⟩
  show Inv file (Sys.mk _ _ s.received _)
  split
  · rename_i hneg
    exact inv_finish hs (hs.copied.same hsame) hsame.szFileName hsent (.inl hneg)
  · have hinv := @inv_finish _ _ _ { t with maxSyncError := maxSyncTries, nextBlock := 1 } _ 0 hs
      (hs.copied.same (hsame.trans ⟨rfl, rfl, rfl, rfl, rfl⟩)) hsame.szFileName hsent ?_
    · exact hinv
    · rw [hreceived]
      exact .inr (.inr ⟨rfl, Nat.zero_le _, rfl⟩)

theorem sysStep_inv {file : Bytes} {s : Sys} (hs : Inv file s) (hfile : file.length < 2 ^ 32)
    {act : Act} (hcond : RecvCond file s act) :
    ∃ s' o, sysStep file s act = some (s', o) ∧ Inv file s' := by
  -- nothing is sent and nothing changes
  have hstay : ∀ phase, s.phase = phase → delivers file s act = false →
      tftpGetFile s.tftp phase act = some (s.tftp, phase, []) →
      ∃ s' o, sysStep file s act = some (s', o) ∧ Inv file s' := by
    intro phase hphase hdelivers hget
    refine ⟨s, (), ?_, hs⟩
    unfold sysStep
    rw [hphase, hget, hdelivers]
    show some (Sys.mk s.tftp phase s.received (s.sent ++ []), ()) = _
    rw [List.append_nil, ← hphase]
  cases hphase : s.phase with
  | start =>
    cases act with
    | start io => exact start_inv hs hphase io
    | recv peer port bytes io => exact hstay _ hphase (by simp [delivers, hphase]) rfl
    | timeout io => exact hstay _ hphase rfl rfl
    | error => exact hstay _ hphase rfl rfl
  | returned rc fileSize =>
    cases act with
    | recv peer port bytes io => exact hstay _ hphase (by simp [delivers, hphase]) rfl
    | _ => exact hstay _ hphase rfl rfl
  | loop =>
    cases act with
    | recv peer port bytes io => exact recv_inv hs hfile hphase hcond
    | start io => exact hstay _ hphase rfl rfl
    | timeout io =>
      have hresync : ResyncOk s s.tftp io := by
        unfold RecvCond at hcond
        rw [hphase] at hcond
        exact hcond
      obtain ⟨t', phase, sent, hprocess, hinv⟩ := process_other (t := { s.tftp with length := 0 }) hs
        hphase ⟨rfl, rfl, rfl, rfl, rfl⟩ rfl (fun h => absurd rfl h) (fun h => absurd rfl h)
        fun _ => hresync
      refine ⟨_, (), ?_, hinv⟩
      unfold sysStep tftpGetFile transferStep
      rw [hphase]
      show (process io _).map _ = _
      rw [hprocess]
      rfl
    | error =>
      have hinv := @inv_finish _ _ _ _ [] tftperrorSocket hs hs.copied rfl nofun
        (.inl (by decide))
      refine ⟨_, (), ?_, hinv⟩
      unfold sysStep tftpGetFile transferStep
      rw [hphase]
      rfl

theorem inv_init (file szFileName buffer : Bytes) (packetBuffer : Vector UInt8 dataSize)
    (hname : (readRequest szFileName).length ≤ dataSize) :
    Inv file (sysInit szFileName buffer packetBuffer) where
  copied := ⟨List.take_nil.symm, (Nat.zero_min _).symm, rfl, rfl⟩
  name := hname
  start _ := rfl
  nextBlock := nofun
  full := nofun
  sent := nofun
  whole := nofun
  part := nofun

/-- In every run in which `tftpReSync` does not find an acknowledgement in the packet buffer and no
short datagram is taken for more. -/
theorem tftp_recv (file szFileName buffer : Bytes) (packetBuffer : Vector UInt8 dataSize)
    (is : List Act) (hfile : file.length < 2 ^ 32)
    (hname : (readRequest szFileName).length ≤ dataSize)
    (hmeets : Meets (sysStep file) (RecvCond file) (sysInit szFileName buffer packetBuffer) is) :
    ∃ s os, runs (sysStep file) (sysInit szFileName buffer packetBuffer) is = some (s, os) ∧
      RecvLaw file s := by
  obtain ⟨s, os, hr, hinv⟩ := runs_invariant (fun _ _ hI hC => sysStep_inv hI hfile hC)
    (inv_init file szFileName buffer packetBuffer hname) hmeets
  exact ⟨s, os, hr, hinv.law⟩

/-- A file of two blocks. -/
def twoBlocks : Bytes := List.replicate 512 7 ++ [1, 2, 3]

set_option maxRecDepth 20000 in
/-- A datagram of another host, and then the two blocks, the first of them twice. -/
theorem tftp_recv_two :
    ∃ s os, runs (sysStep twoBlocks) (sysInit [102] (List.replicate 600 0) (Vector.replicate dataSize 0))
        [.start ⟨[], true⟩, .recv false 3000 [0, 3, 0, 1, 9] ⟨[], true⟩,
          .recv true 3000 (dataPacket twoBlocks 1) ⟨[], true⟩,
          .recv true 3000 (dataPacket twoBlocks 1) ⟨[], true⟩,
          .recv true 3000 (dataPacket twoBlocks 2) ⟨[], true⟩] = some (s, os) ∧
      RecvLaw twoBlocks s := by
  refine tftp_recv _ _ _ _ _ (by decide) (by decide) ?_
  refine And.intro trivial <| And.intro nofun <| And.intro (fun _ => ⟨.inl ⟨1, ?_⟩, ?_⟩) <|
    And.intro (fun _ => ⟨.inl ⟨1, ?_⟩, fun _ => ⟨?_, ?_⟩⟩) <|
    And.intro (fun _ => ⟨.inl ⟨2, ?_⟩, ?_⟩) trivial
  · exact ⟨Nat.le_refl _, Nat.le_refl _, rfl, fun _ => rfl⟩
  · rintro (h | ⟨-, h⟩)
    · cases h
    · exact absurd rfl h
  · exact ⟨Nat.le_refl _, by decide, rfl, fun h => absurd h (by decide)⟩
  · decide
  · intro h
    cases h
  · exact ⟨by decide, by decide, rfl, fun _ => rfl⟩
  · rintro (h | ⟨-, h⟩)
    · cases h
    · exact absurd rfl h

set_option maxRecDepth 20000 in
/-- After a timeout the packet buffer holds the acknowledgement that has been sent, and an empty
packet is sent in its place. -/
theorem timeout_sends_empty :
    ∃ s os, runs (sysStep (List.replicate 512 7))
        (sysInit [102] (List.replicate 600 0) (Vector.replicate dataSize 0))
        [.start ⟨[], true⟩,
          .recv true 3000 (dataPacket (List.replicate 512 7) 1) ⟨[], true⟩,
          .timeout ⟨[], true⟩] = some (s, os) ∧
      s.sent.getLast? = some (1, []) ∧ ¬ RecvLaw (List.replicate 512 7) s := by
  refine ⟨_, _, rfl, rfl, fun h => ?_⟩
  have hsent := h.sent (1, []) (by decide)
  cases hsent

end SimpleLink.NetApps.TftpRecv
