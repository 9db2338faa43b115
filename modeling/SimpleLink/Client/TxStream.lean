import SimpleLink.Client.Send
import SimpleLink.Lib.Run

/-!
# What a connection is sent

`streams` reads off the log, connection by connection, the packets that were accepted for sending and
the bytes that the network took. `Whole` says that at every moment these bytes are the packets one
after the other, up to some point of the last; a packet is accepted where the ones before it are
complete. The one packet that can be under way is in `txPart`.
-/

namespace SimpleLink.Client.Send

open SimpleLink.Lib SimpleLink.Mqtt

/-! ## Streams -/

/-- A connection: the packets that were accepted, and the bytes that were sent. -/
structure Stream where
  handed : List (List UInt8)
  wire : List UInt8

/-- The connection that was opened last, and those before it. -/
structure Streams where
  cur : Stream
  old : List Stream

def Streams.step (t : Streams) : Ev → Streams
  | .opened _ => ⟨⟨[], []⟩, t.cur :: t.old⟩
  | .accepted p => { t with cur := { t.cur with handed := t.cur.handed ++ [p] } }
  | .sent _ bs => { t with cur := { t.cur with wire := t.cur.wire ++ bs } }
  | .closed _ => t

def streams (log : List Ev) : Streams := log.foldl Streams.step ⟨⟨[], []⟩, []⟩

def Stream.Ok (t : Stream) : Prop :=
  t.handed.dropLast.flatten <+: t.wire ∧ t.wire <+: t.handed.flatten

def Stream.Done (t : Stream) : Prop := t.wire = t.handed.flatten

/-- At every moment the bytes sent are packets and a prefix of the last, on every connection, and a
packet is accepted when those before it are complete. -/
def Whole (log : List Ev) : Prop :=
  ∀ l, l <+: log → (∀ t ∈ (streams l).cur :: (streams l).old, t.Ok) ∧
    ∀ p, l ++ [.accepted p] <+: log → (streams l).cur.Done

theorem streams_append (log : List Ev) (e : Ev) :
    streams (log ++ [e]) = (streams log).step e := by
  simp [streams]

theorem Stream.Done.ok {t : Stream} (h : t.Done) : t.Ok := by
  refine ⟨?_, h ▸ List.prefix_refl _⟩
  rw [h]
  exact (List.dropLast_prefix _).flatten

theorem whole_nil : Whole [] := by
  intro l hl
  obtain rfl := List.prefix_nil.1 hl
  refine ⟨fun t ht => ?_, fun p hp => ?_⟩
  · obtain rfl : t = ⟨[], []⟩ := by simpa [streams] using ht
    exact Stream.Done.ok rfl
  · cases List.prefix_nil.1 hp

theorem Whole.snoc {log : List Ev} (h : Whole log) {e : Ev}
    (hok : ((streams log).step e).cur.Ok) (hdone : ∀ p, e = .accepted p → (streams log).cur.Done) :
    Whole (log ++ [e]) := by
  intro l hl
  rcases List.prefix_concat_iff.1 hl with rfl | hl
  · refine ⟨fun t ht => ?_, fun p hp => ?_⟩
    · rw [streams_append] at ht
      rcases List.mem_cons.1 ht with rfl | ht
      · exact hok
      · have hall := (h log (List.prefix_refl _)).1
        cases e with
        | opened n =>
          exact hall t ht
        | accepted p => exact hall t (List.mem_cons_of_mem _ ht)
        | sent n bs => exact hall t (List.mem_cons_of_mem _ ht)
        | closed n => exact hall t (List.mem_cons_of_mem _ ht)
    · have hlen := hp.length_le
      simp at hlen
  · refine ⟨(h l hl).1, fun p hp => ?_⟩
    rcases List.prefix_concat_iff.1 hp with heq | hp
    · obtain ⟨rfl, he⟩ := List.append_inj' heq rfl
      exact hdone p (List.cons.inj he).1.symm
    · exact (h l hl).2 p hp

/-! ## The packet under way -/

/-- Of the last packet that was accepted, `p`, `n` bytes were sent. -/
def Stream.Under (t : Stream) (p : List UInt8) (n : Nat) : Prop :=
  ∃ pre, t.handed = pre ++ [p] ∧ t.wire = pre.flatten ++ p.take n

theorem Stream.Under.ok {t : Stream} {p : List UInt8} {n : Nat} (h : t.Under p n) : t.Ok := by
  obtain ⟨pre, hhanded, hwire⟩ := h
  unfold Stream.Ok
  rw [hhanded, hwire, List.dropLast_concat, List.flatten_concat]
  exact ⟨List.prefix_append .., (List.prefix_append_right_inj _).2 (List.take_prefix ..)⟩

theorem Stream.Under.done {t : Stream} {p : List UInt8} {n : Nat} (h : t.Under p n)
    (hn : p.length ≤ n) : t.Done := by
  obtain ⟨pre, hhanded, hwire⟩ := h
  unfold Stream.Done
  rw [hhanded, hwire, List.flatten_concat, List.take_of_length_le hn]

theorem Stream.Under.sent {t : Stream} {p : List UInt8} {n : Nat} (h : t.Under p n) (k : Nat) :
    (⟨t.handed, t.wire ++ (p.drop n).take k⟩ : Stream).Under p (n + k) := by
  obtain ⟨pre, hhanded, hwire⟩ := h
  refine ⟨pre, hhanded, ?_⟩
  show t.wire ++ (p.drop n).take k = pre.flatten ++ p.take (n + k)
  rw [hwire, List.append_assoc, List.take_add]

/-- Without a packet in the slot, the packets of a connection that is there are complete; the packet in
the slot is the last of the connection, or has no connection to go to. -/
def Slot (s : Lib) : Prop :=
  (s.ctx.txPart.length = 0 ∧ s.ctx.txPart.offset = 0 ∧
    (s.ctx.net ≠ -1 ∨ s.ctx.nowConnected = true → (streams s.log).cur.Done)) ∨
  (s.ctx.txPart.offset < s.ctx.txPart.length ∧
    (s.ctx.net = -1 ∨
      ∃ p, (streams s.log).cur.Under p s.ctx.txPart.offset ∧ s.txBuf = p.drop s.ctx.txPart.offset))

structure Inv (s : Lib) : Prop where
  whole : Whole s.log
  slot : Slot s

theorem Whole.cur {log : List Ev} (h : Whole log) : (streams log).cur.Ok :=
  (h log (List.prefix_refl _)).1 _ List.mem_cons_self

/-! ## Freeing packets -/

/-- The packets keep their bytes, and the rest of the library is as it was. -/
structure SameBytes (s s' : Lib) : Prop where
  ctx : s'.ctx = s.ctx
  log : s'.log = s.log
  cfg : s'.cfg = s.cfg
  pkt : ∀ i, (s'.mqps i).pkt = (s.mqps i).pkt

theorem SameBytes.refl (s : Lib) : SameBytes s s := ⟨rfl, rfl, rfl, fun _ => rfl⟩

theorem SameBytes.trans {s s' s'' : Lib} (h : SameBytes s s') (h' : SameBytes s' s'') :
    SameBytes s s'' :=
  ⟨h'.ctx.trans h.ctx, h'.log.trans h.log, h'.cfg.trans h.cfg,
    fun i => (h'.pkt i).trans (h.pkt i)⟩

theorem sameBytes_mqpFree (s : Lib) (i : Nat) : SameBytes s (mqpFree s i) := by
  have hpkt : ∀ j, ((Function.update s.mqps i { s.mqps i with nRefs := (s.mqps i).nRefs - 1 }) j).pkt =
      (s.mqps j).pkt := by
    intro j
    by_cases hj : j = i
    · subst hj
      rw [Function.update_self]
    · rw [Function.update_of_ne hj]
  unfold mqpFree
  split
  · dsimp only
    split <;> exact ⟨rfl, rfl, rfl, hpkt⟩
  · exact .refl s

theorem sameBytes_foldl (l : List Nat) (s : Lib) : SameBytes s (l.foldl mqpFree s) := by
  induction l generalizing s with
  | nil => exact .refl s
  | cons i l ih => exact (sameBytes_mqpFree s i).trans (ih _)

theorem SameBytes.txBuf {s s' : Lib} (h : SameBytes s s') : s'.txBuf = s.txBuf := by
  unfold Lib.txBuf
  rw [h.ctx]
  dsimp only
  split
  · rw [h.pkt]
  · rfl

theorem Inv.congr {s s' : Lib} (h : Inv s) (hlog : s'.log = s.log)
    (hpart : s'.ctx.txPart = s.ctx.txPart) (hnet : s'.ctx.net = s.ctx.net)
    (hconn : s'.ctx.nowConnected = true → s.ctx.net ≠ -1 ∨ s.ctx.nowConnected = true)
    (hbuf : s'.txBuf = s.txBuf) : Inv s' := by
  refine ⟨hlog ▸ h.whole, ?_⟩
  unfold Slot
  rw [hlog, hpart, hnet, hbuf]
  rcases h.slot with ⟨hlen, hofs, hdone⟩ | hunder
  · refine .inl ⟨hlen, hofs, fun hor => hdone ?_⟩
    rcases hor with hor | hor
    · exact .inl hor
    · exact hconn hor
  · exact .inr hunder

theorem Inv.sameBytes {s s' : Lib} (h : Inv s) (hs : SameBytes s s') : Inv s' :=
  h.congr hs.log (congrArg Ctx.txPart hs.ctx) (congrArg Ctx.net hs.ctx)
    (fun hc => .inr (hs.ctx ▸ hc)) hs.txBuf

/-! ## Closing -/

theorem ctx_txPartReset (s : Lib) :
    (txPartReset s).ctx = { s.ctx with txPart := { s.ctx.txPart with
      txMqp := none, vhMsg := s.ctx.txPart.vhMsg.set 0 0, length := 0, offset := 0 } } := by
  unfold txPartReset
  dsimp only
  split
  · rfl
  · rename_i i _
    have hctx := (sameBytes_mqpFree s i).ctx
    simp only [Lib.setCtx, hctx]

theorem log_txPartReset (s : Lib) : (txPartReset s).log = s.log := by
  unfold txPartReset
  dsimp only
  split
  · rfl
  · exact (sameBytes_mqpFree s _).log

/-- `do_net_close` once the session is dealt with. -/
def closeNet (s : Lib) (net : Int) : Lib :=
  let s := txPartReset s
  let s := s.setCtx { s.ctx with
    connackAwait := false
    nowConnected := false
    kaPinger := false
    userPing := false
    networkClose := false
    doConnackTo := false
    net := -1 }
  s.report (.closed net)

theorem doNetClose_split {P : Lib → Prop} {s : Lib} (hnet : s.ctx.net ≠ -1)
    (hdelete : P (sessionDelete s)) (hfix : P (session311fix s)) (hleft : P s) :
    ∃ s₁, P s₁ ∧ doNetClose s = closeNet s₁ s.ctx.net := by
  refine ⟨if s.ctx.cleanSession = true then sessionDelete s
    else if (!s.cfg.protoV31) = true then session311fix s else s, ?_, ?_⟩
  · split_ifs
    · exact hdelete
    · exact hfix
    · exact hleft
  · unfold doNetClose
    dsimp only
    rw [if_neg hnet]
    rfl

theorem doNetClose_cases (s : Lib) :
    (s.ctx.net = -1 ∧ doNetClose s = s) ∨
      ((doNetClose s).log = s.log ++ [.closed s.ctx.net] ∧ (doNetClose s).ctx.txPart.length = 0 ∧
        (doNetClose s).ctx.txPart.offset = 0 ∧ (doNetClose s).ctx.net = -1 ∧
        (doNetClose s).ctx.nowConnected = false) := by
  by_cases hnet : s.ctx.net = -1
  · exact .inl ⟨hnet, if_pos hnet⟩
  · obtain ⟨s₁, hlog, he⟩ := doNetClose_split (P := fun s₁ => s₁.log = s.log) hnet
      (sameBytes_foldl s.ctx.ack1Wl s).log rfl rfl
    rw [he]
    refine .inr ⟨?_, ?_, ?_, rfl, rfl⟩
    · show (txPartReset s₁).log ++ _ = _
      rw [log_txPartReset, hlog]
    · show (txPartReset s₁).ctx.txPart.length = 0
      rw [ctx_txPartReset]
    · show (txPartReset s₁).ctx.txPart.offset = 0
      rw [ctx_txPartReset]

theorem Inv.doNetClose {s : Lib} (h : Inv s) : Inv (doNetClose s) := by
  rcases doNetClose_cases s with ⟨-, hsame⟩ | ⟨hlog, hlen, hofs, hnet, hconn⟩
  · rw [hsame]
    exact h
  · refine ⟨?_, .inl ⟨hlen, hofs, fun hor => ?_⟩⟩
    · rw [hlog]
      exact h.whole.snoc h.whole.cur nofun
    · rw [hnet, hconn] at hor
      rcases hor with hor | hor
      · exact absurd rfl hor
      · cases hor

theorem Inv.doNetCloseTx {s : Lib} (h : Inv s) : Inv (doNetCloseTx s) := by
  unfold Send.doNetCloseTx
  split
  · exact h.congr rfl rfl rfl .inr rfl
  · dsimp only
    split
    · exact h.doNetClose.congr rfl rfl rfl .inr rfl
    · rename_i i _
      exact (h.doNetClose.sameBytes (sameBytes_mqpFree _ i)).congr rfl rfl rfl .inr rfl

/-! ## Sending -/

theorem netSend_of_buf (s : Lib) (buf : List UInt8) (net : Net) : netSend s buf net <+: buf := by
  unfold netSend
  split
  · exact List.nil_prefix
  · exact List.take_prefix ..

theorem length_txBuf_le (s : Lib) : s.txBuf.length ≤ s.ctx.txPart.bufSz := by
  unfold Lib.txBuf
  dsimp only
  split <;> exact List.length_take_le ..

theorem txBuf_addup (s : Lib) (k : Nat) :
    (s.setCtx { s.ctx with
      txPart := { s.ctx.txPart with offset := s.ctx.txPart.offset + k } }).txBuf =
      s.txBuf.drop k := by
  unfold Lib.txBuf Lib.setCtx TxPart.bufSz
  dsimp only
  split
  · rw [List.drop_take, List.drop_drop, Nat.add_assoc, Nat.sub_sub]
  · rw [List.drop_take, List.drop_drop, Nat.sub_sub]

/-- What the slot is after `n` bytes were sent. -/
def slotSent (s : Lib) (n : Nat) : Lib :=
  if n ≠ s.ctx.txPart.bufSz then
    s.setCtx { s.ctx with txPart := { s.ctx.txPart with offset := s.ctx.txPart.offset + n } }
  else txPartReset s

theorem partSend_sent {s : Lib} {net : Net} (hsent : netSend s s.txBuf net ≠ []) :
    ∃ timeout, clCtxPartSend s net =
      (slotSent ((s.setCtx { s.ctx with timeout := timeout }).report
        (.sent s.ctx.net (netSend s s.txBuf net))) (netSend s s.txBuf net).length,
        ((netSend s s.txBuf net).length : Int)) := by
  unfold clCtxPartSend
  dsimp only
  rw [if_pos (mt List.eq_nil_of_length_eq_zero hsent)]
  generalize netSend s s.txBuf net = sent
  by_cases hconn : (s.report (.sent s.ctx.net sent)).ctx.nowConnected = true
  · rw [if_pos hconn]
    exact ⟨UsedCtxs.clCtxTimeoutUpdate s.ctx.kaSecs s.ctx.timeout net.now, rfl⟩
  · rw [if_neg hconn]
    exact ⟨s.ctx.timeout, rfl⟩

theorem partSend_refused {s : Lib} {net : Net} (hsent : netSend s s.txBuf net = []) :
    clCtxPartSend s net = (doNetCloseTx s, mqpErrNetwork) := by
  unfold clCtxPartSend
  dsimp only
  rw [hsent]
  exact if_neg (not_not_intro rfl)

/-- The network took `n` bytes, all that was left or less. -/
theorem Inv.sent {s : Lib} {p : List UInt8} {n : Nat} (hwhole : Whole s.log)
    (hunder : (streams s.log).cur.Under p (s.ctx.txPart.offset + n))
    (hbuf : s.txBuf = p.drop s.ctx.txPart.offset) (hn : n ≤ s.txBuf.length) :
    Inv (slotSent s n) := by
  have hle := length_txBuf_le s
  unfold slotSent
  split
  · rename_i hne
    have hlt : s.ctx.txPart.offset + n < s.ctx.txPart.length := by
      unfold TxPart.bufSz at hle hne
      omega
    refine ⟨hwhole, .inr ⟨hlt, .inr ⟨p, hunder, ?_⟩⟩⟩
    rw [txBuf_addup, hbuf, List.drop_drop]
    rfl
  · rename_i heq
    refine ⟨?_, .inl ⟨?_, ?_, fun _ => ?_⟩⟩
    · rw [log_txPartReset]
      exact hwhole
    · rw [ctx_txPartReset]
    · rw [ctx_txPartReset]
    · rw [log_txPartReset]
      refine hunder.done ?_
      have hall := congrArg List.length hbuf
      rw [List.length_drop] at hall
      omega

theorem Inv.partSend {s : Lib} (h : Inv s) (net : Net) : Inv (clCtxPartSend s net).1 := by
  have hprefix := netSend_of_buf s s.txBuf net
  by_cases hsent : netSend s s.txBuf net = []
  · rw [partSend_refused hsent]
    exact h.doNetCloseTx
  · obtain ⟨timeout, heq⟩ := partSend_sent hsent
    rw [heq]
    have hnone : s.ctx.net = -1 → netSend s s.txBuf net = [] := fun hnet => if_pos hnet
    generalize netSend s s.txBuf net = sent at hprefix hsent hnone ⊢
    have htake : sent = s.txBuf.take sent.length := List.prefix_iff_eq_take.1 hprefix
    have hn : sent.length ≤ s.txBuf.length := hprefix.length_le
    have hle := length_txBuf_le s
    rcases h.slot with ⟨hlen, -, -⟩ | ⟨hlt, hnet | ⟨p, hunder, hbuf⟩⟩
    · have hpos := List.length_pos_of_ne_nil hsent
      unfold TxPart.bufSz at hle
      omega
    · exact absurd (hnone hnet) hsent
    · have hmore : (streams (s.log ++ [.sent s.ctx.net sent])).cur.Under p
          (s.ctx.txPart.offset + sent.length) := by
        rw [streams_append, htake, hbuf]
        have hlen : ((p.drop s.ctx.txPart.offset).take sent.length).length = sent.length := by
          rw [← hbuf, ← htake]
        rw [hlen]
        exact hunder.sent sent.length
      have hwhole : Whole (s.log ++ [.sent s.ctx.net sent]) := by
        refine h.whole.snoc ?_ nofun
        rw [← streams_append]
        exact hmore.ok
      exact Inv.sent (s := (s.setCtx { s.ctx with timeout := timeout }).report
        (.sent s.ctx.net sent)) hwhole hmore hbuf hn

theorem txBuf_txPartSetup (s : Lib) (msg : Msg) (hofs : s.ctx.txPart.offset = 0) :
    (s.setCtx { s.ctx with txPart := txPartSetup s s.ctx.txPart msg }).txBuf = s.bytes msg := by
  cases msg with
  | mqp i =>
    show ((s.mqps i).pkt.buffer.drop ((s.mqps i).pkt.offset + s.ctx.txPart.offset)).take
      ((s.mqps i).pkt.fhLen + (s.mqps i).pkt.vhLen + (s.mqps i).pkt.plLen - s.ctx.txPart.offset) = _
    rw [hofs]
    rfl
  | vh bytes h =>
    have hsetup : txPartSetup s s.ctx.txPart (.vh bytes h) =
        { s.ctx.txPart with
          txMqp := none, vhMsg := overwrite s.ctx.txPart.vhMsg 0 bytes, length := bytes.length } :=
      if_neg (Nat.not_lt.2 h)
    rw [hsetup]
    show ((overwrite s.ctx.txPart.vhMsg 0 bytes).drop s.ctx.txPart.offset).take
      (bytes.length - s.ctx.txPart.offset) = bytes
    rw [hofs]
    exact take_overwrite_zero _ _

theorem offset_txPartSetup (s : Lib) (msg : Msg) :
    (txPartSetup s s.ctx.txPart msg).offset = s.ctx.txPart.offset := by
  unfold txPartSetup
  dsimp only
  split
  · rfl
  · split <;> rfl

theorem Inv.seg1Send {s : Lib} (h : Inv s) (msg : Msg) (isConnMsg : Bool) (net : Net)
    (hready : isConnMsg = true → s.ctx.net ≠ -1) :
    Inv (clCtxSeg1Send s msg isConnMsg net).1 := by
  unfold clCtxSeg1Send
  split
  · exact h
  · rename_i hstate
    split
    · exact h
    · rename_i hidle
      have hbufSz : s.ctx.txPart.bufSz = 0 := Decidable.not_not.1 hidle
      obtain ⟨hlen, hofs, hdone⟩ | ⟨hlt, -⟩ := h.slot
      · have hcur : (streams s.log).cur.Done := by
          apply hdone
          cases isConnMsg with
          | true => exact .inl (hready rfl)
          | false =>
            have hconn : s.ctx.isConnected = true := by
              cases hc : s.ctx.isConnected
              · rw [hc] at hstate
                exact absurd rfl hstate
              · rfl
            exact .inr (Bool.and_eq_true_iff.1 hconn).1
        refine Inv.partSend ?_ net
        have hunder : (streams (s.log ++ [.accepted (s.bytes msg)])).cur.Under (s.bytes msg) 0 := by
          rw [streams_append]
          refine ⟨(streams s.log).cur.handed, rfl, ?_⟩
          show (streams s.log).cur.wire = _
          rw [hcur, List.take_zero, List.append_nil]
        have hwhole : Whole (s.log ++ [.accepted (s.bytes msg)]) := by
          refine h.whole.snoc ?_ (fun _ _ => hcur)
          rw [← streams_append]
          exact hunder.ok
        have hset := txBuf_txPartSetup (s.report (.accepted (s.bytes msg))) msg hofs
        have hofs' := (offset_txPartSetup (s.report (.accepted (s.bytes msg))) msg).trans hofs
        generalize txPartSetup (s.report (.accepted (s.bytes msg)))
          (s.report (.accepted (s.bytes msg))).ctx.txPart msg = p at hset hofs' ⊢
        by_cases hempty : p.length = 0
        · refine ⟨hwhole, .inl ⟨hempty, hofs', fun _ => hunder.done ?_⟩⟩
          have hle := length_txBuf_le ((s.report (.accepted (s.bytes msg))).setCtx {
            (s.report (.accepted (s.bytes msg))).ctx with txPart := p })
          rw [hset] at hle
          exact hle.trans ((Nat.sub_le ..).trans (Nat.le_of_eq hempty))
        · refine ⟨hwhole, .inr ⟨?_, .inr ⟨s.bytes msg, ?_, ?_⟩⟩⟩
          · show p.offset < p.length
            omega
          · show Stream.Under _ _ p.offset
            rw [hofs']
            exact hunder
          · show _ = (s.bytes msg).drop p.offset
            rw [hofs', List.drop_zero]
            exact hset
      · unfold TxPart.bufSz at hbufSz
        omega

theorem Inv.progress {s : Lib} (h : Inv s) (net : Net) :
    Inv (mqttClientSendProgress s net).1 := by
  unfold mqttClientSendProgress
  split
  · exact h
  · dsimp only
    split <;> exact h.partSend net

theorem Inv.disconnSend {s : Lib} (h : Inv s) (net : Net) : Inv (mqttDisconnSend s net) := by
  unfold mqttDisconnSend
  dsimp only
  split
  · exact (h.seg1Send _ false net nofun).doNetCloseTx
  · exact h.seg1Send _ false net nofun

/-! ## Connecting -/

theorem Inv.opened {s : Lib} (h : Inv s) {net : Int} (hidle : net = -1 ∨ s.ctx.txPart.bufSz = 0) :
    Inv ((s.setCtx { s.ctx with net := net }).report (.opened net)) := by
  have hcur : (streams (s.log ++ [.opened net])).cur = ⟨[], []⟩ := by
    rw [streams_append]
    rfl
  refine ⟨h.whole.snoc (Stream.Done.ok rfl) nofun, ?_⟩
  rcases h.slot with ⟨hlen, hofs, -⟩ | ⟨hlt, -⟩
  · refine .inl ⟨hlen, hofs, fun _ => ?_⟩
    show (streams (s.log ++ [.opened net])).cur.Done
    rw [hcur]
    rfl
  · refine .inr ⟨hlt, .inl ?_⟩
    rcases hidle with hnet | hidle
    · exact hnet
    · unfold TxPart.bufSz at hidle
      omega

/-- A connect that may open a connection: none comes while a packet is under way. -/
def ConnectFree (s : Lib) (net : Net) : Prop :=
  s.ctx.networkClose = true ∨ s.netOps = false ∨ net.opened = -1 ∨ s.ctx.txPart.bufSz = 0

theorem Inv.netConnect {s : Lib} (h : Inv s) {net : Net} (hfree : ConnectFree s net) :
    Inv (netConnect s net).1 ∧ (¬ (netConnect s net).2 < 0 → (netConnect s net).1.ctx.net ≠ -1) := by
  unfold Send.netConnect
  by_cases hclose : s.ctx.networkClose = true
  · rw [if_pos hclose]
    exact ⟨h, fun hrv => absurd (show mqpErrNotDef < 0 by decide) hrv⟩
  · rw [if_neg hclose]
    by_cases hops : s.netOps = true
    · have hidle : net.opened = -1 ∨ s.ctx.txPart.bufSz = 0 := by
        rcases hfree with hc | hn | hidle
        · exact absurd hc hclose
        · rw [hn] at hops
          cases hops
        · exact hidle
      rw [hops]
      refine ⟨h.opened hidle, fun hrv hnet => hrv ?_⟩
      have hopened : net.opened = -1 := hnet
      show (if net.opened = -1 then mqpErrNetwork else 0) < 0
      rw [if_pos hopened]
      decide
    · rw [Bool.eq_false_iff.2 hops]
      exact ⟨h, fun hrv => absurd (show mqpErrNetOps < 0 by decide) hrv⟩

theorem Inv.connStateTry {s : Lib} (h : Inv s) (i : Nat) (kaSecs : UInt16) (cleanSession : Bool)
    {net : Net} (hfree : ConnectFree s net) :
    Inv (clCtxConnStateTryLocked s i kaSecs cleanSession net).1 := by
  obtain ⟨hopened, hnet⟩ := h.netConnect hfree
  unfold clCtxConnStateTryLocked
  dsimp only
  generalize Send.netConnect s net = r at hopened hnet ⊢
  by_cases hrv : r.2 < 0
  · rw [if_pos hrv]
    exact hopened
  · rw [if_neg hrv]
    have hsent : Inv (if (!r.1.initDone || r.1.ctx.connackAwait) = true then (r.1, mqpErrBadcall)
        else clCtxSeg1Send r.1 (.mqp i) true net).1 := by
      split
      · exact hopened
      · exact hopened.seg1Send _ true net fun _ => hnet hrv
    generalize (if (!r.1.initDone || r.1.ctx.connackAwait) = true then (r.1, mqpErrBadcall)
        else clCtxSeg1Send r.1 (.mqp i) true net) = r' at hsent ⊢
    split
    · exact hsent
    · split
      · exact hsent.congr rfl rfl rfl .inr rfl
      · exact hsent.congr rfl rfl rfl .inr rfl

theorem Inv.sessionDelete {s : Lib} (h : Inv s) : Inv (sessionDelete s) := by
  have hfree := h.sameBytes (sameBytes_foldl s.ctx.ack1Wl s)
  exact hfree.congr rfl rfl rfl .inr rfl

theorem Inv.connackRx {s : Lib} (h : Inv s) (accepted : Bool) (net : Net) (hnet : s.ctx.net ≠ -1) :
    Inv (procConnackRx s accepted net) := by
  unfold procConnackRx
  dsimp only
  split
  · split
    · exact Inv.sessionDelete (h.congr rfl rfl rfl (fun _ => .inl hnet) rfl)
    · exact h.congr rfl rfl rfl (fun _ => .inl hnet) rfl
  · exact Inv.doNetClose (h.congr rfl rfl rfl .inr rfl)

/-! ## Runs -/

/-- What happens to a context. A packet is written by the library or its owner; `closeRx` is the receive
loop that finds the connection closed or in error. -/
inductive TxOp where
  | write (i : Nat) (mqp : Mqp)
  | send (msg : Msg) (net : Net)
  | connect (i : Nat) (kaSecs : UInt16) (cleanSession : Bool) (net : Net)
  | progress (net : Net)
  | disconnect (net : Net)
  | connack (accepted : Bool) (net : Net)
  | closeRx

def txStep (s : Lib) : TxOp → Option (Lib × Unit)
  | .write i mqp => some ({ s with mqps := Function.update s.mqps i mqp }, ())
  | .send msg net => some ((clCtxSeg1Send s msg false net).1, ())
  | .connect i kaSecs cleanSession net =>
    some ((clCtxConnStateTryLocked s i kaSecs cleanSession net).1, ())
  | .progress net => some ((mqttClientSendProgress s net).1, ())
  | .disconnect net => some (mqttDisconnSend s net, ())
  | .connack accepted net =>
    some (if s.ctx.net = -1 then s else procConnackRx s accepted net, ())
  | .closeRx => some (doNetClose s, ())

/-- The packet under way is left alone, and no connection is opened while there is one. -/
def Undisturbed (s : Lib) : TxOp → Prop
  | .write i mqp => ({ s with mqps := Function.update s.mqps i mqp } : Lib).txBuf = s.txBuf
  | .connect _ _ _ net => ConnectFree s net
  | _ => True

/-- The operation leaves whole packets and a prefix of the last on every connection. -/
def Intact (s : Lib) (op : TxOp) : Prop :=
  ∃ s', txStep s op = some (s', ()) ∧ Whole s'.log

def created (cfg : Cfg) (mqps : Nat → Mqp) (freeList : List Nat) : Lib where
  cfg := cfg
  ctx :=
    { net := -1, timeout := 0, kaSecs := 0, connackAwait := false, nowConnected := false,
      cleanSession := false, kaPinger := false, userPing := false, networkClose := false,
      doConnackTo := false, txPart := ⟨none, 0, [0, 0, 0, 0], 0, 0⟩, rxMqp := none, ack1Wl := [] }
  mqps := mqps
  freeList := freeList
  msgId := 0xFFFF
  initDone := true
  netOps := true
  connCtxs := false
  log := []

theorem inv_created (cfg : Cfg) (mqps : Nat → Mqp) (freeList : List Nat) :
    Inv (created cfg mqps freeList) :=
  ⟨whole_nil, .inl ⟨rfl, rfl, fun _ => rfl⟩⟩

theorem Inv.step {s s' : Lib} (h : Inv s) {op : TxOp} (hu : Undisturbed s op)
    (hs : txStep s op = some (s', ())) : Inv s' := by
  cases op with
  | write i mqp =>
    cases hs
    exact h.congr rfl rfl rfl .inr hu
  | send msg net =>
    cases hs
    exact h.seg1Send msg false net nofun
  | connect i kaSecs cleanSession net =>
    cases hs
    exact h.connStateTry i kaSecs cleanSession hu
  | progress net =>
    cases hs
    exact h.progress net
  | disconnect net =>
    cases hs
    exact h.disconnSend net
  | connack accepted net =>
    cases hs
    split
    · exact h
    · rename_i hnet
      exact h.connackRx accepted net hnet
  | closeRx =>
    cases hs
    exact h.doNetClose

theorem txStep_total (s : Lib) (op : TxOp) : ∃ s', txStep s op = some (s', ()) := by
  cases op <;> exact ⟨_, rfl⟩

/-- As long as no connection is opened while a packet is partly sent, every connection is sent whole
packets, one after the other. -/
theorem txStream_whole (cfg : Cfg) (mqps : Nat → Mqp) (freeList : List Nat) (ops : List TxOp)
    (h : Meets txStep Undisturbed (created cfg mqps freeList) ops) :
    Meets txStep Intact (created cfg mqps freeList) ops := by
  refine Meets.imp (I := Inv) ?_ (fun hI hu hs => Inv.step hI hu hs)
    (inv_created cfg mqps freeList) h
  intro s op hI hu
  obtain ⟨s', hs⟩ := txStep_total s op
  exact ⟨s', hs, (hI.step hu hs).whole⟩

/-! ## Where it goes wrong -/

instance (s : Lib) (net : Net) : Decidable (ConnectFree s net) :=
  inferInstanceAs (Decidable (_ ∨ _ ∨ _ ∨ _))

instance : ∀ (s : Lib) (op : TxOp), Decidable (Undisturbed s op)
  | _, .write _ _ => inferInstanceAs (Decidable (_ = _))
  | s, .connect _ _ _ net => inferInstanceAs (Decidable (ConnectFree s net))
  | _, .send _ _ => .isTrue trivial
  | _, .progress _ => .isTrue trivial
  | _, .disconnect _ => .isTrue trivial
  | _, .connack _ _ => .isTrue trivial
  | _, .closeRx => .isTrue trivial

def connectMqp : Mqp where
  pkt := { mqpBufferAttach [0x10, 12, 0, 4, 77, 81, 84, 84, 4, 2, 0, 60, 0, 0] 0 with
    msgType := 0x01, fhLen := 2, vhLen := 10, plLen := 2 }
  nRefs := 1
  pooled := true

/-- A CONNECT that the network takes in two parts, and a message after the CONNACK. -/
theorem txStream_whole_twoParts :
    Meets txStep Intact (created ⟨true, false, false⟩ (fun _ => connectMqp) [])
      [.connect 0 60 true ⟨5, 5, 0, 0⟩, .progress ⟨-1, 14, 0, 1⟩, .connack true ⟨-1, 0, 0, 1⟩,
        .send (.vh [0xC0, 0] (by decide)) ⟨-1, 2, 0, 2⟩] :=
  txStream_whole ⟨true, false, false⟩ (fun _ => connectMqp) [] _ (by decide)

/-- A second attempt to connect, which is refused, has opened another connection by then: the rest of
the CONNECT goes there. -/
theorem txStream_not_whole :
    ¬ Meets txStep Intact (created ⟨true, false, false⟩ (fun _ => connectMqp) [])
      [.connect 0 60 true ⟨5, 5, 0, 0⟩, .connect 0 60 true ⟨6, 0, 0, 1⟩, .progress ⟨-1, 14, 0, 2⟩] := by
  rintro ⟨-, -, ⟨s', hs, hwhole⟩, -⟩
  obtain rfl := (Prod.mk.inj (Option.some.inj hs)).1
  exact absurd hwhole.cur.2 (by decide)

/-! ## An idle slot -/

def TxPart.Ok (p : TxPart) : Prop := p.offset < p.length ∨ (p.length = 0 ∧ p.offset = 0)

theorem TxPart.Ok.idle {p : TxPart} (h : p.Ok) (hsz : p.bufSz = 0) : p.length = 0 ∧ p.offset = 0 := by
  unfold TxPart.bufSz at hsz
  rcases h with hlt | hreset
  · omega
  · exact hreset

theorem ok_doNetClose {s : Lib} (h : s.ctx.txPart.Ok) : (doNetClose s).ctx.txPart.Ok := by
  unfold doNetClose
  dsimp only
  split
  · exact h
  · exact .inr ⟨rfl, rfl⟩

theorem ok_doNetCloseTx {s : Lib} (h : s.ctx.txPart.Ok) : (doNetCloseTx s).ctx.txPart.Ok := by
  unfold doNetCloseTx
  split
  · exact h
  · cases s.ctx.rxMqp with
    | none => exact ok_doNetClose h
    | some i =>
      show (mqpFree (doNetClose s) i).ctx.txPart.Ok
      rw [(sameBytes_mqpFree _ i).ctx]
      exact ok_doNetClose h

theorem ok_partSend {s : Lib} (h : s.ctx.txPart.Ok) (net : Net) :
    (clCtxPartSend s net).1.ctx.txPart.Ok := by
  by_cases hsent : netSend s s.txBuf net = []
  · rw [partSend_refused hsent]
    exact ok_doNetCloseTx h
  · obtain ⟨timeout, heq⟩ := partSend_sent hsent
    have hle := (netSend_of_buf s s.txBuf net).length_le.trans (length_txBuf_le s)
    rw [heq]
    generalize netSend s s.txBuf net = sent at hle ⊢
    unfold slotSent
    split
    · rename_i hne
      have hlt : sent.length < s.ctx.txPart.bufSz := Nat.lt_of_le_of_ne hle hne
      unfold TxPart.bufSz at hlt
      left
      show s.ctx.txPart.offset + sent.length < s.ctx.txPart.length
      omega
    · rw [ctx_txPartReset]
      exact .inr ⟨rfl, rfl⟩

theorem ok_seg1Send {s : Lib} (h : s.ctx.txPart.Ok) (msg : Msg) (isConnMsg : Bool) (net : Net) :
    (clCtxSeg1Send s msg isConnMsg net).1.ctx.txPart.Ok := by
  unfold clCtxSeg1Send
  split
  · exact h
  · split
    · exact h
    · rename_i hidle
      have hofs := (h.idle (Decidable.not_not.1 hidle)).2
      refine ok_partSend ?_ net
      have hset := offset_txPartSetup (s.report (.accepted (s.bytes msg))) msg
      show (txPartSetup _ (s.report (.accepted (s.bytes msg))).ctx.txPart msg).Ok
      generalize txPartSetup _ (s.report (.accepted (s.bytes msg))).ctx.txPart msg = p at hset
      have hp : p.offset = 0 := hset.trans hofs
      unfold TxPart.Ok
      omega

theorem ok_netConnect {s : Lib} (h : s.ctx.txPart.Ok) (net : Net) :
    (netConnect s net).1.ctx.txPart.Ok := by
  unfold netConnect
  split
  · exact h
  · split <;> exact h

/-- Every step leaves the slot idle or with something to send. -/
theorem ok_txStep {s s' : Lib} (h : s.ctx.txPart.Ok) {op : TxOp} (hs : txStep s op = some (s', ())) :
    s'.ctx.txPart.Ok := by
  cases op with
  | write i mqp => cases hs; exact h
  | send msg net => cases hs; exact ok_seg1Send h msg false net
  | connect i kaSecs cleanSession net =>
    cases hs
    have hopened := ok_netConnect h net
    unfold clCtxConnStateTryLocked
    dsimp only
    generalize Send.netConnect s net = r at hopened
    split
    · exact hopened
    · have hsent : (if (!r.1.initDone || r.1.ctx.connackAwait) = true then (r.1, mqpErrBadcall)
          else clCtxSeg1Send r.1 (.mqp i) true net).1.ctx.txPart.Ok := by
        split
        · exact hopened
        · exact ok_seg1Send hopened _ true net
      generalize (if (!r.1.initDone || r.1.ctx.connackAwait) = true then (r.1, mqpErrBadcall)
          else clCtxSeg1Send r.1 (.mqp i) true net) = r' at hsent
      split
      · exact hsent
      · split <;> exact hsent
  | progress net =>
    cases hs
    unfold mqttClientSendProgress
    split
    · exact h
    · dsimp only
      split <;> exact ok_partSend h net
  | disconnect net =>
    cases hs
    unfold mqttDisconnSend
    dsimp only
    split
    · exact ok_doNetCloseTx (ok_seg1Send h _ false net)
    · exact ok_seg1Send h _ false net
  | connack accepted net =>
    cases hs
    split
    · exact h
    · unfold procConnackRx
      dsimp only
      split
      · split
        · show (s.ctx.ack1Wl.foldl mqpFree _).ctx.txPart.Ok
          rw [(sameBytes_foldl s.ctx.ack1Wl _).ctx]
          exact h
        · exact h
      · exact ok_doNetClose h
  | closeRx => cases hs; exact ok_doNetClose h

/-- A library whose context has a slot as its functions leave it (`ok_txStep`). -/
structure ClientLib extends Lib where
  slot : ctx.txPart.Ok

/-- What a run leads to. -/
def ClientLib.ofRun {cfg : Cfg} {mqps : Nat → Mqp} {freeList : List Nat} {ops : List TxOp} {s : Lib}
    {os : List Unit} (h : runs txStep (created cfg mqps freeList) ops = some (s, os)) : ClientLib where
  toLib := s
  slot := runs_preserves (I := fun s => s.ctx.txPart.Ok) (fun hI he => ok_txStep hI he)
    (.inr ⟨rfl, rfl⟩) h

end SimpleLink.Client.Send
