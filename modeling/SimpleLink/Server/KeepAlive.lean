import SimpleLink.Server.KaSweep

/-!
# The keep-alive of a connection

A run of the library with, for every context, the keep-alive time of its CONNECT as it was sent and
the time of the last packet (`heard`). The deadline of a context is set from both whenever a packet
comes, in 16 bits for the time and in 32 bits for the deadline.
-/

namespace SimpleLink.Server.Pkts

open Lib Mqtt

variable {σ U A : Type}

/-! ## What a packet does to the deadlines -/

theorem marked_clCtxSend (s : State σ U) (c : CtxIdx) (sent : Bool) :
    Marked s (clCtxSend s c sent) := by
  unfold clCtxSend
  split
  · exact .refl s
  · exact marked_doNetCloseTx s c true

theorem marked_vhMsgSend (s : State σ U) (c : CtxIdx) (sent : Bool) :
    Marked s (vhMsgSend s c sent) := by
  unfold vhMsgSend
  split
  · exact .refl s
  · exact marked_clCtxSend s c sent

theorem marked_procMsgRx (s : State σ U) (c : CtxIdx) (wellFormed : Bool) (r : CbRes σ Bool)
    {answer : State σ U → State σ U} (hanswer : ∀ s, Marked s (answer s)) :
    Marked s (procMsgRx s c wellFormed r answer).1 := by
  unfold procMsgRx
  split
  · simp only
    split
    · exact (marked_afterCb s r).trans (hanswer _)
    · exact marked_afterCb s r
  · exact .refl s

theorem marked_procPubMsgRx (cbs : MsgCbs σ U A) (s : State σ U) (c : CtxIdx) (rx : Rx) :
    Marked s (procPubMsgRx cbs s c rx).1 := by
  unfold procPubMsgRx
  refine marked_procMsgRx s c _ _ fun s => ?_
  split
  · exact marked_vhMsgSend s c rx.sent
  · exact .refl s

/-- The deadline of a context was set at `now`, for a time-out of `ka`. -/
structure Refreshed (s : State σ U) (c : CtxIdx) (ka : UInt16) (now : UInt32) : Prop where
  rcvd : (s.ctxs c).rcvdConnMsg = true
  kaSecs : (s.ctxs c).kaSecs = ka
  timeout : (s.ctxs c).timeout = if ka = 0 then Pkts.kaTimeoutNone else now + ka.toUInt32

theorem Refreshed.markedAt {s s' : State σ U} {c : CtxIdx} {ka : UInt16} {now : UInt32}
    (h : Refreshed s c ka now) (hm : MarkedAt s s' c) : Refreshed s' c ka now := by
  obtain ⟨e, m, -, he⟩ := hm
  refine ⟨?_, ?_, ?_⟩
  · rw [he]
    exact h.rcvd
  · rw [he]
    exact h.kaSecs
  · rw [he]
    exact h.timeout

theorem timeout_clCtxTimeoutUpdate (x : ClientCtx U) (now : UInt32) :
    (clCtxTimeoutUpdate x now).timeout =
      if x.kaSecs = 0 then Pkts.kaTimeoutNone else now + x.kaSecs.toUInt32 := by
  unfold clCtxTimeoutUpdate
  by_cases hka : x.kaSecs = 0
  · by_cases ht : x.timeout = Pkts.kaTimeoutNone <;> simp [hka, ht]
  · simp [hka]

theorem refreshed_rxTimeoutUpdate {s : State σ U} {c : CtxIdx}
    (hrcvd : (s.ctxs c).rcvdConnMsg = true) (now : UInt32) :
    Refreshed (rxTimeoutUpdate s c now) c (s.ctxs c).kaSecs now := by
  have hctx : (rxTimeoutUpdate s c now).ctxs c = clCtxTimeoutUpdate (s.ctxs c) now := by
    unfold rxTimeoutUpdate
    rw [hrcvd]
    simp [usedCtxsInsert, usedCtxsRemove, State.setCtx]
  have hsame : (clCtxTimeoutUpdate (s.ctxs c) now).rcvdConnMsg = (s.ctxs c).rcvdConnMsg ∧
      (clCtxTimeoutUpdate (s.ctxs c) now).kaSecs = (s.ctxs c).kaSecs := by
    unfold clCtxTimeoutUpdate
    split <;> exact ⟨rfl, rfl⟩
  refine ⟨?_, ?_, ?_⟩
  · rw [hctx, hsame.1, hrcvd]
  · rw [hctx, hsame.2]
  · rw [hctx]
    exact timeout_clCtxTimeoutUpdate ..

theorem rxTimeoutUpdate_unconnected {s : State σ U} {c : CtxIdx}
    (h : (s.ctxs c).rcvdConnMsg = false) (now : UInt32) : rxTimeoutUpdate s c now = s := by
  unfold rxTimeoutUpdate
  rw [h]
  rfl

theorem othersMarked_rxTimeoutUpdate (s : State σ U) (c : CtxIdx) (now : UInt32) :
    OthersMarked s (rxTimeoutUpdate s c now) c := by
  unfold rxTimeoutUpdate
  split
  · exact fun d _ => .refl s d
  · exact othersMarked_setCtx s c _

theorem OthersMarked.trans {s s' s'' : State σ U} {c : CtxIdx} (h : OthersMarked s s' c)
    (h' : OthersMarked s' s'' c) : OthersMarked s s'' c := fun d hd => (h d hd).trans (h' d hd)

theorem OthersMarked.report {s s' : State σ U} {c : CtxIdx} (h : OthersMarked s s' c) (o : Obs U) :
    OthersMarked s (s'.report o) c := h

theorem procConnectRx_deadlines (cbs : MsgCbs σ U A) (s : State σ U) (c : CtxIdx) (rx : Rx) :
    OthersMarked s (procConnectRx cbs s c rx).1 c ∧
      ((procConnectRx cbs s c rx).2 = true →
        Refreshed (procConnectRx cbs s c rx).1 c (connectParse (s.ctxs c).kaSecs rx).1 rx.now) := by
  unfold procConnectRx
  dsimp only
  generalize connectParse (s.ctxs c).kaSecs rx = p
  obtain ⟨kaSecs, parsed⟩ := p
  have hset := othersMarked_setCtx s c { s.ctxs c with rcvdConnMsg := true, kaSecs := kaSecs }
  have hself : (s.setCtx c { s.ctxs c with rcvdConnMsg := true, kaSecs := kaSecs }).ctxs c =
      { s.ctxs c with rcvdConnMsg := true, kaSecs := kaSecs } := Function.update_self ..
  generalize s.setCtx c { s.ctxs c with rcvdConnMsg := true, kaSecs := kaSecs } = s₁ at hset hself ⊢
  cases parsed with
  | error ackVh16 =>
    refine ⟨?_, fun h => absurd h Bool.false_ne_true⟩
    dsimp only
    split
    · exact (hset.report _).marked (marked_vhMsgSend (s₁.report (.connect c none)) c rx.sent)
    · exact hset
  | ok parsed =>
    obtain ⟨connFlags, utf8s⟩ := parsed
    dsimp only
    generalize cbs.connectRx s₁.core c connFlags utf8s = r
    have hcb := marked_afterCb s₁ r
    generalize afterCb s₁ r = s₂ at hcb ⊢
    have hself₂ := hcb.ctx c
    have husr := (hset.marked hcb).trans (othersMarked_setCtx s₂ c { s₂.ctxs c with usr := r.ret.2 })
    have hself₃ : (s₂.setCtx c { s₂.ctxs c with usr := r.ret.2 }).ctxs c =
        { s₂.ctxs c with usr := r.ret.2 } := Function.update_self ..
    have husr := husr.report (.connect c r.ret.2)
    have hself₃ : ((s₂.setCtx c { s₂.ctxs c with usr := r.ret.2 }).report
      (.connect c r.ret.2)).ctxs c = { s₂.ctxs c with usr := r.ret.2 } := hself₃
    generalize (s₂.setCtx c { s₂.ctxs c with usr := r.ret.2 }).report (.connect c r.ret.2) = s₃
      at husr hself₃ ⊢
    have hsent : Marked s₃ (if r.ret.1 &&& 0xFF ≠ 0xFF then vhMsgSend s₃ c rx.sent else s₃) := by
      split
      · exact marked_vhMsgSend ..
      · exact .refl s₃
    generalize (if r.ret.1 &&& 0xFF ≠ 0xFF then vhMsgSend s₃ c rx.sent else s₃) = s₄ at hsent ⊢
    have hothers := husr.marked hsent
    split
    · have hupd := hothers.trans (othersMarked_rxTimeoutUpdate s₄ c rx.now)
      refine ⟨hupd.marked (marked_afterCb ..), fun _ => ?_⟩
      have hctx : (s₄.ctxs c).rcvdConnMsg = true ∧ (s₄.ctxs c).kaSecs = kaSecs := by
        obtain ⟨_, _, -, he₂⟩ := hself₂
        obtain ⟨_, _, -, he₄⟩ := hsent.ctx c
        rw [he₄, hself₃, he₂, hself]
        exact ⟨rfl, rfl⟩
      have hrefreshed := refreshed_rxTimeoutUpdate hctx.1 rx.now
      rw [hctx.2] at hrefreshed
      exact hrefreshed.markedAt ((marked_afterCb ..).ctx c)
    · exact ⟨hothers, fun h => absurd h Bool.false_ne_true⟩

def kaAfter (x : ClientCtx U) (rx : Rx) : UInt16 :=
  if msgType rx.pkt = mqttConnect then (connectParse x.kaSecs rx).1 else x.kaSecs

theorem processRecv_deadlines (cbs : MsgCbs σ U A) {s : State σ U} {c : CtxIdx}
    (hnodup : s.usedCtxs.Nodup) (hc : c ∈ s.usedCtxs) (rx : Rx) :
    OthersMarked s (processRecv cbs s c rx).1 c ∧
      ((processRecv cbs s c rx).2 = true → c ∈ (processRecv cbs s c rx).1.usedCtxs →
        Refreshed (processRecv cbs s c rx).1 c (kaAfter (s.ctxs c) rx) rx.now) := by
  unfold processRecv
  dsimp only
  split
  · exact ⟨fun d _ => .refl s d, fun h => absurd h Bool.false_ne_true⟩
  · rename_i hproto
    have hothers := othersMarked_rxTimeoutUpdate s c rx.now
    by_cases hconn : msgType rx.pkt = mqttConnect
    · rw [if_pos hconn]
      rw [hconn] at hproto
      have hrcvd : (s.ctxs c).rcvdConnMsg = false := by simpa using hproto
      rw [rxTimeoutUpdate_unconnected hrcvd, kaAfter, if_pos hconn]
      exact (procConnectRx_deadlines cbs s c rx).imp_right fun h hok _ => h hok
    · rw [if_neg hconn, kaAfter, if_neg hconn]
      rw [bne_iff_ne.2 hconn] at hproto
      have hrcvd : (s.ctxs c).rcvdConnMsg = true := by simpa using hproto
      have hrefreshed := refreshed_rxTimeoutUpdate hrcvd rx.now
      have hcalm := calm_rxTimeoutUpdate s hc rx.now
      generalize rxTimeoutUpdate s c rx.now = s₁ at hothers hrefreshed hcalm ⊢
      have hacted : ∀ r : State σ U × Bool,
          Marked (s₁.report (.acted c (msgType rx.pkt))) r.1 →
          OthersMarked s r.1 c ∧
            (r.2 = true → c ∈ r.1.usedCtxs → Refreshed r.1 c (s.ctxs c).kaSecs rx.now) :=
        fun r hm => ⟨(hothers.report _).marked hm, fun _ _ => hrefreshed.markedAt (hm.ctx c)⟩
      split
      · -- the context is closed
        have hended := ended_doNetCloseRx cbs (s₁.report (.acted c (msgType rx.pkt))) c false
        refine ⟨(hothers.report _).trans hended.other, fun _ hmem => ?_⟩
        have hmem' : c ∈ s₁.usedCtxs.erase c := hended.used ▸ hmem
        exact absurd hmem' (hcalm.used.nodup_iff.2 hnodup).not_mem_erase
      split
      · exact hacted _ (marked_procMsgRx _ c _ _ fun s => marked_clCtxSend s c _)
      split
      · exact hacted _ (marked_procMsgRx _ c _ _ fun s => marked_vhMsgSend s c _)
      split
      · exact hacted _ (marked_vhMsgSend ..)
      split
      · exact hacted _ (marked_procPubMsgRx ..)
      split
      · exact hacted _ (marked_procMsgRx _ c _ _ Marked.refl)
      · exact ⟨hothers, fun h => absurd h Bool.false_ne_true⟩

/-! ## The time that was sent -/

/-- The keep-alive time in a CONNECT: it follows the name of the protocol, its version and the
flags. -/
def sentKeepAlive (pkt : Packet) : Option UInt16 :=
  match mqpBufRdUtf8 pkt.payload with
  | some (_, _ :: _ :: hi :: lo :: _) => some (bufRdNbo2B hi lo)
  | _ => none

/-- One time and a half, as `proc_connect_vh_rx` has it. -/
def kaGrace (k : UInt16) : UInt16 := k + k >>> 1

theorem connectParse_kaSecs {kaSecs k : UInt16} {rx : Rx}
    (hok : ∃ parsed, (connectParse kaSecs rx).2 = .ok parsed)
    (hk : sentKeepAlive rx.pkt = some k) : (connectParse kaSecs rx).1 = kaGrace k := by
  obtain ⟨parsed, hok⟩ := hok
  unfold connectParse procConnectVhRx at hok ⊢
  unfold sentKeepAlive at hk
  cases hrd : mqpBufRdUtf8 rx.pkt.payload with
  | none =>
    rw [hrd] at hk
    cases hk
  | some r =>
    obtain ⟨utf8, buf⟩ := r
    rw [hrd] at hk hok
    dsimp only at hk hok ⊢
    rcases buf with _ | ⟨ver, _ | ⟨connFlags, _ | ⟨hi, _ | ⟨lo, buf⟩⟩⟩⟩
    · cases hk
    · cases hk
    · cases hk
    · cases hk
    · cases hk
      dsimp only at hok ⊢
      by_cases hproto : procProtocolInfo utf8 ver = true
      · simp only [hproto, Bool.not_true, Bool.false_eq_true, if_false] at hok ⊢
        rfl
      · simp only [hproto, Bool.not_false, if_true] at hok
        cases hok

theorem procConnectRx_ok (cbs : MsgCbs σ U A) {s : State σ U} {c : CtxIdx} {rx : Rx}
    (h : (procConnectRx cbs s c rx).2 = true) :
    ∃ parsed, (connectParse (s.ctxs c).kaSecs rx).2 = .ok parsed := by
  unfold procConnectRx at h
  dsimp only at h
  cases hp : (connectParse (s.ctxs c).kaSecs rx).2 with
  | error ackVh16 =>
    rw [hp] at h
    cases h
  | ok parsed => exact ⟨parsed, rfl⟩

/-! ## The arithmetic -/

/-- `k` and its half fit, and nothing is lost of the half. -/
def Halves (k : UInt16) : Prop := k.toNat % 2 = 0 ∧ k.toNat ≤ 43690

instance (k : UInt16) : Decidable (Halves k) := inferInstanceAs (Decidable (_ ∧ _))

theorem toNat_kaGrace {k : UInt16} (h : k.toNat ≤ 43690) :
    (kaGrace k).toNat = k.toNat + k.toNat / 2 := by
  have hshift : (k >>> 1).toNat = k.toNat / 2 := by
    rw [UInt16.toNat_shiftRight]
    exact Nat.shiftRight_eq_div_pow ..
  unfold kaGrace
  rw [UInt16.toNat_add, hshift]
  exact Nat.mod_eq_of_lt (by omega)

/-- The deadline of a context that was last heard of at `last`. -/
def Due (k : UInt16) (last timeout : UInt32) : Prop :=
  Halves k ∧ timeout.toNat = last.toNat + (k.toNat + k.toNat / 2) ∨
    k = 43691 ∧ timeout = Pkts.kaTimeoutNone

/-- The time-out of a CONNECT is exact: an even time of at most 43690 that ends before the clock
does, or the one time for which the time-out becomes 0, which is none. -/
def ExactFor (k : UInt16) (now : UInt32) : Prop :=
  Halves k ∧ now.toNat + (k.toNat + k.toNat / 2) < 4294967296 ∨ k = 43691

theorem due_of_exactFor {k : UInt16} {now timeout : UInt32} (hk : k ≠ 0) (h : ExactFor k now)
    (ht : timeout = if kaGrace k = 0 then Pkts.kaTimeoutNone else now + (kaGrace k).toUInt32) :
    Due k now timeout := by
  rcases h with ⟨hhalves, hlt⟩ | rfl
  · have hgrace := toNat_kaGrace hhalves.2
    have hpos : 0 < k.toNat := by
      refine Nat.pos_of_ne_zero fun h0 => hk (UInt16.toNat_inj.1 h0)
    have hne : kaGrace k ≠ 0 := by
      intro h0
      rw [h0] at hgrace
      have hzero : (0 : UInt16).toNat = 0 := rfl
      omega
    rw [if_neg hne] at ht
    refine .inl ⟨hhalves, ?_⟩
    rw [ht, UInt32.toNat_add, UInt16.toNat_toUInt32, hgrace]
    exact Nat.mod_eq_of_lt hlt
  · exact .inr ⟨rfl, ht⟩

/-! ## Runs -/

/-- The library, and what was heard from the client of a context: the keep-alive time that it sent,
and when its last packet came. -/
structure Watched (σ U : Type) where
  pkts : State σ U
  heard : CtxIdx → Option (UInt16 × UInt32)

def heardOf (w : Watched σ U) (c : CtxIdx) (rx : Rx) : Option (UInt16 × UInt32) :=
  if msgType rx.pkt = mqttConnect then (sentKeepAlive rx.pkt).map (·, rx.now)
  else (w.heard c).map fun h => (h.1, rx.now)

def hear (w : Watched σ U) : PktsOp A → CtxIdx → Option (UInt16 × UInt32)
  | .recv net (some rx) =>
    match netClCtxFind w.pkts net with
    | none => w.heard
    | some c => Function.update w.heard c (heardOf w c rx)
  | _ => w.heard

def watchStep (cbs : MsgCbs σ U A) (w : Watched σ U) (op : PktsOp A) :
    Option (Watched σ U × Unit) :=
  (pktsStep cbs w.pkts op).map fun r => (⟨r.1, hear w op⟩, ())

/-- A sweep at `now` closes a context because its time is over, and not for a send that failed. -/
def KaClosed (cbs : MsgCbs σ U A) (now : UInt32) (s : State σ U) (c : CtxIdx) : Prop :=
  ∃ l₁ l₂, s.usedCtxs = l₁ ++ c :: l₂ ∧
    ((l₁.foldl (kaClose cbs now) s).ctxs c).expired now = true ∧
    ((l₁.foldl (kaClose cbs now) s).ctxs c).networkClose = false

/-- No sweep closes a connection for its keep-alive time before one time and a half has passed since
the last packet. -/
def Grace (cbs : MsgCbs σ U A) (w : Watched σ U) : PktsOp A → Prop
  | .ka now => ∀ c k last, KaClosed cbs now w.pkts c → (w.pkts.ctxs c).rcvdConnMsg = true →
      w.heard c = some (k, last) → k ≠ 0 →
      last.toNat ≤ now.toNat ∧ 3 * k.toNat ≤ 2 * (now.toNat - last.toNat)
  | _ => True

/-- The deadlines that a packet sets are exact; and no sweep comes at the time that stands for no
deadline, where there is a client with none. -/
def InTime (w : Watched σ U) : PktsOp A → Prop
  | .recv net (some rx) => ∀ c, netClCtxFind w.pkts net = some c → ∀ k last,
      heardOf w c rx = some (k, last) → k ≠ 0 → ExactFor k rx.now
  | .ka now => now = Pkts.kaTimeoutNone → ∀ c ∈ w.pkts.usedCtxs, ∀ last,
      w.heard c ≠ some (43691, last)
  | _ => True

/-- The deadlines of the clients that connected. -/
structure Watched.Inv (w : Watched σ U) : Prop where
  pkts : PktsInv w.pkts none
  due : ∀ c ∈ w.pkts.usedCtxs, (w.pkts.ctxs c).rcvdConnMsg = true → ∀ k last,
    w.heard c = some (k, last) → k ≠ 0 →
    (w.pkts.ctxs c).kaSecs = kaGrace k ∧ Due k last (w.pkts.ctxs c).timeout

theorem watched_init (core : σ) : (⟨clCtxInit core, fun _ => none⟩ : Watched σ U).Inv where
  pkts := pktsInv_init core
  due _ hc := nomatch hc

section Steps

variable {w : Watched σ U} {cbs : MsgCbs σ U A}

theorem Watched.Inv.marked (h : w.Inv) {s' : State σ U} {heard : CtxIdx → Option (UInt16 × UInt32)}
    (hpkts : PktsInv s' none)
    (hsame : ∀ d ∈ s'.usedCtxs, (s'.ctxs d).rcvdConnMsg = true →
      (d ∈ w.pkts.usedCtxs ∧ MarkedAt w.pkts s' d ∧ heard d = w.heard d) ∨
        ∀ k last, heard d = some (k, last) → k ≠ 0 →
          (s'.ctxs d).kaSecs = kaGrace k ∧ Due k last (s'.ctxs d).timeout) :
    (⟨s', heard⟩ : Watched σ U).Inv := by
  refine ⟨hpkts, fun d hd hrcvd k last hheard hk => ?_⟩
  rcases hsame d hd hrcvd with ⟨hmem, ⟨e, m, -, he⟩, hsame⟩ | hdue
  · dsimp only at hrcvd hheard ⊢
    rw [he] at hrcvd ⊢
    rw [hsame] at hheard
    exact h.due d hmem hrcvd k last hheard hk
  · exact hdue k last hheard hk

theorem Watched.Inv.kaSequence (h : w.Inv) (now : UInt32) :
    (⟨kaSequence cbs w.pkts now, w.heard⟩ : Watched σ U).Inv := by
  obtain ⟨out, hswept⟩ := swept_foldl cbs now (l := w.pkts.usedCtxs) h.pkts.nodup
  refine h.marked (h.pkts.kaSequence cbs now) fun d hd _ => .inl ?_
  have hmem : d ∈ w.pkts.usedCtxs := hswept.order.subset hd
  exact ⟨hmem, hswept.same d ((hswept.kept d hmem).1 hd), rfl⟩

theorem Watched.Inv.acceptCtx (h : w.Inv) (net : Int) (waitSecs now : UInt32) :
    (⟨(acceptCtx w.pkts net waitSecs now).1, w.heard⟩ : Watched σ U).Inv := by
  refine h.marked (h.pkts.acceptCtx net waitSecs now) fun d hd hrcvd => .inl ?_
  unfold Pkts.acceptCtx at hd hrcvd ⊢
  cases hlist : w.pkts.freeCtxs with
  | nil =>
    rw [hlist] at hd
    exact ⟨hd, .refl _ d, rfl⟩
  | cons c rest =>
    rw [hlist] at hd hrcvd
    have hcf : c ∈ w.pkts.freeCtxs := by
      rw [hlist]
      exact List.mem_cons_self
    dsimp only at hd hrcvd ⊢
    by_cases hnet : net = -1
    · rw [if_pos hnet] at hd hrcvd ⊢
      have hmem : d ∈ w.pkts.usedCtxs := hd
      have hdc : d ≠ c := fun he => h.pkts.not_free hmem (he ▸ hcf)
      exact ⟨hmem, .of_eq (Function.update_of_ne hdc ..), rfl⟩
    · rw [if_neg hnet] at hd hrcvd ⊢
      have hmem := (clCtxTimeoutInsert_perm ..).mem_iff.1 hd
      rcases List.mem_cons.1 hmem with rfl | hmem
      · -- a new connection has not sent its CONNECT
        simp [usedCtxsInsert, State.report, State.setCtx, (h.pkts.free d hcf).2] at hrcvd
      · have hdc : d ≠ c := fun he => h.pkts.not_free hmem (he ▸ hcf)
        exact ⟨hmem, .of_eq (Function.update_of_ne hdc ..), rfl⟩

theorem processRecv_ok {s : State σ U} {c : CtxIdx} {rx : Rx}
    (hok : (processRecv cbs s c rx).2 = true) :
    if msgType rx.pkt = mqttConnect then
      ∃ parsed, (connectParse (s.ctxs c).kaSecs rx).2 = .ok parsed
    else (s.ctxs c).rcvdConnMsg = true := by
  unfold processRecv at hok
  dsimp only at hok
  split at hok
  · exact absurd hok Bool.false_ne_true
  · rename_i hproto
    by_cases hconn : msgType rx.pkt = mqttConnect
    · rw [if_pos hconn] at hok ⊢
      rw [hconn] at hproto
      have hrcvd : (s.ctxs c).rcvdConnMsg = false := by simpa using hproto
      rw [rxTimeoutUpdate_unconnected hrcvd] at hok
      exact procConnectRx_ok cbs hok
    · rw [if_neg hconn]
      rw [bne_iff_ne.2 hconn] at hproto
      simpa using hproto

theorem due_of_refreshed (h : w.Inv) {c : CtxIdx} (hc : c ∈ w.pkts.usedCtxs) {rx : Rx}
    (hin : ∀ k last, heardOf w c rx = some (k, last) → k ≠ 0 → ExactFor k rx.now)
    (hok : (processRecv cbs w.pkts c rx).2 = true) {s' : State σ U}
    (hrefreshed : Refreshed s' c (kaAfter (w.pkts.ctxs c) rx) rx.now) {k : UInt16} {last : UInt32}
    (hheard : heardOf w c rx = some (k, last)) (hk : k ≠ 0) :
    (s'.ctxs c).kaSecs = kaGrace k ∧ Due k last (s'.ctxs c).timeout := by
  have hexact := hin k last hheard hk
  have hwas := processRecv_ok hok
  have hka : kaAfter (w.pkts.ctxs c) rx = kaGrace k ∧ last = rx.now := by
    unfold kaAfter
    unfold heardOf at hheard
    by_cases hconn : msgType rx.pkt = mqttConnect
    · rw [if_pos hconn] at hwas hheard ⊢
      obtain ⟨k', hsent, he⟩ := Option.map_eq_some_iff.1 hheard
      obtain ⟨rfl, rfl⟩ := Prod.mk.inj he
      exact ⟨connectParse_kaSecs hwas hsent, rfl⟩
    · rw [if_neg hconn] at hwas hheard ⊢
      obtain ⟨⟨k', last'⟩, hbefore, he⟩ := Option.map_eq_some_iff.1 hheard
      obtain ⟨rfl, rfl⟩ := Prod.mk.inj he
      exact ⟨(h.due c hc hwas k' last' hbefore hk).1, rfl⟩
  rw [hka.1] at hrefreshed
  rw [hka.2]
  exact ⟨hrefreshed.kaSecs, due_of_exactFor hk hexact hrefreshed.timeout⟩

theorem Watched.Inv.recv (h : w.Inv) {net : Int} {rx : Option Rx} {s' : State σ U}
    (hin : InTime w (.recv net rx : PktsOp A)) (hr : procNetDataRecv cbs w.pkts net rx = some s') :
    (⟨s', hear w (.recv net rx : PktsOp A)⟩ : Watched σ U).Inv := by
  refine h.marked (h.pkts.procNetDataRecv cbs hr) fun d hd hrcvd => ?_
  unfold Pkts.procNetDataRecv at hr
  cases hfind : netClCtxFind w.pkts net with
  | none =>
    rw [hfind] at hr
    cases hr
  | some c =>
    have hc := mem_of_netClCtxFind hfind
    rw [hfind] at hr
    cases rx with
    | none =>
      cases hr
      have hended := ended_doNetCloseRx cbs w.pkts c true
      rw [hended.used] at hd
      obtain ⟨hdc, hmem⟩ := h.pkts.nodup.mem_erase_iff.1 hd
      exact .inl ⟨hmem, hended.other d hdc, rfl⟩
    | some rx =>
      obtain ⟨hothers, hself⟩ := processRecv_deadlines cbs h.pkts.nodup hc rx
      have hdone := recvDone_processRecv cbs hc (h.pkts.used c hc nofun) rx
      have hkept := hdone.netsKept h.pkts.nodup
      have hheard : hear w (.recv net (some rx) : PktsOp A) =
          Function.update w.heard c (heardOf w c rx) := by
        simp only [hear, hfind]
      have hother : d ≠ c → hear w (.recv net (some rx) : PktsOp A) d = w.heard d := by
        intro hdc
        rw [hheard]
        exact Function.update_of_ne hdc ..
      cases hr
      by_cases hok : (processRecv cbs w.pkts c rx).2 = true
      · rw [if_pos hok] at hd hrcvd ⊢
        by_cases hdc : d = c
        · subst hdc
          refine .inr fun k last hk hne => ?_
          rw [hheard, Function.update_self] at hk
          exact due_of_refreshed h hc (hin d hfind) hok (hself hok hd) hk hne
        · exact .inl ⟨(hkept.mem d hd).1, hothers d hdc, hother hdc⟩
      · rw [if_neg hok] at hd hrcvd ⊢
        have hended := ended_doNetCloseRx cbs (processRecv cbs w.pkts c rx).1 c true
        rw [hended.used] at hd
        obtain ⟨hdc, hmem⟩ := (h.pkts.recvDone hc hdone).inv.nodup.mem_erase_iff.1 hd
        exact .inl ⟨(hkept.mem d hmem).1, (hothers d hdc).trans (hended.other d hdc), hother hdc⟩

theorem Watched.Inv.step (h : w.Inv) {op : PktsOp A} {w' : Watched σ U} {out : Unit}
    (hin : InTime w op) (hs : watchStep cbs w op = some (w', out)) : w'.Inv := by
  obtain ⟨⟨s', u⟩, hpkts, he⟩ := Option.map_eq_some_iff.1 hs
  obtain ⟨rfl, -⟩ := Prod.mk.inj he
  cases op with
  | ka now =>
    cases hpkts
    exact h.kaSequence now
  | accept net waitSecs now =>
    cases hpkts
    exact h.acceptCtx net waitSecs now
  | recv net rx =>
    obtain ⟨s₁, hr, he'⟩ := Option.map_eq_some_iff.1 hpkts
    obtain ⟨rfl, -⟩ := Prod.mk.inj he'
    exact h.recv hin hr
  | app a =>
    cases hpkts
    have hm := marked_afterCb w.pkts (cbs.app w.pkts.core a)
    refine h.marked (h.pkts.calm (calm_afterCb ..)) fun d hd _ => .inl ⟨?_, hm.ctx d, rfl⟩
    exact hm.used ▸ hd

theorem Watched.Inv.grace (h : w.Inv) {op : PktsOp A} (hin : InTime w op) : Grace cbs w op := by
  cases op with
  | ka now =>
    intro c k last hclosed hrcvd hheard hk
    obtain ⟨l₁, l₂, hsplit, hexp, hflag⟩ := hclosed
    have hc : c ∈ w.pkts.usedCtxs := by
      rw [hsplit]
      simp
    have hover : (w.pkts.ctxs c).timeout ≤ now := by
      rw [← (markedAt_turn cbs now h.pkts.nodup hsplit).timeout]
      refine (expired_iff.1 hexp).resolve_left ?_
      rw [hflag]
      exact Bool.false_ne_true
    rcases (h.due c hc hrcvd k last hheard hk).2 with ⟨hhalves, ht⟩ | ⟨rfl, ht⟩
    · have hnat := UInt32.le_iff_toNat_le.1 hover
      have heven := hhalves.1
      omega
    · rw [ht] at hover
      exact absurd hheard (hin (eq_kaTimeoutNone hover) c hc last)
  | accept net waitSecs now => exact trivial
  | recv net rx => exact trivial
  | app a => exact trivial

end Steps

/-- In a run whose deadlines are exact, no connection is closed before one time and a half of its
keep-alive time has passed without a packet. -/
theorem keepAlive_grace (cbs : MsgCbs σ U A) (core : σ) (ops : List (PktsOp A))
    (h : Meets (watchStep cbs) InTime ⟨clCtxInit core, fun _ => none⟩ ops) :
    Meets (watchStep cbs) (Grace cbs) ⟨clCtxInit core, fun _ => none⟩ ops :=
  Meets.imp (I := Watched.Inv) (fun hinv hin => hinv.grace hin)
    (fun hinv hin hs => hinv.step hin hs) (watched_init core) h

/-- A client with a keep-alive time of 60 is closed after 90. -/
theorem keepAlive_grace_sixty :
    Meets (watchStep acceptingCore) (Grace acceptingCore) ⟨clCtxInit (), fun _ => none⟩
      [.accept 5 10 0, .recv 5 (some connectA), .ka 91] := by
  apply keepAlive_grace
  refine Meets.cons trivial rfl (Meets.cons ?_ rfl (Meets.cons ?_ rfl trivial))
  · intro c hc k last hk _
    obtain rfl : 5 = c := Option.some.inj hc
    cases hk
    exact .inl ⟨by decide, by decide⟩
  · exact fun h => absurd h (by decide)

/-- A CONNECT of client "a", with a keep-alive time of 43692: it and its half are 65538. -/
def connectLong : Rx where
  pkt := ⟨0x10, [0x0D], [0, 4, 0x4D, 0x51, 0x54, 0x54, 4, 2, 0xAA, 0xAC, 0, 1, 0x61]⟩
  now := 1
  sent := true
  stale := []

/-- The client is closed 2 seconds after its CONNECT. -/
theorem keepAlive_too_early :
    ¬ ∀ ops : List (PktsOp Unit),
      Meets (watchStep acceptingCore) (Grace acceptingCore) ⟨clCtxInit (), fun _ => none⟩ ops := by
  intro h
  have hrun := h [.accept 5 10 0, .recv 5 (some connectLong), .ka 3]
  have hgrace := ((hrun.next rfl).next rfl).1
  have hearly := hgrace 5 43692 1 ⟨[], [], rfl, rfl, rfl⟩ rfl rfl (by decide)
  exact absurd hearly.2 (by decide)

end SimpleLink.Server.Pkts
