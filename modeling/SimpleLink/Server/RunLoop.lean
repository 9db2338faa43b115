import SimpleLink.Server.ConnStates

/-!
# The loop of the server (`mqtt_server_run`)

One iteration sweeps the contexts, waits for the network, and serves what is ready: the listening
socket, the loopback socket and the sockets of the clients, in this order. `Survives` says
that the function has not returned and that the clients were served. `NetOk` is what the network
promises of the listening socket; under it the loop survives exactly where there is a context for
the connection that is accepted.
-/

namespace SimpleLink.Server.Pkts

open Lib Mqtt

variable {σ U A : Type}

/-! ## One iteration -/

/-- The sockets of the library; there is a loopback socket if there is a port for it. -/
structure RunCfg where
  listenNet : Int
  loopbNet : Option Int
  waitSecs : UInt32
  ne : loopbNet ≠ some listenNet

/-- What the network and the application do in an iteration. -/
structure Round (A : Type) where
  /-- What the application asks before the sweep, and while the library waits. -/
  before : List A
  during : List A
  now : UInt32
  /-- What `io_mon` says of a handle; it may fail. -/
  ioMon : Option (Int → Bool)
  /-- What `accept`, `recv_from` and `mqp_recv` return. -/
  accepted : Int
  acceptNow : UInt32
  loopback : Int
  rx : Int → Option Rx

def appCalls (cbs : MsgCbs σ U A) (s : State σ U) (as : List A) : State σ U :=
  as.foldl (fun s a => afterCb s (cbs.app s.core a)) s

/-- `recv_hvec_load`. -/
def recvHvecLoad (s : State σ U) (size : Nat) : List Int :=
  (s.usedCtxs.take size).map fun c => (s.ctxs c).net

/-- What `accept_and_recv_locked` does with a handle. -/
def serveHandle (cbs : MsgCbs σ U A) (cfg : RunCfg) (r : Round A) (s : State σ U) (net : Int) :
    Option (State σ U × Bool) :=
  if net = cfg.listenNet then some (acceptCtx s r.accepted cfg.waitSecs r.acceptNow)
  else if some net = cfg.loopbNet then some (s, 0 < r.loopback)
  else (procNetDataRecv cbs s net (r.rx net)).map fun s => (s, true)

/-- The loop of `accept_and_recv_locked`; it stops at the first handle that fails, and then
`mqtt_server_run` returns. -/
def acceptAndRecv (cbs : MsgCbs σ U A) (cfg : RunCfg) (r : Round A) :
    List Int → State σ U → Option (State σ U × Bool)
  | [], s => some (s, false)
  | net :: nets, s =>
    match serveHandle cbs cfg r s net with
    | none => none
    | some (s, false) => some (s, true)
    | some (s, true) => acceptAndRecv cbs cfg r nets s

def swept (cbs : MsgCbs σ U A) (s : State σ U) (r : Round A) : State σ U :=
  kaSequence cbs (appCalls cbs s r.before) r.now

/-- The body of the loop of `mqtt_server_run`, and whether the function has returned. -/
def serverRound (cbs : MsgCbs σ U A) (cfg : RunCfg) (s : State σ U) (r : Round A) :
    Option (State σ U × Bool) :=
  let s := swept cbs s r
  let recvHvec := cfg.listenNet :: (cfg.loopbNet.toList ++ recvHvecLoad s (maxNwconn + 1))
  match r.ioMon with
  | none => some (s, true)
  | some ready => acceptAndRecv cbs cfg r (recvHvec.filter ready) (appCalls cbs s r.during)

def readyNets (s : State σ U) (ready : Int → Bool) : List Int :=
  (s.usedCtxs.filter fun c => ready (s.ctxs c).net).map fun c => (s.ctxs c).net

/-- A connection that waits has been accepted. -/
def admitted (cfg : RunCfg) (s : State σ U) (r : Round A) (ready : Int → Bool) : State σ U :=
  if ready cfg.listenNet then (acceptCtx s r.accepted cfg.waitSecs r.acceptNow).1 else s

/-- What has come from the clients is received and processed, one after the other. -/
def serveClients (cbs : MsgCbs σ U A) (r : Round A) (nets : List Int) (s : State σ U) :
    Option (State σ U) :=
  nets.foldlM (fun s net => procNetDataRecv cbs s net (r.rx net)) s

/-- The function has not returned. What the iteration has done after the sweep is to accept the connection
that waits, and to receive from every client that was connected and for which something had come. -/
def Survives (cbs : MsgCbs σ U A) (cfg : RunCfg) (s : State σ U) (r : Round A) : Prop :=
  ∃ ready s', r.ioMon = some ready ∧ serverRound cbs cfg s r = some (s', false) ∧
    serveClients cbs r (readyNets (swept cbs s r) ready)
      (admitted cfg (appCalls cbs (swept cbs s r) r.during) r ready) = some s'

/-- A context is free, or will be once the sweep has closed the connections whose time is over or to
which a send has failed. -/
def HasSlot (s : State σ U) (now : UInt32) : Prop :=
  s.freeCtxs ≠ [] ∨ ∃ c ∈ s.usedCtxs, (s.ctxs c).expired now

/-- The network has not failed otherwise, and there is a context for a connection that is to be
accepted. -/
def SlotFree (cbs : MsgCbs σ U A) (cfg : RunCfg) (s : State σ U) (r : Round A) : Prop :=
  match r.ioMon with
  | none => False
  | some ready =>
    (ready cfg.listenNet → HasSlot (appCalls cbs s r.before) r.now) ∧
      (cfg.loopbNet.any ready → 0 < r.loopback)

/-- `accept` does not fail, and gives a handle that is not in use. -/
structure NetOk (cbs : MsgCbs σ U A) (cfg : RunCfg) (s : State σ U) (r : Round A) : Prop where
  accepted : r.accepted ≠ -1
  listen : r.accepted ≠ cfg.listenNet
  loopb : some r.accepted ≠ cfg.loopbNet
  fresh : ∀ c ∈ (swept cbs s r).usedCtxs, ((swept cbs s r).ctxs c).net ≠ r.accepted

instance (s : State σ U) (now : UInt32) : Decidable (HasSlot s now) :=
  have : Decidable (s.freeCtxs ≠ []) := decidable_of_iff (s.freeCtxs.isEmpty = false) (by simp)
  inferInstanceAs (Decidable (_ ∨ _))

instance (cbs : MsgCbs σ U A) (cfg : RunCfg) (s : State σ U) (r : Round A) :
    Decidable (SlotFree cbs cfg s r) :=
  have (mon : Option (Int → Bool)) : Decidable (match mon with
      | none => False
      | some ready =>
        (ready cfg.listenNet → HasSlot (appCalls cbs s r.before) r.now) ∧
          (cfg.loopbNet.any ready → 0 < r.loopback)) :=
    match mon with
    | none => inferInstanceAs (Decidable False)
    | some _ => inferInstanceAs (Decidable (_ ∧ _))
  this r.ioMon

local instance lawfulBEq_ctxIdx : LawfulBEq CtxIdx := inferInstance

instance (cbs : MsgCbs σ U A) (cfg : RunCfg) (s : State σ U) (r : Round A) :
    Decidable (NetOk cbs cfg s r) :=
  decidable_of_iff (r.accepted ≠ -1 ∧ r.accepted ≠ cfg.listenNet ∧
      some r.accepted ≠ cfg.loopbNet ∧
      ∀ c ∈ (swept cbs s r).usedCtxs, ((swept cbs s r).ctxs c).net ≠ r.accepted)
    ⟨fun ⟨h₁, h₂, h₃, h₄⟩ => ⟨h₁, h₂, h₃, h₄⟩, fun ⟨h₁, h₂, h₃, h₄⟩ => ⟨h₁, h₂, h₃, h₄⟩⟩

/-! ## The handles of the contexts -/

/-- The contexts in use after a step were in use before it, with the same handles; all but `c` are
still in use. -/
structure NetsKept (s s' : State σ U) (c : CtxIdx) : Prop where
  mem : ∀ d ∈ s'.usedCtxs, d ∈ s.usedCtxs ∧ (s'.ctxs d).net = (s.ctxs d).net
  other : ∀ d ∈ s.usedCtxs, d ≠ c → d ∈ s'.usedCtxs

variable {s s' s'' : State σ U} {c : CtxIdx}

theorem NetsKept.trans (h : NetsKept s s' c) (h' : NetsKept s' s'' c) : NetsKept s s'' c where
  mem _ hd :=
    have hd' := h'.mem _ hd
    have hd₀ := h.mem _ hd'.1
    ⟨hd₀.1, hd'.2.trans hd₀.2⟩
  other d hd hne := h'.other d (h.other d hd hne) hne

theorem Calm.netsKept (h : Calm s s') (c : CtxIdx) : NetsKept s s' c where
  mem _ hd :=
    have hd := h.used.mem_iff.1 hd
    ⟨hd, h.net _ hd⟩
  other _ hd _ := h.used.mem_iff.2 hd

theorem Moved.netsKept {usr : Option U} {rcvd : Bool} {out : List (Obs U)}
    (h : Moved s s' c usr rcvd (s.ctxs c).net out) : NetsKept s s' c where
  mem d hd := by
    have hd := h.used.mem_iff.1 hd
    refine ⟨hd, ?_⟩
    by_cases hdc : d = c
    · subst hdc
      exact h.own hd
    · exact h.net d hd hdc
  other d hd _ := h.used.mem_iff.2 hd

theorem Closed.netsKept {due2err : Bool} (h : Closed s s' c due2err) (hnodup : s.usedCtxs.Nodup) :
    NetsKept s s' c where
  mem d hd := by
    obtain ⟨hne, hd⟩ := hnodup.mem_erase_iff.1 (h.used.mem_iff.1 hd)
    exact ⟨hd, h.net d hd hne⟩
  other d hd hne := h.used.mem_iff.2 ((List.mem_erase_of_ne hne).2 hd)

theorem netsKept_report (s : State σ U) (c : CtxIdx) (o : Obs U) : NetsKept s (s.report o) c where
  mem _ hd := ⟨hd, rfl⟩
  other _ hd _ := hd

theorem PktsInv.nodup {ex : Option CtxIdx} (h : PktsInv s ex) : s.usedCtxs.Nodup :=
  (List.nodup_append.1 (h.partition.nodup_iff.2 (List.nodup_finRange _))).1

theorem RecvDone.netsKept {ok : Bool} (h : RecvDone s c s' ok) (hnodup : s.usedCtxs.Nodup) :
    NetsKept s s' c := by
  cases h with
  | refused hq => exact hq.netsKept c
  | connect hrcvd hq usr hm => exact (hq.netsKept c).trans hm.netsKept
  | acted hrcvd hq ht hq' =>
    exact ((hq.netsKept c).trans (netsKept_report _ c _)).trans (hq'.netsKept c)
  | disconnect hrcvd hq ht hcl =>
    have hcl := hcl.netsKept (hq.used.nodup_iff.2 hnodup)
    exact ((hq.netsKept c).trans (netsKept_report _ c _)).trans hcl

/-- Between two handles, every context in use has a handle of its own. -/
structure RunInv (cfg : RunCfg) (s : State σ U) : Prop extends PktsInv s none where
  nets : ∀ c ∈ s.usedCtxs, (s.ctxs c).net ≠ cfg.listenNet ∧ some (s.ctxs c).net ≠ cfg.loopbNet
  inj : ∀ c ∈ s.usedCtxs, ∀ d ∈ s.usedCtxs, (s.ctxs c).net = (s.ctxs d).net → c = d

theorem runInv_init (cfg : RunCfg) (core : σ) : RunInv cfg (clCtxInit core : State σ U) where
  toPktsInv := pktsInv_init core
  nets _ h := nomatch h
  inj _ h := nomatch h

theorem RunInv.kept {cfg : RunCfg} (h : RunInv cfg s) (hinv : PktsInv s' none)
    (hk : NetsKept s s' c) : RunInv cfg s' where
  toPktsInv := hinv
  nets d hd := by
    obtain ⟨hd, he⟩ := hk.mem d hd
    rw [he]
    exact h.nets d hd
  inj d hd e he heq := by
    obtain ⟨hd, hnet⟩ := hk.mem d hd
    obtain ⟨he, hnet'⟩ := hk.mem e he
    exact h.inj d hd e he (hnet.symm.trans (heq.trans hnet'))

theorem netClCtxFind_eq {cfg : RunCfg} (h : RunInv cfg s) (hc : c ∈ s.usedCtxs) :
    netClCtxFind s (s.ctxs c).net = some c := by
  cases hfind : netClCtxFind s (s.ctxs c).net with
  | none =>
    have hnone := List.find?_eq_none.1 hfind c hc
    exact absurd (decide_eq_true rfl) hnone
  | some d =>
    have hfound := List.find?_some hfind
    have hnet : (s.ctxs d).net = (s.ctxs c).net := of_decide_eq_true hfound
    rw [h.inj d (mem_of_netClCtxFind hfind) c hc hnet]

/-! ## What becomes of an iteration -/

variable {cfg : RunCfg}

theorem RunInv.calm (h : RunInv cfg s) (hq : Calm s s') : RunInv cfg s' :=
  h.kept (h.toPktsInv.calm hq) (hq.netsKept 0)

theorem calm_appCalls (cbs : MsgCbs σ U A) (as : List A) (s : State σ U) :
    Calm s (appCalls cbs s as) := by
  induction as generalizing s with
  | nil => exact Calm.refl s
  | cons a as ih => exact (calm_afterCb ..).trans (ih _)

theorem RunInv.kaClose (h : RunInv cfg s) (cbs : MsgCbs σ U A) (now : UInt32)
    (hc : c ∈ s.usedCtxs) : RunInv cfg (kaClose cbs now s c) := by
  have hkept : NetsKept s (Pkts.kaClose cbs now s c) c := by
    unfold Pkts.kaClose
    split
    · have hq := calm_setCtx s c { s.ctxs c with nwConnError := false, networkClose := false }
      exact (hq.netsKept c).trans ((closed_doNetCloseRx cbs _ c _).netsKept h.nodup)
    · exact (Calm.refl s).netsKept c
  exact h.kept (h.toPktsInv.kaClose cbs now hc) hkept

theorem RunInv.kaSequence (h : RunInv cfg s) (cbs : MsgCbs σ U A) (now : UInt32) :
    RunInv cfg (kaSequence cbs s now) :=
  kaSequence_induction cbs now (fun _ _ hc h => h.kaClose cbs now hc) h.nodup h

theorem RunInv.swept (h : RunInv cfg s) (cbs : MsgCbs σ U A) (r : Round A) :
    RunInv cfg (swept cbs s r) :=
  (h.calm (calm_appCalls cbs r.before s)).kaSequence cbs r.now

theorem RunInv.serveClient (h : RunInv cfg s) (cbs : MsgCbs σ U A) (r : Round A)
    (hc : c ∈ s.usedCtxs) :
    ∃ s', serveHandle cbs cfg r s (s.ctxs c).net = some (s', true) ∧
      procNetDataRecv cbs s (s.ctxs c).net (r.rx (s.ctxs c).net) = some s' ∧ RunInv cfg s' ∧
      NetsKept s s' c := by
  obtain ⟨hlisten, hloopb⟩ := h.nets c hc
  have hfind := netClCtxFind_eq h hc
  obtain ⟨s', hrecv, hkept⟩ : ∃ s', procNetDataRecv cbs s (s.ctxs c).net (r.rx (s.ctxs c).net) =
      some s' ∧ NetsKept s s' c := by
    simp only [procNetDataRecv, hfind]
    cases r.rx (s.ctxs c).net with
    | none => exact ⟨_, rfl, (closed_doNetCloseRx cbs s c true).netsKept h.nodup⟩
    | some rx =>
      have hused := h.used c hc (by simp)
      have hdone := recvDone_processRecv cbs hc hused rx
      have hkept := hdone.netsKept h.nodup
      refine ⟨_, rfl, ?_⟩
      split
      · exact hkept
      · exact hkept.trans ((closed_doNetCloseRx cbs _ c true).netsKept
          (h.recvDone hc hdone).inv.nodup)
  refine ⟨s', ?_, hrecv, h.kept (h.toPktsInv.procNetDataRecv cbs hrecv) hkept, hkept⟩
  unfold serveHandle
  rw [if_neg hlisten, if_neg hloopb, hrecv]
  rfl

/-- What becomes of an iteration: the function does not return exactly if `ok`, and then the iteration ends as
the turns of the clients do. -/
def Outcome (cfg : RunCfg) (res : Option (State σ U × Bool)) (ok : Prop) (served : Option (State σ U)) :
    Prop :=
  ∃ s' returned, res = some (s', returned) ∧ RunInv cfg s' ∧ (returned = false ↔ ok) ∧
    (returned = false → served = some s')

theorem outcome_cons {cbs : MsgCbs σ U A} {r : Round A} {net : Int} {nets : List Int} {ok : Prop}
    {served : Option (State σ U)} (hs : serveHandle cbs cfg r s net = some (s', true))
    (h : Outcome cfg (acceptAndRecv cbs cfg r nets s') ok served) :
    Outcome cfg (acceptAndRecv cbs cfg r (net :: nets) s) ok served := by
  simp only [acceptAndRecv, hs]
  exact h

theorem outcome_stop {cbs : MsgCbs σ U A} {r : Round A} {net : Int} {nets : List Int} {ok : Prop}
    {served : Option (State σ U)} (hs : serveHandle cbs cfg r s net = some (s', false))
    (hinv : RunInv cfg s') (hok : ¬ok) :
    Outcome cfg (acceptAndRecv cbs cfg r (net :: nets) s) ok served := by
  refine ⟨s', true, ?_, hinv, iff_of_false Bool.false_ne_true.symm hok,
    fun hret => absurd hret.symm Bool.false_ne_true⟩
  simp only [acceptAndRecv, hs]

theorem outcome_clients (cbs : MsgCbs σ U A) (r : Round A) {cs : List CtxIdx} :
    ∀ {s : State σ U}, RunInv cfg s → cs.Nodup → (∀ c ∈ cs, c ∈ s.usedCtxs) →
      Outcome cfg (acceptAndRecv cbs cfg r (cs.map fun c => (s.ctxs c).net) s) True
        (serveClients cbs r (cs.map fun c => (s.ctxs c).net) s) := by
  induction cs with
  | nil => exact fun h _ _ => ⟨_, _, rfl, h, iff_of_true rfl trivial, fun _ => rfl⟩
  | cons c cs ih =>
    intro s h hnodup hused
    obtain ⟨hnot, hnodup⟩ := List.nodup_cons.1 hnodup
    obtain ⟨s', hs, hrecv, h', hkept⟩ := h.serveClient cbs r (hused c List.mem_cons_self)
    have hused' : ∀ d ∈ cs, d ∈ s'.usedCtxs := fun d hd =>
      hkept.other d (hused d (List.mem_cons_of_mem _ hd)) fun he => hnot (he ▸ hd)
    have hsame : (cs.map fun d => (s'.ctxs d).net) = cs.map fun d => (s.ctxs d).net :=
      List.map_congr_left fun d hd => (hkept.mem d (hused' d hd)).2
    have hrest := ih h' hnodup hused'
    rw [hsame] at hrest
    have hserved : serveClients cbs r ((c :: cs).map fun d => (s.ctxs d).net) s =
        serveClients cbs r (cs.map fun d => (s.ctxs d).net) s' := by
      rw [serveClients, List.map_cons, List.foldlM_cons, hrecv]
      rfl
    rw [hserved]
    exact outcome_cons hs hrest

theorem outcome_loopb (cbs : MsgCbs σ U A) (r : Round A) (h : RunInv cfg s) {nets : List Int}
    {loopb : List Int} {served : Option (State σ U)} (hloopb : ∀ net ∈ loopb, some net = cfg.loopbNet)
    (hrest : Outcome cfg (acceptAndRecv cbs cfg r nets s) True served) :
    Outcome cfg (acceptAndRecv cbs cfg r (loopb ++ nets) s) (loopb ≠ [] → 0 < r.loopback) served := by
  induction loopb with
  | nil =>
    have htrue : (([] : List Int) ≠ [] → 0 < r.loopback) = True := by simp
    rw [htrue]
    exact hrest
  | cons net loopb ih =>
    have hnet := hloopb net List.mem_cons_self
    have hserve : serveHandle cbs cfg r s net = some (s, decide (0 < r.loopback)) := by
      unfold serveHandle
      rw [if_neg fun he => cfg.ne (by rw [← hnet, he]), if_pos hnet]
    by_cases hpos : 0 < r.loopback
    · rw [decide_eq_true hpos] at hserve
      have hrec := ih fun n hn => hloopb n (List.mem_cons_of_mem _ hn)
      have htrue : (loopb ≠ [] → 0 < r.loopback) = (net :: loopb ≠ [] → 0 < r.loopback) := by
        simp [hpos]
      rw [htrue] at hrec
      exact outcome_cons hserve hrec
    · rw [decide_eq_false hpos] at hserve
      exact outcome_stop hserve h fun hok => hpos (hok (List.cons_ne_nil _ _))

theorem RunInv.acceptCtx (h : RunInv cfg s) (r : Round A) (haccepted : r.accepted ≠ -1)
    (hlisten : r.accepted ≠ cfg.listenNet) (hloopb : some r.accepted ≠ cfg.loopbNet)
    (hfresh : ∀ c ∈ s.usedCtxs, (s.ctxs c).net ≠ r.accepted) :
    ∃ s', acceptCtx s r.accepted cfg.waitSecs r.acceptNow = (s', decide (s.freeCtxs ≠ [])) ∧
      RunInv cfg s' ∧
      ∀ c ∈ s.usedCtxs, c ∈ s'.usedCtxs ∧ (s'.ctxs c).net = (s.ctxs c).net := by
  have hinv := h.toPktsInv.acceptCtx r.accepted cfg.waitSecs r.acceptNow
  unfold Pkts.acceptCtx at hinv ⊢
  cases hlist : s.freeCtxs with
  | nil => exact ⟨s, rfl, h, fun c hc => ⟨hc, rfl⟩⟩
  | cons c rest =>
    rw [hlist] at hinv
    simp only [if_neg haccepted] at hinv ⊢
    have hold : ∀ d ∈ s.usedCtxs, d ≠ c := fun d hd he =>
      h.not_free hd (by rw [he, hlist]; exact List.mem_cons_self)
    generalize hs' : usedCtxsInsert (State.report (State.setCtx { s with freeCtxs := rest } c
      { s.ctxs c with net := r.accepted, timeout := cfg.waitSecs + r.acceptNow }) (.opened c)) c =
        s' at hinv ⊢
    have hused : s'.usedCtxs.Perm (c :: s.usedCtxs) := by
      rw [← hs']
      exact clCtxTimeoutInsert_perm ..
    have hnew : (s'.ctxs c).net = r.accepted := by
      rw [← hs']
      simp [usedCtxsInsert, State.report, State.setCtx]
    have hother : ∀ d ∈ s.usedCtxs, (s'.ctxs d).net = (s.ctxs d).net := by
      intro d hd
      rw [← hs']
      simp [usedCtxsInsert, State.report, State.setCtx, hold d hd]
    refine ⟨s', rfl, ⟨hinv, fun d hd => ?_, fun d hd e he heq => ?_⟩, fun d hd =>
      ⟨hused.mem_iff.2 (List.mem_cons_of_mem _ hd), hother d hd⟩⟩
    · rcases List.mem_cons.1 (hused.mem_iff.1 hd) with rfl | hd
      · rw [hnew]
        exact ⟨hlisten, hloopb⟩
      · rw [hother d hd]
        exact h.nets d hd
    · rcases List.mem_cons.1 (hused.mem_iff.1 hd) with rfl | hd <;>
        rcases List.mem_cons.1 (hused.mem_iff.1 he) with rfl | he
      · rfl
      · rw [hnew, hother e he] at heq
        exact absurd heq.symm (hfresh e he)
      · rw [hnew, hother d hd] at heq
        exact absurd heq (hfresh d hd)
      · rw [hother d hd, hother e he] at heq
        exact h.inj d hd e he heq

theorem length_usedCtxs (h : RunInv cfg s) : s.usedCtxs.length ≤ maxNwconn := by
  have hlen := h.partition.length_eq
  rw [List.length_append, List.length_finRange] at hlen
  omega

theorem recvHvec_filter (h : RunInv cfg s) (ready : Int → Bool) :
    (cfg.listenNet :: (cfg.loopbNet.toList ++ recvHvecLoad s (maxNwconn + 1))).filter ready =
      (if ready cfg.listenNet then [cfg.listenNet] else []) ++ (cfg.loopbNet.toList.filter ready ++
        readyNets s ready) := by
  have hload : recvHvecLoad s (maxNwconn + 1) = s.usedCtxs.map fun c => (s.ctxs c).net := by
    unfold recvHvecLoad
    rw [List.take_of_length_le (Nat.le_succ_of_le (length_usedCtxs h))]
  rw [hload, List.filter_cons, List.filter_append, List.filter_map, readyNets]
  split <;> rfl

theorem freeCtxs_kaClose (cbs : MsgCbs σ U A) (now : UInt32) (h : s.freeCtxs ≠ []) (c : CtxIdx) :
    (kaClose cbs now s c).freeCtxs ≠ [] := by
  unfold kaClose
  split
  · rw [(closed_doNetCloseRx cbs _ c _).free]
    exact List.cons_ne_nil _ _
  · exact h

/-- The sweep leaves a free context exactly if there was one, or there is a connection to close. -/
theorem freeCtxs_kaSequence (cbs : MsgCbs σ U A) (s : State σ U) (now : UInt32) :
    (kaSequence cbs s now).freeCtxs ≠ [] ↔ HasSlot s now := by
  have hkeep : ∀ (cs : List CtxIdx) (s : State σ U), s.freeCtxs ≠ [] →
      (cs.foldl (kaClose cbs now) s).freeCtxs ≠ [] := by
    intro cs
    induction cs with
    | nil => exact fun _ h => h
    | cons c cs ih => exact fun s h => ih _ (freeCtxs_kaClose cbs now h c)
  have hloop : ∀ (cs : List CtxIdx) (s : State σ U), (cs.foldl (kaClose cbs now) s).freeCtxs ≠ [] ↔
      s.freeCtxs ≠ [] ∨ ∃ c ∈ cs, (s.ctxs c).expired now := by
    intro cs
    induction cs with
    | nil => simp
    | cons c cs ih =>
      intro s
      rw [List.foldl_cons]
      by_cases hexp : (s.ctxs c).expired now
      · refine iff_of_true (hkeep _ _ ?_) (.inr ⟨c, List.mem_cons_self, hexp⟩)
        unfold kaClose
        rw [if_pos hexp, (closed_doNetCloseRx cbs _ c _).free]
        exact List.cons_ne_nil _ _
      · -- nothing happens to this one
        have hsame : kaClose cbs now s c = s := if_neg hexp
        rw [hsame, ih]
        simp [hexp]
  exact hloop s.usedCtxs s

theorem slotFree_iff (cbs : MsgCbs σ U A) (cfg : RunCfg) (s : State σ U) {r : Round A} {ready : Int → Bool}
    (hmon : r.ioMon = some ready) : SlotFree cbs cfg s r ↔
      (ready cfg.listenNet → (swept cbs s r).freeCtxs ≠ []) ∧
        (cfg.loopbNet.toList.filter ready ≠ [] → 0 < r.loopback) := by
  unfold SlotFree swept
  rw [hmon, freeCtxs_kaSequence]
  cases cfg.loopbNet with
  | none => simp
  | some net => cases hready : ready net <;> simp [hready]

theorem outcome_ready (cbs : MsgCbs σ U A) (r : Round A) (h : RunInv cfg s') {cs : List CtxIdx}
    (hnodup : cs.Nodup) (hkept : ∀ c ∈ cs, c ∈ s'.usedCtxs ∧ (s'.ctxs c).net = (s.ctxs c).net)
    (ready : Int → Bool) :
    Outcome cfg
      (acceptAndRecv cbs cfg r
        (cfg.loopbNet.toList.filter ready ++ cs.map fun c => (s.ctxs c).net) s')
      (cfg.loopbNet.toList.filter ready ≠ [] → 0 < r.loopback)
      (serveClients cbs r (cs.map fun c => (s.ctxs c).net) s') := by
  have hclients := outcome_clients cbs r h hnodup fun c hc => (hkept c hc).1
  rw [List.map_congr_left fun c hc => (hkept c hc).2] at hclients
  refine outcome_loopb cbs r h (fun net hnet => ?_) hclients
  exact (Option.mem_toList.1 (List.mem_filter.1 hnet).1).symm

theorem Outcome.iff {res : Option (State σ U × Bool)} {ok ok' : Prop} {served : Option (State σ U)}
    (h : Outcome cfg res ok served) (hok : ok ↔ ok') : Outcome cfg res ok' served := by
  obtain ⟨s', out, hr, hinv, hret, hserved⟩ := h
  exact ⟨s', out, hr, hinv, hret.trans hok, hserved⟩

theorem outcome_serverRound (cbs : MsgCbs σ U A) (h : RunInv cfg s) {r : Round A}
    (hn : NetOk cbs cfg s r) {ready : Int → Bool} (hmon : r.ioMon = some ready) :
    Outcome cfg (serverRound cbs cfg s r) (SlotFree cbs cfg s r)
      (serveClients cbs r (readyNets (swept cbs s r) ready)
        (admitted cfg (appCalls cbs (swept cbs s r) r.during) r ready)) := by
  have hswept := h.swept cbs r
  have hfresh := hn.fresh
  have hslot := slotFree_iff cbs cfg s hmon
  unfold serverRound
  simp only [hmon]
  generalize swept cbs s r = s₀ at hswept hfresh hslot ⊢
  have hcalm := calm_appCalls cbs r.during s₀
  have h₁ := hswept.calm hcalm
  have hfree : (appCalls cbs s₀ r.during).freeCtxs = s₀.freeCtxs := hcalm.free
  generalize appCalls cbs s₀ r.during = s₁ at hcalm h₁ hfree ⊢
  have hnodup := hswept.nodup.filter fun c => ready (s₀.ctxs c).net
  have hkept : ∀ c ∈ s₀.usedCtxs, c ∈ s₁.usedCtxs ∧ (s₁.ctxs c).net = (s₀.ctxs c).net :=
    fun c hc => ⟨hcalm.used.mem_iff.2 hc, hcalm.net c hc⟩
  rw [recvHvec_filter hswept ready, admitted]
  by_cases hready : ready cfg.listenNet
  · rw [if_pos hready, if_pos hready, List.singleton_append]
    obtain ⟨s₂, haccept, h₂, hkept₂⟩ := h₁.acceptCtx r hn.accepted hn.listen hn.loopb
      fun c hc => by
        have hc := hcalm.used.mem_iff.1 hc
        rw [hcalm.net c hc]
        exact hfresh c hc
    have hserve : serveHandle cbs cfg r s₁ cfg.listenNet = some (s₂, decide (s₁.freeCtxs ≠ [])) := by
      unfold serveHandle
      rw [if_pos rfl, haccept]
    rw [hfree] at hserve
    rw [haccept]
    by_cases hslots : s₀.freeCtxs = []
    · rw [decide_eq_false (not_not.2 hslots)] at hserve
      exact outcome_stop hserve h₂ fun hok => (hslot.1 hok).1 hready hslots
    · rw [decide_eq_true hslots] at hserve
      refine outcome_cons hserve ((outcome_ready cbs r h₂ hnodup (fun c hc => ?_) ready).iff ?_)
      · obtain ⟨hc, he⟩ := hkept c (List.mem_of_mem_filter hc)
        exact ⟨(hkept₂ c hc).1, (hkept₂ c hc).2.trans he⟩
      · rw [hslot]
        exact (and_iff_right fun _ => hslots).symm
  · rw [if_neg hready, if_neg hready, List.nil_append]
    refine (outcome_ready cbs r h₁ hnodup (fun c hc => hkept c (List.mem_of_mem_filter hc))
      ready).iff ?_
    rw [hslot]
    exact (and_iff_right fun hr => absurd hr hready).symm

theorem serverRound_spec (cbs : MsgCbs σ U A) (h : RunInv cfg s) {r : Round A}
    (hn : NetOk cbs cfg s r) :
    (∃ s' out, serverRound cbs cfg s r = some (s', out) ∧ RunInv cfg s') ∧
      (Survives cbs cfg s r ↔ SlotFree cbs cfg s r) := by
  cases hmon : r.ioMon with
  | none =>
    have hno : ¬SlotFree cbs cfg s r := by
      unfold SlotFree
      rw [hmon]
      exact id
    have hround : serverRound cbs cfg s r = some (swept cbs s r, true) := by
      unfold serverRound
      simp only [hmon]
    refine ⟨⟨_, _, hround, h.swept cbs r⟩, iff_of_false (fun hs => ?_) hno⟩
    obtain ⟨ready, -, hready, -⟩ := hs
    cases hmon.symm.trans hready
  | some ready =>
    obtain ⟨s', returned, hround, hinv, hok, hserved⟩ := outcome_serverRound cbs h hn hmon
    refine ⟨⟨s', returned, hround, hinv⟩, ?_⟩
    rw [← hok]
    constructor
    · rintro ⟨-, s'', -, hround', -⟩
      exact congrArg Prod.snd (Option.some.inj (hround.symm.trans hround'))
    · rintro rfl
      exact ⟨ready, s', hmon, hround, hserved rfl⟩

/-! ## Runs -/

def runCfg : RunCfg := ⟨1, none, 30, nofun⟩

def arrival (net : Int) : Round Unit where
  before := []
  during := []
  now := 0
  ioMon := some (· == 1)
  accepted := net
  acceptNow := 0
  loopback := 1
  rx _ := none

end SimpleLink.Server.Pkts
