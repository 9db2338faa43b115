import Mathlib.Data.List.FinRange
import SimpleLink.Lib.Run
import SimpleLink.Server.Contexts

/-!
# The states of a connection

`ConnState.Step` is what a connection goes through, from the point of view of the core:
it is opened, its first packet is a CONNECT that the core accepts or not, then packets are
acted upon, and when it is closed the core hears of it if it had accepted it. A context
is free in between.

`ConnLaw` says that the library does this with every context, and that the contexts are
divided between the two lists.
-/

namespace SimpleLink.Server.Pkts

open Lib Mqtt

/-! ## The states -/

inductive ConnState (U : Type) where
  | free
  | opened
  | refused
  | connected (usr : U)
  /-- Closed, and the core is yet to hear of it. -/
  | closing (usr : U)
  deriving DecidableEq

variable {σ U A : Type}

def Obs.ctx : Obs U → CtxIdx
  | .opened c => c
  | .connect c _ => c
  | .acted c _ => c
  | .closed c => c
  | .notified c _ _ => c

inductive ConnState.Step : ConnState U → Obs U → ConnState U → Prop where
  | opened (c : CtxIdx) : Step .free (.opened c) .opened
  | accept (c : CtxIdx) (usr : U) : Step .opened (.connect c (some usr)) (.connected usr)
  | refuse (c : CtxIdx) : Step .opened (.connect c none) .refused
  | act (c : CtxIdx) (usr : U) (t : UInt8) (h : t ≠ mqttConnect) :
      Step (.connected usr) (.acted c t) (.connected usr)
  | close (c : CtxIdx) : Step .opened (.closed c) .free
  | closeRefused (c : CtxIdx) : Step .refused (.closed c) .free
  | closeConnected (c : CtxIdx) (usr : U) : Step (.connected usr) (.closed c) (.closing usr)
  | notify (c : CtxIdx) (usr : U) (due2err : Bool) :
      Step (.closing usr) (.notified c usr due2err) .free

/-- Context `c` goes through the states of a connection in what was done. -/
inductive Trace (c : CtxIdx) : ConnState U → List (Obs U) → ConnState U → Prop where
  | nil (st : ConnState U) : Trace c st [] st
  | other {st st' : ConnState U} {o : Obs U} {os : List (Obs U)} (h : o.ctx ≠ c)
      (ht : Trace c st os st') : Trace c st (o :: os) st'
  | step {st st₁ st' : ConnState U} {o : Obs U} {os : List (Obs U)} (h : o.ctx = c)
      (hs : ConnState.Step st o st₁) (ht : Trace c st₁ os st') : Trace c st (o :: os) st'

def connState (s : State σ U) (c : CtxIdx) : ConnState U :=
  if c ∈ s.freeCtxs then .free
  else
    match (s.ctxs c).usr with
    | some usr => .connected usr
    | none => if (s.ctxs c).rcvdConnMsg then .refused else .opened

theorem Trace.append {c : CtxIdx} {st st' st'' : ConnState U} {os os' : List (Obs U)}
    (h : Trace c st os st') (h' : Trace c st' os' st'') : Trace c st (os ++ os') st'' := by
  induction h with
  | nil st => exact h'
  | other hne _ ih => exact .other hne (ih h')
  | step hc hs _ ih => exact .step hc hs (ih h')

/-! ### What follows from them -/

/-- The connections of a context that were accepted, less those that the core heard the end of. -/
def acceptances (c : CtxIdx) (os : List (Obs U)) : Nat :=
  os.countP fun
    | .connect d (some _) => d = c
    | _ => false

def notifications (c : CtxIdx) (os : List (Obs U)) : Nat :=
  os.countP fun
    | .notified d _ _ => d = c
    | _ => false

/-- The core has accepted the connection, and has not heard of its end. -/
def ConnState.known : ConnState U → Nat
  | .connected _ => 1
  | .closing _ => 1
  | _ => 0

theorem Trace.balance {c : CtxIdx} {st st' : ConnState U} {os : List (Obs U)}
    (h : Trace c st os st') : st.known + acceptances c os = st'.known + notifications c os := by
  induction h with
  | nil st => rfl
  | @other st st' o os hne _ ih =>
    have ha : acceptances c (o :: os) = acceptances c os := by
      unfold acceptances
      rw [List.countP_cons_of_neg]
      cases o with
      | connect d usr => cases usr <;> simp [Obs.ctx] at hne ⊢; exact hne
      | _ => simp
    have hn : notifications c (o :: os) = notifications c os := by
      unfold notifications
      rw [List.countP_cons_of_neg]
      cases o <;> simp [Obs.ctx] at hne ⊢; exact hne
    rw [ha, hn, ih]
  | @step st st₁ st' o os hc hs _ ih =>
    subst hc
    have ha : acceptances o.ctx (o :: os) = acceptances o.ctx os + acceptances o.ctx [o] := by
      unfold acceptances
      rw [List.countP_cons, List.countP_singleton]
    have hn : notifications o.ctx (o :: os) = notifications o.ctx os + notifications o.ctx [o] := by
      unfold notifications
      rw [List.countP_cons, List.countP_singleton]
    have hone : st.known + acceptances o.ctx [o] = st₁.known + notifications o.ctx [o] := by
      cases hs <;> simp [ConnState.known, acceptances, notifications, Obs.ctx]
    omega

theorem Trace.split {c : CtxIdx} {os os' : List (Obs U)} {st st' : ConnState U} :
    Trace c st (os ++ os') st' → ∃ st₁, Trace c st os st₁ ∧ Trace c st₁ os' st' := by
  induction os generalizing st with
  | nil => exact fun h => ⟨st, .nil st, h⟩
  | cons o os ih =>
    intro h
    cases h with
    | other hne ht =>
      obtain ⟨st₁, hpre, hpost⟩ := ih ht
      exact ⟨st₁, .other hne hpre, hpost⟩
    | step hc hs ht =>
      obtain ⟨st₁, hpre, hpost⟩ := ih ht
      exact ⟨st₁, .step hc hs hpre, hpost⟩

theorem Trace.connected {c : CtxIdx} {st st' : ConnState U} {os : List (Obs U)}
    (h : Trace c st os st') {usr : U} (hst : st' = .connected usr) :
    st = .connected usr ∧ .closed c ∉ os ∨
      ∃ pre post, os = pre ++ .connect c (some usr) :: post ∧ .closed c ∉ post := by
  induction h with
  | nil st => exact .inl ⟨hst, List.not_mem_nil⟩
  | @other st st' o os hne _ ih =>
    rcases ih hst with ⟨he, hnot⟩ | ⟨pre, post, rfl, hnot⟩
    · refine .inl ⟨he, fun hmem => ?_⟩
      rcases List.mem_cons.1 hmem with rfl | hmem
      · exact hne rfl
      · exact hnot hmem
    · exact .inr ⟨o :: pre, post, rfl, hnot⟩
  | @step st st₁ st' o os hc hs _ ih =>
    rcases ih hst with ⟨rfl, hnot⟩ | ⟨pre, post, rfl, hnot⟩
    · cases hs with
      | accept d =>
        obtain rfl : d = c := hc
        exact .inr ⟨[], os, rfl, hnot⟩
      | act d _ t _ =>
        refine .inl ⟨rfl, fun hmem => ?_⟩
        rcases List.mem_cons.1 hmem with he | hmem
        · cases he
        · exact hnot hmem
    · exact .inr ⟨o :: pre, post, rfl, hnot⟩

/-- A packet other than CONNECT is acted upon in a connection that was accepted and not closed. -/
theorem Trace.acted {c : CtxIdx} {st' : ConnState U} {pre post : List (Obs U)} {t : UInt8}
    (h : Trace c .free (pre ++ .acted c t :: post) st') :
    ∃ pre₁ usr pre₂, pre = pre₁ ++ .connect c (some usr) :: pre₂ ∧ .closed c ∉ pre₂ := by
  obtain ⟨st₁, hpre, hpost⟩ := h.split
  cases hpost with
  | other hne _ => exact absurd rfl hne
  | step _ hs _ =>
    cases hs with
    | act _ usr _ _ =>
      rcases hpre.connected rfl with ⟨he, _⟩ | ⟨pre₁, pre₂, he, hnot⟩
      · cases he
      · exact ⟨pre₁, usr, pre₂, he, hnot⟩

/-! ## What does not change the state of a connection -/

structure Calm (s s' : State σ U) : Prop where
  log : s'.log = s.log
  free : s'.freeCtxs = s.freeCtxs
  used : s'.usedCtxs.Perm s.usedCtxs
  ctx : ∀ c, (s'.ctxs c).usr = (s.ctxs c).usr ∧ (s'.ctxs c).rcvdConnMsg = (s.ctxs c).rcvdConnMsg
  net : ∀ c ∈ s.usedCtxs, (s'.ctxs c).net = (s.ctxs c).net

theorem Calm.refl (s : State σ U) : Calm s s :=
  ⟨rfl, rfl, .refl _, fun _ => ⟨rfl, rfl⟩, fun _ _ => rfl⟩

theorem Calm.trans {s s' s'' : State σ U} (h : Calm s s') (h' : Calm s' s'') : Calm s s'' where
  log := h'.log.trans h.log
  free := h'.free.trans h.free
  used := h'.used.trans h.used
  ctx c := ⟨(h'.ctx c).1.trans (h.ctx c).1, (h'.ctx c).2.trans (h.ctx c).2⟩
  net c hc := (h'.net c (h.used.mem_iff.2 hc)).trans (h.net c hc)

theorem calm_setCtx (s : State σ U) (c : CtxIdx) (x : ClientCtx U)
    (husr : x.usr = (s.ctxs c).usr := by rfl)
    (hrcvd : x.rcvdConnMsg = (s.ctxs c).rcvdConnMsg := by rfl)
    (hnet : x.net = (s.ctxs c).net := by rfl) : Calm s (s.setCtx c x) where
  log := rfl
  free := rfl
  used := .refl _
  ctx d := by
    by_cases hd : d = c
    · subst hd
      simp [State.setCtx, husr, hrcvd]
    · simp [State.setCtx, hd]
  net d _ := by
    by_cases hd : d = c
    · subst hd
      simp [State.setCtx, hnet]
    · simp [State.setCtx, hd]

theorem calm_afterCb {α : Type} (s : State σ U) (r : CbRes σ α) : Calm s (afterCb s r) := by
  have hloop : ∀ (cs : List CtxIdx) (s : State σ U),
      Calm s (cs.foldl (fun s c => doNetCloseTx s c true) s) := by
    intro cs
    induction cs with
    | nil => exact Calm.refl
    | cons c cs ih => exact fun s => (calm_setCtx s c _).trans (ih _)
  have hcore : Calm s { s with core := r.core } :=
    ⟨rfl, rfl, .refl _, fun _ => ⟨rfl, rfl⟩, fun _ _ => rfl⟩
  exact hcore.trans (hloop _ _)

theorem calm_clCtxSend (s : State σ U) (c : CtxIdx) (sent : Bool) : Calm s (clCtxSend s c sent) := by
  unfold clCtxSend
  split
  · exact Calm.refl s
  · exact calm_setCtx ..

theorem calm_vhMsgSend (s : State σ U) (c : CtxIdx) (sent : Bool) : Calm s (vhMsgSend s c sent) := by
  unfold vhMsgSend
  split
  · exact Calm.refl s
  · exact calm_clCtxSend ..

theorem clCtxTimeoutInsert_perm (ctxs : CtxIdx → ClientCtx U) (c : CtxIdx) (cs : List CtxIdx) :
    (clCtxTimeoutInsert ctxs cs c).Perm (c :: cs) := by
  induction cs with
  | nil => exact .refl _
  | cons d cs ih =>
    unfold clCtxTimeoutInsert
    split
    · exact .refl _
    · exact (ih.cons d).trans (.swap ..)

theorem calm_rxTimeoutUpdate (s : State σ U) {c : CtxIdx} (hc : c ∈ s.usedCtxs) (now : UInt32) :
    Calm s (rxTimeoutUpdate s c now) := by
  unfold rxTimeoutUpdate
  split
  · exact Calm.refl s
  · have hset : Calm s (s.setCtx c (clCtxTimeoutUpdate (s.ctxs c) now)) := by
      apply calm_setCtx
      · unfold clCtxTimeoutUpdate
        split <;> rfl
      · unfold clCtxTimeoutUpdate
        split <;> rfl
      · unfold clCtxTimeoutUpdate
        split <;> rfl
    refine hset.trans ⟨rfl, rfl, ?_, fun _ => ⟨rfl, rfl⟩, fun _ _ => rfl⟩
    exact (clCtxTimeoutInsert_perm _ _ _).trans (List.perm_cons_erase hc).symm

/-! ## The invariant -/

/-- Every context has gone through the states of a connection. A CONNECT that was refused leaves its
context to be closed (`ex`). -/
structure PktsInv (s : State σ U) (ex : Option CtxIdx) : Prop where
  partition : (s.usedCtxs ++ s.freeCtxs).Perm (List.finRange maxNwconn)
  free : ∀ c ∈ s.freeCtxs, (s.ctxs c).usr = none ∧ (s.ctxs c).rcvdConnMsg = false
  used : ∀ c ∈ s.usedCtxs, ex ≠ some c → (s.ctxs c).rcvdConnMsg = (s.ctxs c).usr.isSome
  states : ∀ c, Trace c .free s.log (connState s c)

theorem pktsInv_init (core : σ) : PktsInv (clCtxInit core : State σ U) none where
  partition := List.reverse_perm _
  free _ _ := ⟨rfl, rfl⟩
  used _ h := nomatch h
  states c := by
    have hfree : c ∈ (clCtxInit core : State σ U).freeCtxs :=
      List.mem_reverse.2 (List.mem_finRange c)
    unfold connState
    rw [if_pos hfree]
    exact .nil _

variable {s s' : State σ U} {c : CtxIdx} {ex : Option CtxIdx}

theorem PktsInv.not_free (h : PktsInv s ex) (hc : c ∈ s.usedCtxs) : c ∉ s.freeCtxs := by
  have hnodup : (s.usedCtxs ++ s.freeCtxs).Nodup := h.partition.nodup_iff.2 (List.nodup_finRange _)
  exact fun hf => (List.nodup_append.1 hnodup).2.2 c hc c hf rfl

theorem connState_congr (hfree : s'.freeCtxs = s.freeCtxs)
    (hctx : (s'.ctxs c).usr = (s.ctxs c).usr ∧ (s'.ctxs c).rcvdConnMsg = (s.ctxs c).rcvdConnMsg) :
    connState s' c = connState s c := by
  unfold connState
  rw [hfree, hctx.1, hctx.2]

theorem PktsInv.calm (h : PktsInv s ex) (hq : Calm s s') : PktsInv s' ex where
  partition := by
    rw [hq.free]
    exact (hq.used.append_right _).trans h.partition
  free d hd := by
    rw [hq.free] at hd
    rw [(hq.ctx d).1, (hq.ctx d).2]
    exact h.free d hd
  used d hd hex := by
    rw [(hq.ctx d).1, (hq.ctx d).2]
    exact h.used d (hq.used.mem_iff.1 hd) hex
  states d := by
    rw [hq.log, connState_congr hq.free (hq.ctx d)]
    exact h.states d

/-- The state of one context in use changes, with what was done on the way. -/
structure Moved (s s' : State σ U) (c : CtxIdx) (usr : Option U) (rcvd : Bool) (net : Int)
    (out : List (Obs U)) : Prop where
  log : s'.log = s.log ++ out
  free : s'.freeCtxs = s.freeCtxs
  used : s'.usedCtxs.Perm s.usedCtxs
  self : (s'.ctxs c).usr = usr ∧ (s'.ctxs c).rcvdConnMsg = rcvd
  other : ∀ d, d ≠ c →
    (s'.ctxs d).usr = (s.ctxs d).usr ∧ (s'.ctxs d).rcvdConnMsg = (s.ctxs d).rcvdConnMsg
  own : c ∈ s.usedCtxs → (s'.ctxs c).net = net
  net : ∀ d ∈ s.usedCtxs, d ≠ c → (s'.ctxs d).net = (s.ctxs d).net

theorem Moved.calm {s'' : State σ U} {usr : Option U} {rcvd : Bool} {net : Int}
    {out : List (Obs U)} (h : Moved s s' c usr rcvd net out) (hq : Calm s' s'') :
    Moved s s'' c usr rcvd net out where
  log := hq.log.trans h.log
  free := hq.free.trans h.free
  used := hq.used.trans h.used
  self := ⟨(hq.ctx c).1.trans h.self.1, (hq.ctx c).2.trans h.self.2⟩
  other d hd := ⟨(hq.ctx d).1.trans (h.other d hd).1, (hq.ctx d).2.trans (h.other d hd).2⟩
  own hc := (hq.net c (h.used.mem_iff.2 hc)).trans (h.own hc)
  net d hu hd := (hq.net d (h.used.mem_iff.2 hu)).trans (h.net d hu hd)

theorem moved_setCtx (s : State σ U) (c : CtxIdx) (x : ClientCtx U) :
    Moved s (s.setCtx c x) c x.usr x.rcvdConnMsg x.net [] where
  log := (List.append_nil _).symm
  free := rfl
  used := .refl _
  self := by simp [State.setCtx]
  other d hd := by simp [State.setCtx, hd]
  own _ := by simp [State.setCtx]
  net d _ hd := by simp [State.setCtx, hd]

theorem Moved.setCtx {usr : Option U} {rcvd : Bool} {net : Int} {out : List (Obs U)}
    (h : Moved s s' c usr rcvd net out) (x : ClientCtx U) :
    Moved s (s'.setCtx c x) c x.usr x.rcvdConnMsg x.net out where
  log := h.log
  free := h.free
  used := h.used
  self := by simp [State.setCtx]
  other d hd := by
    simp only [State.setCtx, Function.update_of_ne hd]
    exact h.other d hd
  own _ := by simp [State.setCtx]
  net d hu hd := by
    simp only [State.setCtx, Function.update_of_ne hd]
    exact h.net d hu hd

theorem Moved.report {usr : Option U} {rcvd : Bool} {net : Int} {out : List (Obs U)}
    (h : Moved s s' c usr rcvd net out) (o : Obs U) :
    Moved s (s'.report o) c usr rcvd net (out ++ [o]) where
  log := by rw [← List.append_assoc, ← h.log]; rfl
  free := h.free
  used := h.used
  self := h.self
  other := h.other
  own := h.own
  net := h.net

theorem Trace.others {d : CtxIdx} (hd : d ≠ c) {st st' : ConnState U} {os : List (Obs U)}
    (h : Trace d st os st') {out : List (Obs U)} (hout : ∀ o ∈ out, o.ctx = c) :
    Trace d st (os ++ out) st' := by
  have hskip : ∀ out : List (Obs U), (∀ o ∈ out, o.ctx = c) → Trace d st' out st' := by
    intro out
    induction out with
    | nil => exact fun _ => .nil _
    | cons o out ih =>
      intro hout
      refine .other ?_ (ih fun o' ho' => hout o' (List.mem_cons_of_mem _ ho'))
      rw [hout o List.mem_cons_self]
      exact hd.symm
  exact h.append (hskip out hout)

theorem PktsInv.moved {usr : Option U} {rcvd : Bool} {net : Int} {out : List (Obs U)}
    (h : PktsInv s none) (hc : c ∈ s.usedCtxs) (hm : Moved s s' c usr rcvd net out)
    (hout : ∀ o ∈ out, o.ctx = c)
    (hex : ex ≠ some c → rcvd = usr.isSome)
    (hstates : Trace c (connState s c) out (connState s' c)) : PktsInv s' ex where
  partition := by
    rw [hm.free]
    exact (hm.used.append_right _).trans h.partition
  free d hd := by
    rw [hm.free] at hd
    have hdc : d ≠ c := fun he => h.not_free hc (he ▸ hd)
    rw [(hm.other d hdc).1, (hm.other d hdc).2]
    exact h.free d hd
  used d hd hd' := by
    by_cases hdc : d = c
    · subst hdc
      rw [hm.self.1, hm.self.2]
      exact hex hd'
    · rw [(hm.other d hdc).1, (hm.other d hdc).2]
      exact h.used d (hm.used.mem_iff.1 hd) nofun
  states d := by
    rw [hm.log]
    by_cases hdc : d = c
    · subst hdc
      exact (h.states d).append hstates
    · rw [connState_congr hm.free (hm.other d hdc)]
      exact (h.states d).others hdc hout

/-! ### Closing -/

def closeObs (c : CtxIdx) (usr : Option U) (due2err : Bool) : List (Obs U) :=
  match usr with
  | none => [.closed c]
  | some usr => [.closed c, .notified c usr due2err]

structure Closed (s s' : State σ U) (c : CtxIdx) (due2err : Bool) : Prop where
  log : s'.log = s.log ++ closeObs c (s.ctxs c).usr due2err
  free : s'.freeCtxs = c :: s.freeCtxs
  used : s'.usedCtxs.Perm (s.usedCtxs.erase c)
  self : (s'.ctxs c).usr = none ∧ (s'.ctxs c).rcvdConnMsg = false
  other : ∀ d, d ≠ c →
    (s'.ctxs d).usr = (s.ctxs d).usr ∧ (s'.ctxs d).rcvdConnMsg = (s.ctxs d).rcvdConnMsg
  net : ∀ d ∈ s.usedCtxs, d ≠ c → (s'.ctxs d).net = (s.ctxs d).net

theorem closed_doNetCloseRx (cbs : MsgCbs σ U A) (s : State σ U) (c : CtxIdx) (due2err : Bool) :
    Closed s (doNetCloseRx cbs s c due2err) c due2err := by
  have hnet := (moved_setCtx s c { s.ctxs c with net := -1 }).report (.closed c)
  -- the call-back is calm, then the context goes back to the free list
  have hfree : ∀ s₁ : State σ U, s₁.log = s.log ++ closeObs c (s.ctxs c).usr due2err →
      s₁.freeCtxs = s.freeCtxs → s₁.usedCtxs.Perm s.usedCtxs →
      (∀ d, d ≠ c → (s₁.ctxs d).usr = (s.ctxs d).usr ∧
        (s₁.ctxs d).rcvdConnMsg = (s.ctxs d).rcvdConnMsg) →
      (∀ d ∈ s.usedCtxs, d ≠ c → (s₁.ctxs d).net = (s.ctxs d).net) →
      Closed s (clCtxFree (usedCtxsRemove s₁ c) c) c due2err := by
    intro s₁ hlog hfree hused hctx hnets
    have hsame : ∀ d, d ≠ c → (clCtxFree (usedCtxsRemove s₁ c) c).ctxs d = s₁.ctxs d :=
      fun d hd => Function.update_of_ne hd ..
    refine ⟨hlog, congrArg (List.cons c) hfree, hused.erase c, ?_, fun d hd => ?_, fun d hu hd => ?_⟩
    · simp [clCtxFree, State.setCtx, clCtxReset]
    · rw [hsame d hd]
      exact hctx d hd
    · rw [hsame d hd]
      exact hnets d hu hd
  have husr : (((s.setCtx c { s.ctxs c with net := -1 }).report (.closed c)).ctxs c).usr =
      (s.ctxs c).usr := hnet.self.1
  unfold doNetCloseRx
  simp only
  split
  · rename_i hnone
    rw [husr] at hnone
    apply hfree
    · rw [hnone]
      rfl
    · rfl
    · exact .refl _
    · exact hnet.other
    · exact hnet.net
  · rename_i usr hsome
    rw [husr] at hsome
    have hcb := hnet.calm (calm_afterCb
      ((s.setCtx c { s.ctxs c with net := -1 }).report (.closed c))
      (cbs.onClNetClose s.core usr due2err))
    apply hfree
    · rw [show closeObs c (s.ctxs c).usr due2err = [.closed c, .notified c usr due2err] by
        rw [hsome]; rfl]
      exact (congrArg (· ++ [Obs.notified c usr due2err]) hcb.log).trans (List.append_assoc ..)
    · exact hcb.free
    · exact hcb.used
    · exact hcb.other
    · exact hcb.net

theorem ctx_closeObs {usr : Option U} {due2err : Bool} {o : Obs U}
    (h : o ∈ closeObs c usr due2err) : o.ctx = c := by
  cases usr with
  | none => rw [List.mem_singleton.1 h]; rfl
  | some usr =>
    rcases List.mem_cons.1 h with rfl | h
    · rfl
    · rw [List.mem_singleton.1 h]
      rfl

/-- A connection is closed from any state but `closing`. -/
theorem trace_closeObs (hc : c ∉ s.freeCtxs) (due2err : Bool) :
    Trace c (connState s c) (closeObs c (s.ctxs c).usr due2err) .free := by
  unfold connState
  rw [if_neg hc]
  cases (s.ctxs c).usr with
  | some usr => exact .step rfl (.closeConnected c usr) (.step rfl (.notify c usr due2err) (.nil _))
  | none =>
    simp only
    split
    · exact .step rfl (.closeRefused c) (.nil _)
    · exact .step rfl (.close c) (.nil _)

theorem PktsInv.closed (h : PktsInv s ex) (hc : c ∈ s.usedCtxs) (hex : ∀ d, d ≠ c → ex ≠ some d)
    {due2err : Bool} (hcl : Closed s s' c due2err) : PktsInv s' none where
  partition := by
    rw [hcl.free]
    refine (hcl.used.append_right _).trans (List.Perm.trans ?_ h.partition)
    exact List.perm_middle.trans ((List.perm_cons_erase hc).symm.append_right _)
  free d hd := by
    rw [hcl.free] at hd
    by_cases hdc : d = c
    · subst hdc
      exact hcl.self
    · rw [(hcl.other d hdc).1, (hcl.other d hdc).2]
      exact h.free d ((List.mem_cons.1 hd).resolve_left hdc)
  used d hd _ := by
    have hd := hcl.used.mem_iff.1 hd
    have hnodup : s.usedCtxs.Nodup :=
      (List.nodup_append.1 (h.partition.nodup_iff.2 (List.nodup_finRange _))).1
    have hdc : d ≠ c := (hnodup.mem_erase_iff.1 hd).1
    rw [(hcl.other d hdc).1, (hcl.other d hdc).2]
    exact h.used d (List.mem_of_mem_erase hd) (hex d hdc)
  states d := by
    rw [hcl.log]
    by_cases hdc : d = c
    · subst hdc
      have hfree : connState s' d = .free := if_pos (by rw [hcl.free]; exact List.mem_cons_self)
      rw [hfree]
      exact (h.states d).append (trace_closeObs (h.not_free hc) due2err)
    · have hsame : connState s' d = connState s d := by
        unfold connState
        rw [hcl.free, (hcl.other d hdc).1, (hcl.other d hdc).2]
        simp only [List.mem_cons, hdc, false_or]
      rw [hsame]
      exact (h.states d).others hdc fun o ho => ctx_closeObs ho

theorem PktsInv.doNetCloseRx (h : PktsInv s none) (cbs : MsgCbs σ U A) (hc : c ∈ s.usedCtxs)
    (due2err : Bool) : PktsInv (doNetCloseRx cbs s c due2err) none :=
  h.closed hc (fun _ _ => nofun) (closed_doNetCloseRx cbs s c due2err)

/-! ### Opening -/

/-- A free context is used for a new connection. -/
structure Opened (s s' : State σ U) (c : CtxIdx) : Prop where
  log : s'.log = s.log ++ [.opened c]
  free : s.freeCtxs = c :: s'.freeCtxs
  used : s'.usedCtxs.Perm (c :: s.usedCtxs)
  ctx : ∀ d, (s'.ctxs d).usr = (s.ctxs d).usr ∧ (s'.ctxs d).rcvdConnMsg = (s.ctxs d).rcvdConnMsg

theorem PktsInv.opened (h : PktsInv s none) (ho : Opened s s' c) : PktsInv s' none := by
  have hcf : c ∈ s.freeCtxs := by
    rw [ho.free]
    exact List.mem_cons_self
  have hnodup : s.freeCtxs.Nodup :=
    (List.nodup_append.1 (h.partition.nodup_iff.2 (List.nodup_finRange _))).2.1
  rw [ho.free] at hnodup
  have hrest : c ∉ s'.freeCtxs := (List.nodup_cons.1 hnodup).1
  refine ⟨?_, fun d hd => ?_, fun d hd _ => ?_, fun d => ?_⟩
  · refine (ho.used.append_right _).trans (List.Perm.trans ?_ h.partition)
    rw [ho.free]
    exact List.perm_middle.symm
  · rw [(ho.ctx d).1, (ho.ctx d).2]
    exact h.free d (by rw [ho.free]; exact List.mem_cons_of_mem _ hd)
  · rw [(ho.ctx d).1, (ho.ctx d).2]
    rcases List.mem_cons.1 (ho.used.mem_iff.1 hd) with rfl | hd
    · rw [(h.free d hcf).1, (h.free d hcf).2]
      rfl
    · exact h.used d hd nofun
  · rw [ho.log]
    by_cases hdc : d = c
    · subst hdc
      have hold := h.states d
      rw [show connState s d = .free from if_pos hcf] at hold
      have hopened : connState s' d = .opened := by
        unfold connState
        rw [if_neg hrest, (ho.ctx d).1, (ho.ctx d).2, (h.free d hcf).1, (h.free d hcf).2]
        rfl
      rw [hopened]
      exact hold.append (.step rfl (.opened d) (.nil _))
    · have hsame : connState s' d = connState s d := by
        unfold connState
        rw [ho.free, (ho.ctx d).1, (ho.ctx d).2]
        simp only [List.mem_cons, hdc, false_or]
      rw [hsame]
      refine (h.states d).others hdc fun o hm => ?_
      rw [List.mem_singleton.1 hm]
      rfl

theorem PktsInv.acceptCtx (h : PktsInv s none) (net : Int) (waitSecs now : UInt32) :
    PktsInv (acceptCtx s net waitSecs now).1 none := by
  unfold Pkts.acceptCtx
  cases hlist : s.freeCtxs with
  | nil => exact h
  | cons c rest =>
    have hcf := h.free c (by rw [hlist]; exact List.mem_cons_self)
    simp only
    split
    · -- the context goes back to where it was
      refine h.calm ⟨rfl, hlist.symm, .refl _, fun d => ?_, fun d hd => ?_⟩
      · by_cases hd : d = c
        · subst hd
          simp [clCtxFree, State.setCtx, clCtxReset, hcf]
        · simp [clCtxFree, State.setCtx, hd]
      · have hne : d ≠ c := fun he => h.not_free hd (by rw [he, hlist]; exact List.mem_cons_self)
        simp [clCtxFree, State.setCtx, hne]
    · refine h.opened (c := c) ⟨rfl, hlist, clCtxTimeoutInsert_perm .., fun d => ?_⟩
      by_cases hd : d = c
      · subst hd
        simp [usedCtxsInsert, State.report, State.setCtx]
      · simp [usedCtxsInsert, State.report, State.setCtx, hd]

/-! ### Receiving -/

theorem moved_procConnectRx (cbs : MsgCbs σ U A) (hc : c ∈ s.usedCtxs)
    (husr : (s.ctxs c).usr = none) (rx : Rx) :
    ∃ usr, Moved s (procConnectRx cbs s c rx).1 c usr true (s.ctxs c).net [.connect c usr] ∧
      (procConnectRx cbs s c rx).2 = usr.isSome := by
  unfold procConnectRx
  simp only
  generalize connectParse (s.ctxs c).kaSecs rx = p
  obtain ⟨kaSecs, parsed⟩ := p
  have hm := moved_setCtx s c { s.ctxs c with rcvdConnMsg := true, kaSecs := kaSecs }
  cases parsed with
  | error ackVh16 =>
    refine ⟨none, ?_, rfl⟩
    have hm := hm.report (.connect c none)
    simp only [husr] at hm ⊢
    split
    · exact hm.calm (calm_vhMsgSend ..)
    · exact hm
  | ok parsed =>
    obtain ⟨connFlags, utf8s⟩ := parsed
    simp only
    generalize s.setCtx c { s.ctxs c with rcvdConnMsg := true, kaSecs := kaSecs } = s₁ at hm ⊢
    have hisSome := cbs.usr_isSome s₁.core c connFlags utf8s
    generalize cbs.connectRx s₁.core c connFlags utf8s = r at hisSome ⊢
    have hcb := hm.calm (calm_afterCb s₁ r)
    generalize afterCb s₁ r = s₂ at hcb ⊢
    have hset := (hcb.setCtx { s₂.ctxs c with usr := r.ret.2 }).report (.connect c r.ret.2)
    generalize (s₂.setCtx c { s₂.ctxs c with usr := r.ret.2 }).report (.connect c r.ret.2) = s₃
      at hset ⊢
    have hrcvd : (s₂.ctxs c).rcvdConnMsg = true := hcb.self.2
    have hnet : (s₂.ctxs c).net = (s.ctxs c).net := hcb.own hc
    have hset : Moved s s₃ c r.ret.2 true (s.ctxs c).net [.connect c r.ret.2] := by
      simp only [hrcvd, hnet] at hset
      exact hset
    have hsent : Calm s₃ (if r.ret.1 &&& 0xFF ≠ 0xFF then vhMsgSend s₃ c rx.sent else s₃) := by
      split
      · exact calm_vhMsgSend ..
      · exact Calm.refl s₃
    have hm₄ := hset.calm hsent
    generalize (if r.ret.1 &&& 0xFF ≠ 0xFF then vhMsgSend s₃ c rx.sent else s₃) = s₄ at hm₄ ⊢
    refine ⟨r.ret.2, ?_⟩
    split
    · rename_i hacc
      have hupd := hm₄.calm (calm_rxTimeoutUpdate s₄ (hm₄.used.mem_iff.2 hc) rx.now)
      exact ⟨hupd.calm (calm_afterCb ..), (hisSome.2 hacc).symm⟩
    · rename_i hrej
      exact ⟨hm₄, (Bool.eq_false_iff.2 (mt hisSome.1 hrej)).symm⟩

theorem calm_procMsgRx (s : State σ U) (c : CtxIdx) (wellFormed : Bool) (r : CbRes σ Bool)
    {answer : State σ U → State σ U}
    (hanswer : ∀ s, Calm s (answer s)) : Calm s (procMsgRx s c wellFormed r answer).1 := by
  unfold procMsgRx
  split
  · simp only
    split
    · exact (calm_afterCb s r).trans (hanswer _)
    · exact calm_afterCb s r
  · exact Calm.refl s

theorem calm_procPubMsgRx (cbs : MsgCbs σ U A) (s : State σ U) (c : CtxIdx) (rx : Rx) :
    Calm s (procPubMsgRx cbs s c rx).1 := by
  unfold procPubMsgRx
  apply calm_procMsgRx
  intro s
  split
  · exact calm_vhMsgSend ..
  · exact Calm.refl s

theorem PktsInv.acted (h : PktsInv s none) (hc : c ∈ s.usedCtxs)
    (hrcvd : (s.ctxs c).rcvdConnMsg = true) {t : UInt8} (ht : t ≠ mqttConnect) :
    PktsInv (s.report (.acted c t)) none := by
  have hsome : (s.ctxs c).usr.isSome := by
    rw [← h.used c hc nofun, hrcvd]
  obtain ⟨usr, husr⟩ := Option.isSome_iff_exists.1 hsome
  have hst : connState s c = .connected usr := by
    unfold connState
    rw [if_neg (h.not_free hc), husr]
  have hm : Moved s (s.report (.acted c t)) c (some usr) true (s.ctxs c).net [.acted c t] :=
    ⟨rfl, rfl, .refl _, ⟨husr, hrcvd⟩, fun _ _ => ⟨rfl, rfl⟩, fun _ => rfl, fun _ _ _ => rfl⟩
  refine h.moved hc hm (fun o ho => ?_) (fun _ => rfl) ?_
  · rw [List.mem_singleton.1 ho]
    rfl
  · rw [show connState (s.report (.acted c t)) c = connState s c from rfl, hst]
    exact .step rfl (.act c usr t ht) (.nil _)

/-- What `process_recv` does with a packet, and what it returns. -/
inductive RecvDone (s : State σ U) (c : CtxIdx) : State σ U → Bool → Prop where
  /-- A violation of the protocol, or a packet of another type. -/
  | refused {s' : State σ U} (hq : Calm s s') : RecvDone s c s' false
  | connect {s₁ s' : State σ U} (hrcvd : (s.ctxs c).rcvdConnMsg = false) (hq : Calm s s₁)
      (usr : Option U) (hm : Moved s₁ s' c usr true (s₁.ctxs c).net [.connect c usr]) :
      RecvDone s c s' usr.isSome
  | acted {s₁ s' : State σ U} (hrcvd : (s.ctxs c).rcvdConnMsg = true) (hq : Calm s s₁) {t : UInt8}
      (ht : t ≠ mqttConnect) (hq' : Calm (s₁.report (.acted c t)) s') (ok : Bool) : RecvDone s c s' ok
  | disconnect {s₁ s' : State σ U} (hrcvd : (s.ctxs c).rcvdConnMsg = true) (hq : Calm s s₁)
      {t : UInt8} (ht : t ≠ mqttConnect) (hcl : Closed (s₁.report (.acted c t)) s' c false) :
      RecvDone s c s' true

theorem recvDone_processRecv (cbs : MsgCbs σ U A) (hc : c ∈ s.usedCtxs)
    (hused : (s.ctxs c).rcvdConnMsg = (s.ctxs c).usr.isSome) (rx : Rx) :
    RecvDone s c (processRecv cbs s c rx).1 (processRecv cbs s c rx).2 := by
  unfold processRecv
  simp only
  split
  · exact .refused (Calm.refl s)
  · rename_i hproto
    have hupd := calm_rxTimeoutUpdate s hc rx.now
    have hc' := hupd.used.mem_iff.2 hc
    generalize rxTimeoutUpdate s c rx.now = s₁ at hupd hc' ⊢
    by_cases hconn : msgType rx.pkt = mqttConnect
    · rw [if_pos hconn]
      rw [hconn] at hproto
      have hrcvd : (s.ctxs c).rcvdConnMsg = false := by simpa using hproto
      have hnone : (s₁.ctxs c).usr = none := by
        rw [hrcvd] at hused
        rw [(hupd.ctx c).1]
        exact Option.not_isSome_iff_eq_none.1 (by rw [← hused]; exact Bool.false_ne_true)
      obtain ⟨usr, hm, hok⟩ := moved_procConnectRx cbs hc' hnone rx
      rw [hok]
      exact .connect hrcvd hupd usr hm
    · rw [if_neg hconn]
      rw [bne_iff_ne.2 hconn] at hproto
      have hrcvd : (s.ctxs c).rcvdConnMsg = true := by simpa using hproto
      have hacted : ∀ r : State σ U × Bool, Calm (s₁.report (.acted c (msgType rx.pkt))) r.1 →
          RecvDone s c r.1 r.2 := fun r hq => .acted hrcvd hupd hconn hq r.2
      split
      · exact .disconnect hrcvd hupd hconn (closed_doNetCloseRx cbs _ c false)
      split
      · exact hacted _ (calm_procMsgRx _ c _ _ fun s => calm_clCtxSend s c _)
      split
      · exact hacted _ (calm_procMsgRx _ c _ _ fun s => calm_vhMsgSend s c _)
      split
      · exact hacted _ (calm_vhMsgSend ..)
      split
      · exact hacted _ (calm_procPubMsgRx ..)
      split
      · exact hacted _ (calm_procMsgRx _ c _ _ Calm.refl)
      · exact .refused hupd

/-- After `process_recv` the connection is to be closed if it says so. -/
structure Processed (s : State σ U) (c : CtxIdx) (ok : Bool) : Prop where
  inv : PktsInv s (if ok then none else some c)
  used : ok = false → c ∈ s.usedCtxs

theorem PktsInv.processed (h : PktsInv s none) (hc : c ∈ s.usedCtxs) (ok : Bool) :
    Processed s c ok where
  inv := by
    split
    · exact h
    · exact { h with used := fun d hd _ => h.used d hd nofun }
  used _ := hc

theorem PktsInv.connected (h : PktsInv s none) (hc : c ∈ s.usedCtxs)
    (hrcvd : (s.ctxs c).rcvdConnMsg = false) {usr : Option U}
    (hm : Moved s s' c usr true (s.ctxs c).net [.connect c usr]) : Processed s' c usr.isSome := by
  have hfree : c ∉ s'.freeCtxs := by
    rw [hm.free]
    exact h.not_free hc
  have hnone : (s.ctxs c).usr = none := by
    have hused := h.used c hc nofun
    rw [hrcvd] at hused
    exact Option.not_isSome_iff_eq_none.1 (by rw [← hused]; exact Bool.false_ne_true)
  have hopened : connState s c = .opened := by
    unfold connState
    rw [if_neg (h.not_free hc), hnone, hrcvd]
    rfl
  refine ⟨h.moved hc hm (fun o ho => ?_) ?_ ?_, fun _ => hm.used.mem_iff.2 hc⟩
  · rw [List.mem_singleton.1 ho]
    rfl
  · cases usr with
    | some usr => exact fun _ => rfl
    | none => exact fun hne => absurd rfl hne
  · rw [hopened]
    unfold connState
    rw [if_neg hfree, hm.self.1, hm.self.2]
    cases usr with
    | some usr => exact .step rfl (.accept c usr) (.nil _)
    | none => exact .step rfl (.refuse c) (.nil _)

theorem PktsInv.recvDone (h : PktsInv s none) (hc : c ∈ s.usedCtxs) {ok : Bool}
    (hr : RecvDone s c s' ok) : Processed s' c ok := by
  cases hr with
  | refused hq => exact (h.calm hq).processed (hq.used.mem_iff.2 hc) false
  | connect hrcvd hq usr hm =>
    exact (h.calm hq).connected (hq.used.mem_iff.2 hc) ((hq.ctx c).2.trans hrcvd) hm
  | acted hrcvd hq ht hq' =>
    have hacted := (h.calm hq).acted (hq.used.mem_iff.2 hc) ((hq.ctx c).2.trans hrcvd) ht
    exact (hacted.calm hq').processed (hq'.used.mem_iff.2 (hq.used.mem_iff.2 hc)) ok
  | disconnect hrcvd hq ht hcl =>
    have hacted := (h.calm hq).acted (hq.used.mem_iff.2 hc) ((hq.ctx c).2.trans hrcvd) ht
    exact ⟨hacted.closed (hq.used.mem_iff.2 hc) (fun _ _ => nofun) hcl, nofun⟩

theorem mem_of_netClCtxFind {net : Int} (h : netClCtxFind s net = some c) : c ∈ s.usedCtxs :=
  List.mem_of_find?_eq_some h

theorem PktsInv.procNetDataRecv (h : PktsInv s none) (cbs : MsgCbs σ U A) {net : Int}
    {rx : Option Rx} (hr : procNetDataRecv cbs s net rx = some s') : PktsInv s' none := by
  unfold Pkts.procNetDataRecv at hr
  cases hfind : netClCtxFind s net with
  | none =>
    rw [hfind] at hr
    cases hr
  | some c =>
    have hc := mem_of_netClCtxFind hfind
    rw [hfind] at hr
    cases rx with
    | none =>
      cases hr
      exact h.doNetCloseRx cbs hc true
    | some rx =>
      have hproc := h.recvDone hc (recvDone_processRecv cbs hc (h.used c hc nofun) rx)
      cases hr
      split
      · rename_i hok
        have hinv := hproc.inv
        rwa [if_pos hok] at hinv
      · rename_i hok
        have hinv := hproc.inv
        rw [if_neg hok] at hinv
        refine hinv.closed (hproc.used (Bool.eq_false_iff.2 hok)) (fun d hd he => ?_)
          (closed_doNetCloseRx cbs _ c true)
        exact hd (Option.some.inj he).symm

/-! ### The keep-alive sweep -/

theorem PktsInv.kaClose (h : PktsInv s none) (cbs : MsgCbs σ U A) (now : UInt32)
    (hc : c ∈ s.usedCtxs) : PktsInv (kaClose cbs now s c) none := by
  unfold Pkts.kaClose
  split
  · have hq := calm_setCtx s c { s.ctxs c with nwConnError := false, networkClose := false }
    exact (h.calm hq).doNetCloseRx cbs hc _
  · exact h

theorem mem_used_kaClose (cbs : MsgCbs σ U A) (now : UInt32) {d : CtxIdx} (hd : d ≠ c)
    (hu : d ∈ s.usedCtxs) : d ∈ (kaClose cbs now s c).usedCtxs := by
  unfold kaClose
  split
  · have hcl := closed_doNetCloseRx cbs
      (s.setCtx c { s.ctxs c with nwConnError := false, networkClose := false }) c
      (s.ctxs c).nwConnError
    exact hcl.used.mem_iff.2 ((List.mem_erase_of_ne hd).2 hu)
  · exact hu

/-- What closing one context of the list keeps is kept by the sweep. -/
theorem kaSequence_induction {I : State σ U → Prop} (cbs : MsgCbs σ U A) (now : UInt32)
    (hstep : ∀ s c, c ∈ s.usedCtxs → I s → I (kaClose cbs now s c)) (hnodup : s.usedCtxs.Nodup)
    (h : I s) : I (kaSequence cbs s now) := by
  have hloop : ∀ (cs : List CtxIdx) (s : State σ U), cs.Nodup → (∀ c ∈ cs, c ∈ s.usedCtxs) →
      I s → I (cs.foldl (Pkts.kaClose cbs now) s) := by
    intro cs
    induction cs with
    | nil => exact fun _ _ _ h => h
    | cons c cs ih =>
      intro s hnodup hused h
      obtain ⟨hnot, hnodup⟩ := List.nodup_cons.1 hnodup
      refine ih _ hnodup (fun d hd => ?_) (hstep s c (hused c List.mem_cons_self) h)
      exact mem_used_kaClose cbs now (fun he => hnot (he ▸ hd))
        (hused d (List.mem_cons_of_mem _ hd))
  exact hloop _ s hnodup (fun _ hc => hc) h

theorem PktsInv.kaSequence (h : PktsInv s none) (cbs : MsgCbs σ U A) (now : UInt32) :
    PktsInv (kaSequence cbs s now) none :=
  kaSequence_induction (I := fun s => PktsInv s none) cbs now (fun _ _ hc h => h.kaClose cbs now hc)
    (List.nodup_append.1 (h.partition.nodup_iff.2 (List.nodup_finRange _))).1 h

/-! ## Runs -/

theorem PktsInv.step (h : PktsInv s none) (cbs : MsgCbs σ U A) {op : PktsOp A} {out : Unit}
    (hs : pktsStep cbs s op = some (s', out)) : PktsInv s' none := by
  cases op with
  | ka now =>
    cases hs
    exact h.kaSequence cbs now
  | accept net waitSecs now =>
    cases hs
    exact h.acceptCtx net waitSecs now
  | recv net rx =>
    obtain ⟨s₁, hr, he⟩ := Option.map_eq_some_iff.1 hs
    obtain ⟨rfl, -⟩ := Prod.mk.inj he
    exact h.procNetDataRecv cbs hr
  | app a =>
    cases hs
    exact h.calm (calm_afterCb ..)

/-- The states of the connections in what the library did, and what it does next. -/
structure ConnLaw (cbs : MsgCbs σ U A) (s : State σ U) : Prop where
  /-- The contexts are divided between the lists. -/
  partition : (s.usedCtxs ++ s.freeCtxs).Perm (List.finRange maxNwconn)
  states : ∀ c, Trace c .free s.log (connState s c)
  /-- What was acted upon was not a CONNECT, and came in a connection that was accepted. -/
  acted : ∀ c t pre post, s.log = pre ++ .acted c t :: post →
    ∃ pre₁ usr pre₂, pre = pre₁ ++ .connect c (some usr) :: pre₂ ∧ .closed c ∉ pre₂
  /-- The core has heard of the end of every connection that it accepted, once; a connection that
  is still there is the one it has not heard of. -/
  balance : ∀ c, acceptances c s.log = notifications c s.log + (connState s c).known
  /-- A packet that comes before the connection is accepted closes it, and the core sees nothing. -/
  early : ∀ net c rx, netClCtxFind s net = some c → connState s c = .opened →
    msgType rx.pkt ≠ mqttConnect → ∃ s', procNetDataRecv cbs s net (some rx) = some s' ∧
      s'.core = s.core ∧ s'.log = s.log ++ [.closed c] ∧ connState s' c = .free
  /-- A second CONNECT closes the connection, and the core hears of it. -/
  second : ∀ net c usr rx, netClCtxFind s net = some c → connState s c = .connected usr →
    msgType rx.pkt = mqttConnect → ∃ s', procNetDataRecv cbs s net (some rx) = some s' ∧
      s'.log = s.log ++ [.closed c, .notified c usr true] ∧ connState s' c = .free

theorem recv_violation (cbs : MsgCbs σ U A) {net : Int} {rx : Rx}
    (hfind : netClCtxFind s net = some c)
    (h : ((msgType rx.pkt != mqttConnect) ^^ (s.ctxs c).rcvdConnMsg) = true) :
    procNetDataRecv cbs s net (some rx) = some (doNetCloseRx cbs s c true) := by
  have hproc : processRecv cbs s c rx = (s, false) := if_pos h
  simp only [procNetDataRecv, hfind, hproc]
  rfl

theorem connState_closed {due2err : Bool} (h : Closed s s' c due2err) : connState s' c = .free := by
  apply if_pos
  rw [h.free]
  exact List.mem_cons_self

theorem ctx_of_connState (h : PktsInv s none) (hc : c ∈ s.usedCtxs) :
    (connState s c = .opened → (s.ctxs c).usr = none ∧ (s.ctxs c).rcvdConnMsg = false) ∧
      ∀ usr, connState s c = .connected usr →
        (s.ctxs c).usr = some usr ∧ (s.ctxs c).rcvdConnMsg = true := by
  have hused := h.used c hc nofun
  unfold connState
  rw [if_neg (h.not_free hc)]
  cases husr : (s.ctxs c).usr with
  | some usr =>
    rw [husr] at hused
    refine ⟨nofun, fun usr' he => ?_⟩
    obtain rfl := ConnState.connected.inj he
    exact ⟨rfl, hused⟩
  | none =>
    rw [husr] at hused
    simp only [hused]
    exact ⟨fun _ => ⟨trivial, rfl⟩, fun _ he => nomatch he⟩

theorem core_doNetCloseRx (cbs : MsgCbs σ U A) (due2err : Bool) (husr : (s.ctxs c).usr = none) :
    (doNetCloseRx cbs s c due2err).core = s.core := by
  have hnet : ((s.setCtx c { s.ctxs c with net := -1 }).ctxs c).usr = none := by
    simp [State.setCtx, husr]
  simp only [doNetCloseRx, State.report, hnet]
  rfl

theorem PktsInv.connLaw (h : PktsInv s none) (cbs : MsgCbs σ U A) : ConnLaw cbs s where
  partition := h.partition
  states := h.states
  acted c t pre post he := by
    have hst := h.states c
    rw [he] at hst
    exact hst.acted
  balance c := by
    have hbal := (h.states c).balance
    simp only [ConnState.known] at hbal ⊢
    omega
  early net c rx hfind hst ht := by
    have hc := mem_of_netClCtxFind hfind
    obtain ⟨husr, hrcvd⟩ := (ctx_of_connState h hc).1 hst
    have hcl := closed_doNetCloseRx cbs s c true
    refine ⟨_, recv_violation cbs hfind ?_, core_doNetCloseRx cbs true husr, ?_,
      connState_closed hcl⟩
    · rw [hrcvd, bne_iff_ne.2 ht]
      rfl
    · rw [hcl.log, husr]
      rfl
  second net c usr rx hfind hst ht := by
    have hc := mem_of_netClCtxFind hfind
    obtain ⟨husr, hrcvd⟩ := (ctx_of_connState h hc).2 usr hst
    have hcl := closed_doNetCloseRx cbs s c true
    refine ⟨_, recv_violation cbs hfind ?_, ?_, connState_closed hcl⟩
    · rw [hrcvd, ht]
      rfl
    · rw [hcl.log, husr]
      rfl

/-- The connections of a server go through their states, whatever the packets, their order over the
connections and the core. -/
theorem connection_states (cbs : MsgCbs σ U A) (core : σ) {ops : List (PktsOp A)} {s : State σ U}
    {outs : List Unit} (hr : runs (pktsStep cbs) (clCtxInit core) ops = some (s, outs)) :
    ConnLaw cbs s := by
  have hinv : PktsInv s none :=
    runs_preserves (I := fun s => PktsInv s none) (fun h hs => h.step cbs hs) (pktsInv_init core) hr
  exact hinv.connLaw cbs

/-- A core with one client, that accepts what it receives. -/
def acceptingCore : MsgCbs Unit Unit Unit where
  pluginConnect _ _ := ⟨(), 0, []⟩
  clConnectRx _ _ _ _ := ⟨(), .ok ((), false), []⟩
  onConnackSend _ _ _ := ⟨(), (), []⟩
  subMsgRx _ _ _ := ⟨(), true, []⟩
  unSubMsg _ _ _ := ⟨(), true, []⟩
  pubMsgRx _ _ _ := ⟨(), true, []⟩
  ackNotify _ _ _ := ⟨(), true, []⟩
  onClNetClose _ _ _ := ⟨(), (), []⟩
  app _ _ := ⟨(), (), []⟩
  plugin_msb _ _ := rfl

def connectA : Rx where
  pkt := ⟨0x10, [0x0D], [0, 4, 0x4D, 0x51, 0x54, 0x54, 4, 2, 0, 60, 0, 1, 0x61]⟩
  now := 1
  sent := true
  stale := []

/-- A client that connects twice. -/
theorem connection_states_twice :
    ∃ (s : State Unit Unit) (outs : List Unit),
      runs (pktsStep acceptingCore) (clCtxInit ())
        [.accept 5 10 0, .recv 5 (some connectA), .recv 5 (some connectA)] = some (s, outs) ∧
      ConnLaw acceptingCore s ∧
      s.log = [.opened 5, .connect 5 (some ()), .closed 5, .notified 5 () true] := by
  obtain ⟨s, outs, hr, hlog⟩ : ∃ (s : State Unit Unit) (outs : List Unit),
      runs (pktsStep acceptingCore) (clCtxInit ())
        [.accept 5 10 0, .recv 5 (some connectA), .recv 5 (some connectA)] = some (s, outs) ∧
      s.log = [.opened 5, .connect 5 (some ()), .closed 5, .notified 5 () true] :=
    ⟨_, _, rfl, by rfl⟩
  exact ⟨s, outs, hr, connection_states acceptingCore () hr, hlog⟩

end SimpleLink.Server.Pkts
