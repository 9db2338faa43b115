import SimpleLink.Mqtt.CtxList
import SimpleLink.Server.RunLoop

/-!
# The sweep of the server over its contexts (`ka_sequence`)

`kaSequence` of the model of the library goes over the list of the contexts in use as it was. Here
the loop is over the links, as in the source: a context that is closed goes from one list to the
other in the midst of it, and the link to the next was kept before.
-/

namespace SimpleLink.Server.Pkts

open Lib Mqtt Mqtt.UsedCtxs

variable {σ U A : Type}

/-! ## What a call-back leaves alone -/

def MarkedAt (s s' : State σ U) (c : CtxIdx) : Prop :=
  ∃ nwConnError networkClose : Bool, ((s.ctxs c).networkClose → networkClose) ∧
    s'.ctxs c = { s.ctxs c with nwConnError := nwConnError, networkClose := networkClose }

theorem MarkedAt.refl (s : State σ U) (c : CtxIdx) : MarkedAt s s c := ⟨_, _, id, rfl⟩

theorem MarkedAt.of_eq {s s' : State σ U} {c : CtxIdx} (h : s'.ctxs c = s.ctxs c) :
    MarkedAt s s' c := ⟨(s.ctxs c).nwConnError, (s.ctxs c).networkClose, id, h⟩

theorem MarkedAt.trans {s s' s'' : State σ U} {c : CtxIdx} (h : MarkedAt s s' c)
    (h' : MarkedAt s' s'' c) : MarkedAt s s'' c := by
  obtain ⟨e, m, hm, he⟩ := h
  obtain ⟨e', m', hm', he'⟩ := h'
  refine ⟨e', m', fun hs => hm' ?_, by rw [he', he]⟩
  rw [he]
  exact hm hs

theorem MarkedAt.timeout {s s' : State σ U} {c : CtxIdx} (h : MarkedAt s s' c) :
    (s'.ctxs c).timeout = (s.ctxs c).timeout := by
  obtain ⟨e, m, -, he⟩ := h
  rw [he]

structure Marked (s s' : State σ U) : Prop where
  log : s'.log = s.log
  used : s'.usedCtxs = s.usedCtxs
  free : s'.freeCtxs = s.freeCtxs
  ctx : ∀ c, MarkedAt s s' c

theorem Marked.refl (s : State σ U) : Marked s s := ⟨rfl, rfl, rfl, MarkedAt.refl s⟩

theorem Marked.trans {s s' s'' : State σ U} (h : Marked s s') (h' : Marked s' s'') :
    Marked s s'' where
  log := h'.log.trans h.log
  used := h'.used.trans h.used
  free := h'.free.trans h.free
  ctx c := (h.ctx c).trans (h'.ctx c)

theorem marked_doNetCloseTx (s : State σ U) (c : CtxIdx) (due2err : Bool) :
    Marked s (doNetCloseTx s c due2err) where
  log := rfl
  used := rfl
  free := rfl
  ctx d := by
    by_cases hd : d = c
    · subst hd
      exact ⟨_, true, fun _ => rfl, by simp [doNetCloseTx, State.setCtx]; rfl⟩
    · exact .of_eq (by simp [doNetCloseTx, State.setCtx, hd])

theorem marked_afterCb {α : Type} (s : State σ U) (r : CbRes σ α) : Marked s (afterCb s r) := by
  have hloop : ∀ (cs : List CtxIdx) (s : State σ U),
      Marked s (cs.foldl (fun s c => doNetCloseTx s c true) s) := by
    intro cs
    induction cs with
    | nil => exact Marked.refl
    | cons c cs ih => exact fun s => (marked_doNetCloseTx s c true).trans (ih _)
  have hcore : Marked s { s with core := r.core } := ⟨rfl, rfl, rfl, fun _ => ⟨_, _, id, rfl⟩⟩
  exact hcore.trans (hloop _ _)

/-- The contexts other than `c` are at most marked. -/
def OthersMarked (s s' : State σ U) (c : CtxIdx) : Prop := ∀ d, d ≠ c → MarkedAt s s' d

theorem OthersMarked.marked {s s' s'' : State σ U} {c : CtxIdx} (h : OthersMarked s s' c)
    (hm : Marked s' s'') : OthersMarked s s'' c := fun d hd => (h d hd).trans (hm.ctx d)

theorem othersMarked_setCtx (s : State σ U) (c : CtxIdx) (x : ClientCtx U) :
    OthersMarked s (s.setCtx c x) c :=
  fun d hd => .of_eq (by simp [State.setCtx, hd])

/-! ## Closing one context -/

/-- A connection has been closed. -/
structure Ended (s s' : State σ U) (c : CtxIdx) : Prop where
  log : ∃ due2err, s'.log = s.log ++ closeObs c (s.ctxs c).usr due2err
  used : s'.usedCtxs = s.usedCtxs.erase c
  free : s'.freeCtxs = c :: s.freeCtxs
  other : OthersMarked s s' c

theorem ended_doNetCloseRx (cbs : MsgCbs σ U A) (s : State σ U) (c : CtxIdx) (due2err : Bool) :
    Ended s (doNetCloseRx cbs s c due2err) c := by
  have hclosed := closed_doNetCloseRx cbs s c due2err
  have hnet : OthersMarked s ((s.setCtx c { s.ctxs c with net := -1 }).report (.closed c)) c :=
    othersMarked_setCtx s c _
  have hends : ∀ s₁ : State σ U, s₁.usedCtxs = s.usedCtxs → OthersMarked s s₁ c →
      (clCtxFree (usedCtxsRemove s₁ c) c).usedCtxs = s.usedCtxs.erase c ∧
        OthersMarked s (clCtxFree (usedCtxsRemove s₁ c) c) c := by
    intro s₁ hused hothers
    refine ⟨congrArg (List.erase · c) hused, fun d hd => (hothers d hd).trans (.of_eq ?_)⟩
    exact Function.update_of_ne hd ..
  have hboth : (doNetCloseRx cbs s c due2err).usedCtxs = s.usedCtxs.erase c ∧
      OthersMarked s (doNetCloseRx cbs s c due2err) c := by
    unfold doNetCloseRx
    simp only
    split
    · exact hends _ rfl hnet
    · rename_i usr _
      have hcb := marked_afterCb ((s.setCtx c { s.ctxs c with net := -1 }).report (.closed c))
        (cbs.onClNetClose s.core usr due2err)
      have hothers := hnet.marked hcb
      exact hends _ hcb.used hothers
  exact ⟨⟨due2err, hclosed.log⟩, hboth.1, hclosed.free, hboth.2⟩

theorem ended_kaClose (cbs : MsgCbs σ U A) {now : UInt32} {s : State σ U} {c : CtxIdx}
    (hexp : (s.ctxs c).expired now = true) : Ended s (kaClose cbs now s c) c := by
  have hclear : OthersMarked s
      (s.setCtx c { s.ctxs c with nwConnError := false, networkClose := false }) c :=
    othersMarked_setCtx s c _
  have hended := ended_doNetCloseRx cbs
    (s.setCtx c { s.ctxs c with nwConnError := false, networkClose := false }) c
    (s.ctxs c).nwConnError
  have husr : ((s.setCtx c { s.ctxs c with nwConnError := false, networkClose := false }).ctxs
      c).usr = (s.ctxs c).usr := by simp [State.setCtx]
  unfold kaClose
  rw [if_pos hexp]
  refine ⟨?_, hended.used, hended.free, fun d hd => ?_⟩
  · obtain ⟨due2err, hlog⟩ := hended.log
    rw [husr] at hlog
    exact ⟨due2err, hlog⟩
  · exact (hclear d hd).trans (hended.other d hd)

theorem kaClose_of_not_expired (cbs : MsgCbs σ U A) {now : UInt32} {s : State σ U} {c : CtxIdx}
    (hexp : ¬ (s.ctxs c).expired now = true) : kaClose cbs now s c = s := if_neg hexp

theorem othersMarked_kaClose (cbs : MsgCbs σ U A) (now : UInt32) (s : State σ U) (c : CtxIdx) :
    OthersMarked s (kaClose cbs now s c) c := by
  by_cases hexp : (s.ctxs c).expired now = true
  · exact (ended_kaClose cbs hexp).other
  · rw [kaClose_of_not_expired cbs hexp]
    exact fun d _ => .refl s d

/-! ## The sweep over a list -/

/-- What a sweep over the contexts of `l` does: each is closed if it is marked or its time is over
when its turn comes, and the others stay, in their order. -/
structure Swept (cbs : MsgCbs σ U A) (now : UInt32) (l : List CtxIdx) (s s' : State σ U)
    (out : List (Obs U)) : Prop where
  log : s'.log = s.log ++ out
  closed : ∀ c, .closed c ∈ out ↔ ∃ l₁ l₂, l = l₁ ++ c :: l₂ ∧
    ((l₁.foldl (kaClose cbs now) s).ctxs c).expired now = true
  order : s'.usedCtxs.Sublist s.usedCtxs
  kept : ∀ c ∈ s.usedCtxs, c ∈ s'.usedCtxs ↔ .closed c ∉ out
  same : ∀ c, .closed c ∉ out → MarkedAt s s' c

theorem closed_mem_closeObs {c d : CtxIdx} {usr : Option U} {due2err : Bool} :
    .closed c ∈ closeObs d usr due2err ↔ c = d := by
  cases usr <;> simp [closeObs]

theorem Swept.nil (cbs : MsgCbs σ U A) (now : UInt32) (s : State σ U) : Swept cbs now [] s s [] where
  log := (List.append_nil _).symm
  closed c := by simp
  order := .refl _
  kept c hc := by simpa using hc
  same c _ := .refl s c

theorem Swept.skip {cbs : MsgCbs σ U A} {now : UInt32} {d : CtxIdx} {l : List CtxIdx}
    {s s' : State σ U} {out : List (Obs U)} (hexp : ¬ (s.ctxs d).expired now = true)
    (h : Swept cbs now l s s' out) : Swept cbs now (d :: l) s s' out := by
  refine { h with closed := fun c => (h.closed c).trans ?_ }
  constructor
  · rintro ⟨l₁, l₂, rfl, hc⟩
    refine ⟨d :: l₁, l₂, rfl, ?_⟩
    rw [List.foldl_cons, kaClose_of_not_expired cbs hexp]
    exact hc
  · rintro ⟨l₁, l₂, hsplit, hc⟩
    cases l₁ with
    | nil =>
      obtain ⟨rfl, -⟩ := List.cons.inj hsplit
      exact absurd hc hexp
    | cons e l₁ =>
      obtain ⟨rfl, rfl⟩ := List.cons.inj hsplit
      rw [List.foldl_cons, kaClose_of_not_expired cbs hexp] at hc
      exact ⟨l₁, l₂, rfl, hc⟩

theorem Swept.close {cbs : MsgCbs σ U A} {now : UInt32} {d : CtxIdx} {l : List CtxIdx}
    {s s' : State σ U} {out : List (Obs U)} {due2err : Bool} (hnodup : s.usedCtxs.Nodup)
    (hexp : (s.ctxs d).expired now = true)
    (hlog : (kaClose cbs now s d).log = s.log ++ closeObs d (s.ctxs d).usr due2err)
    (h : Swept cbs now l (kaClose cbs now s d) s' out) :
    Swept cbs now (d :: l) s s' (closeObs d (s.ctxs d).usr due2err ++ out) := by
  have hended := ended_kaClose cbs hexp
  refine ⟨?_, fun c => ?_, ?_, fun c hc => ?_, fun c hc => ?_⟩
  · rw [h.log, hlog, List.append_assoc]
  · rw [List.mem_append, closed_mem_closeObs, h.closed c]
    constructor
    · rintro (rfl | ⟨l₁, l₂, rfl, hc⟩)
      · exact ⟨[], l, rfl, hexp⟩
      · exact ⟨d :: l₁, l₂, rfl, hc⟩
    · rintro ⟨l₁, l₂, hsplit, hc⟩
      cases l₁ with
      | nil => exact .inl (List.cons.inj hsplit).1.symm
      | cons e l₁ =>
        obtain ⟨rfl, rfl⟩ := List.cons.inj hsplit
        exact .inr ⟨l₁, l₂, rfl, hc⟩
  · have hsub := h.order
    rw [hended.used] at hsub
    exact hsub.trans List.erase_sublist
  · rw [List.mem_append, closed_mem_closeObs, not_or]
    by_cases hcd : c = d
    · subst hcd
      refine iff_of_false (fun hm => ?_) fun hno => hno.1 rfl
      have hm' := h.order.subset hm
      rw [hended.used] at hm'
      exact hnodup.not_mem_erase hm'
    · rw [and_iff_right hcd]
      apply h.kept
      rw [hended.used]
      exact (List.mem_erase_of_ne hcd).2 hc
  · rw [List.mem_append, closed_mem_closeObs, not_or] at hc
    exact (hended.other c hc.1).trans (h.same c hc.2)

theorem swept_foldl (cbs : MsgCbs σ U A) (now : UInt32) {l : List CtxIdx} {s : State σ U}
    (hnodup : s.usedCtxs.Nodup) :
    ∃ out, Swept cbs now l s (l.foldl (kaClose cbs now) s) out := by
  induction l generalizing s with
  | nil => exact ⟨[], .nil cbs now s⟩
  | cons d l ih =>
    rw [List.foldl_cons]
    by_cases hexp : (s.ctxs d).expired now = true
    · have hended := ended_kaClose cbs hexp
      obtain ⟨due2err, hlog⟩ := hended.log
      have hnodup' : (kaClose cbs now s d).usedCtxs.Nodup := by
        rw [hended.used]
        exact hnodup.erase d
      obtain ⟨out, h⟩ := ih hnodup'
      exact ⟨_, h.close hnodup hexp hlog⟩
    · rw [kaClose_of_not_expired cbs hexp]
      obtain ⟨out, h⟩ := ih hnodup
      exact ⟨out, h.skip hexp⟩

/-! ## The loop over the links -/

/-- The library, with the links of its two lists. -/
structure Threaded (σ U : Type) where
  pkts : State σ U
  /-- `next` and `used_ctxs`. -/
  links : UsedCtxs.Links CtxIdx
  /-- `free_ctxs`. -/
  free : Option CtxIdx

/-- A context of `ka_sequence`: if it is to be closed, `do_net_close_rx` moves it to the free ones. -/
def kaCloseAt (cbs : MsgCbs σ U A) (now : UInt32) (k : Threaded σ U) (c : CtxIdx) :
    Option (Threaded σ U) :=
  if (k.pkts.ctxs c).expired now then
    (clCtxRemove k.links c).map fun links =>
      { pkts := kaClose cbs now k.pkts c
        links := { links with next := Function.update links.next c k.free }
        free := some c }
  else some k

/-- The loop of `ka_sequence`. -/
def kaLoop (cbs : MsgCbs σ U A) (now : UInt32) :
    Nat → Option CtxIdx → Threaded σ U → Option (Threaded σ U)
  | _, none, k => some k
  | 0, some _, _ => none
  | n + 1, some clCtx, k =>
    let next := k.links.next clCtx
    (kaCloseAt cbs now k clCtx).bind (kaLoop cbs now n next)

/-- `IO_MON_NO_TIMEOUT`. -/
def ioMonNoTimeout : UInt32 := 0xFFFFFFFF

/-- `ka_sequence`, with what it stores in `secs2wait`. -/
def kaSequenceWait (cbs : MsgCbs σ U A) (k : Threaded σ U) (now : UInt32) :
    Option (Threaded σ U × UInt32) :=
  (kaLoop cbs now maxNwconn k.links.head k).map fun k =>
    (k, match k.links.head with
      | none => ioMonNoTimeout
      | some c =>
        if (k.pkts.ctxs c).timeout = Pkts.kaTimeoutNone then ioMonNoTimeout
        else (k.pkts.ctxs c).timeout - now)

/-- The links are those of the two lists. -/
structure Threaded.Ok (k : Threaded σ U) : Prop where
  used : Linked k.links.next k.links.head k.pkts.usedCtxs
  free : Linked k.links.next k.free k.pkts.freeCtxs
  apart : ∀ c ∈ k.pkts.usedCtxs, c ∉ k.pkts.freeCtxs

theorem Threaded.Ok.closeAt {k : Threaded σ U} (hok : k.Ok) (cbs : MsgCbs σ U A) (now : UInt32)
    {c : CtxIdx} (hc : c ∈ k.pkts.usedCtxs) :
    ∃ k', kaCloseAt cbs now k c = some k' ∧ k'.Ok ∧ k'.pkts = kaClose cbs now k.pkts c := by
  unfold kaCloseAt
  by_cases hexp : (k.pkts.ctxs c).expired now = true
  · rw [if_pos hexp]
    have hended := ended_kaClose cbs hexp
    obtain ⟨links, hlinks, hlinked, -, -, hframe⟩ := remove_linked (c := c) hok.used
    rw [hlinks]
    have hout : c ∉ k.pkts.usedCtxs.erase c := (Linked.nodup hok.used).not_mem_erase
    refine ⟨_, rfl, ⟨?_, ?_, fun d hd hfree => ?_⟩, rfl⟩
    · show Linked _ links.head (kaClose cbs now k.pkts c).usedCtxs
      rw [hended.used]
      exact Path.update hlinked hout _
    · show Linked _ (some c) (kaClose cbs now k.pkts c).freeCtxs
      rw [hended.free]
      refine ⟨rfl, ?_⟩
      show Linked _ (Function.update links.next c k.free c) _
      rw [Function.update_self]
      refine Path.congr hok.free fun d hd => ?_
      have hdu : d ∉ k.pkts.usedCtxs := fun hu => hok.apart d hu hd
      have hdc : d ≠ c := fun he => hdu (he ▸ hc)
      exact (Function.update_of_ne hdc ..).trans (hframe d hdu)
    · have hd' : d ∈ k.pkts.usedCtxs.erase c := hended.used ▸ hd
      have hfree' : d ∈ c :: k.pkts.freeCtxs := hended.free ▸ hfree
      rcases List.mem_cons.1 hfree' with rfl | hfree'
      · exact hout hd'
      · exact hok.apart d (List.mem_of_mem_erase hd') hfree'
  · rw [if_neg hexp]
    exact ⟨k, rfl, hok, (kaClose_of_not_expired cbs hexp).symm⟩

/-- The loop closes what the sweep over the list closes: the link to the next context is that to the
next of the list, before and after. -/
theorem Threaded.Ok.loop (cbs : MsgCbs σ U A) (now : UInt32) {l : List CtxIdx} :
    ∀ {done : List CtxIdx} {n : Nat} {k : Threaded σ U}, l.length ≤ n → k.Ok →
      k.pkts.usedCtxs = done ++ l →
      ∃ k', kaLoop cbs now n l.head? k = some k' ∧ k'.Ok ∧
        k'.pkts = l.foldl (kaClose cbs now) k.pkts := by
  induction l with
  | nil =>
    intro done n k _ hok _
    refine ⟨k, ?_, hok, rfl⟩
    cases n <;> rfl
  | cons c l ih =>
    intro done n k hn hok hsplit
    obtain ⟨n, rfl⟩ : ∃ m, n = m + 1 := ⟨n - 1, by simp at hn; omega⟩
    have hn : l.length ≤ n := by simpa using hn
    have hused := hok.used
    rw [hsplit] at hused
    obtain ⟨w, -, -, hrest⟩ := path_append.1 hused
    have hnext : k.links.next c = l.head? := Linked.head hrest
    have hc : c ∈ k.pkts.usedCtxs := by rw [hsplit]; simp
    obtain ⟨k', hclose, hok', hpkts⟩ := hok.closeAt cbs now hc
    have hsplit' : ∃ done', k'.pkts.usedCtxs = done' ++ l := by
      rw [hpkts]
      by_cases hexp : (k.pkts.ctxs c).expired now = true
      · rw [(ended_kaClose cbs hexp).used, hsplit]
        have hcd : c ∉ done := by
          intro hm
          exact (List.nodup_append.1 (Linked.nodup hused)).2.2 c hm c List.mem_cons_self rfl
        rw [List.erase_append_right _ hcd, List.erase_cons_head]
        exact ⟨done, rfl⟩
      · rw [kaClose_of_not_expired cbs hexp, hsplit]
        exact ⟨done ++ [c], by simp⟩
    obtain ⟨done', hsplit'⟩ := hsplit'
    obtain ⟨k'', hloop, hok'', hpkts'⟩ := ih hn hok' hsplit'
    refine ⟨k'', ?_, hok'', ?_⟩
    · rw [List.head?_cons, kaLoop, hclose, Option.bind_some, hnext]
      exact hloop
    · rw [hpkts', hpkts, List.foldl_cons]

/-! ## The time to wait -/

def Sorted (s : State σ U) : Prop :=
  s.usedCtxs.Pairwise fun c d => (s.ctxs c).timeout ≤ (s.ctxs d).timeout

/-- `wait` leads to the earliest deadline, if a context has one. -/
def WaitFor (s : State σ U) (now wait : UInt32) : Prop :=
  (∀ c ∈ s.usedCtxs, (s.ctxs c).timeout = Pkts.kaTimeoutNone) ∧ wait = ioMonNoTimeout ∨
  ∃ c ∈ s.usedCtxs, (s.ctxs c).timeout ≠ Pkts.kaTimeoutNone ∧
    (∀ d ∈ s.usedCtxs, (s.ctxs c).timeout ≤ (s.ctxs d).timeout) ∧
    now < (s.ctxs c).timeout ∧ now.toNat + wait.toNat = (s.ctxs c).timeout.toNat

theorem eq_kaTimeoutNone {t : UInt32} (h : Pkts.kaTimeoutNone ≤ t) : t = Pkts.kaTimeoutNone := by
  have hlt := t.toNat_lt
  have hle : 4294967295 ≤ t.toNat := UInt32.le_iff_toNat_le.1 h
  have heq : t.toNat = 4294967295 := by omega
  exact UInt32.toNat_inj.1 heq

theorem waitFor_head {s : State σ U} {now : UInt32} (hsorted : Sorted s)
    (hnow : ∀ c ∈ s.usedCtxs, now < (s.ctxs c).timeout) :
    WaitFor s now (match s.usedCtxs.head? with
      | none => ioMonNoTimeout
      | some c =>
        if (s.ctxs c).timeout = Pkts.kaTimeoutNone then ioMonNoTimeout
        else (s.ctxs c).timeout - now) := by
  unfold WaitFor Sorted at *
  cases hl : s.usedCtxs with
  | nil => exact .inl ⟨nofun, rfl⟩
  | cons c l =>
    rw [hl] at hsorted hnow
    have hmin : ∀ d ∈ c :: l, (s.ctxs c).timeout ≤ (s.ctxs d).timeout := by
      intro d hd
      rcases List.mem_cons.1 hd with rfl | hd
      · exact UInt32.le_refl _
      · exact (List.pairwise_cons.1 hsorted).1 d hd
    rw [List.head?_cons]
    by_cases hnone : (s.ctxs c).timeout = Pkts.kaTimeoutNone
    · simp only [hnone, if_true]
      exact .inl ⟨fun d hd => eq_kaTimeoutNone (hnone ▸ hmin d hd), trivial⟩
    · simp only [hnone, if_false]
      have hlt := hnow c List.mem_cons_self
      refine .inr ⟨c, List.mem_cons_self, hnone, hmin, hlt, ?_⟩
      have hnat := UInt32.lt_iff_toNat_lt.1 hlt
      have hsub := UInt32.toNat_sub_of_le _ _ (UInt32.le_of_lt hlt)
      omega

/-! ## The sweep -/

/-- When the turn of `c` comes, a send to it has failed. -/
def FlaggedAtTurn (cbs : MsgCbs σ U A) (now : UInt32) (s : State σ U) (c : CtxIdx) : Prop :=
  ∃ l₁ l₂, s.usedCtxs = l₁ ++ c :: l₂ ∧
    ((l₁.foldl (kaClose cbs now) s).ctxs c).networkClose = true

/-- The sweep closes the contexts whose deadline has passed and those that are flagged, keeps the
others as they are, and gives the time to the earliest deadline that is left. -/
structure SweepExact (cbs : MsgCbs σ U A) (k : Threaded σ U) (now : UInt32) (k' : Threaded σ U)
    (wait : UInt32) : Prop where
  ok : k'.Ok
  sorted : Sorted k'.pkts
  closes : ∃ out, k'.pkts.log = k.pkts.log ++ out ∧
    (∀ c, .closed c ∈ out ↔ c ∈ k.pkts.usedCtxs ∧
      ((k.pkts.ctxs c).timeout ≤ now ∨ FlaggedAtTurn cbs now k.pkts c)) ∧
    k'.pkts.usedCtxs.Sublist k.pkts.usedCtxs ∧
    (∀ c ∈ k.pkts.usedCtxs, c ∈ k'.pkts.usedCtxs ↔ .closed c ∉ out) ∧
    ∀ c, .closed c ∉ out → MarkedAt k.pkts k'.pkts c
  flagged : ∀ c ∈ k.pkts.usedCtxs, (k.pkts.ctxs c).networkClose = true →
    FlaggedAtTurn cbs now k.pkts c
  wait : WaitFor k'.pkts now wait

theorem markedAt_foldl (cbs : MsgCbs σ U A) (now : UInt32) {c : CtxIdx} {l : List CtxIdx}
    (hc : c ∉ l) (s : State σ U) : MarkedAt s (l.foldl (kaClose cbs now) s) c := by
  induction l generalizing s with
  | nil => exact .refl s c
  | cons d l ih =>
    rw [List.mem_cons, not_or] at hc
    obtain ⟨hcd, hc⟩ := hc
    exact (othersMarked_kaClose cbs now s d c hcd).trans (ih hc _)

/-- The contexts before `c` leave its deadline alone, and do not take its flag away. -/
theorem markedAt_turn (cbs : MsgCbs σ U A) (now : UInt32) {s : State σ U}
    (hnodup : s.usedCtxs.Nodup) {c : CtxIdx} {l₁ l₂ : List CtxIdx}
    (hsplit : s.usedCtxs = l₁ ++ c :: l₂) : MarkedAt s (l₁.foldl (kaClose cbs now) s) c := by
  rw [hsplit] at hnodup
  refine markedAt_foldl cbs now (fun hm => ?_) s
  exact (List.nodup_append.1 hnodup).2.2 c hm c List.mem_cons_self rfl

theorem flaggedAtTurn_of_flag (cbs : MsgCbs σ U A) (now : UInt32) {s : State σ U}
    (hnodup : s.usedCtxs.Nodup) {c : CtxIdx} (hc : c ∈ s.usedCtxs)
    (hflag : (s.ctxs c).networkClose = true) : FlaggedAtTurn cbs now s c := by
  obtain ⟨l₁, l₂, hsplit⟩ := List.append_of_mem hc
  obtain ⟨e, m, hmark, he⟩ := markedAt_turn cbs now hnodup hsplit
  refine ⟨l₁, l₂, hsplit, ?_⟩
  rw [he]
  exact hmark hflag

theorem expired_iff {x : ClientCtx U} {now : UInt32} :
    x.expired now = true ↔ x.networkClose = true ∨ x.timeout ≤ now := by
  simp [ClientCtx.expired]

theorem Swept.closed_iff {cbs : MsgCbs σ U A} {now : UInt32} {s s' : State σ U}
    {out : List (Obs U)} (hnodup : s.usedCtxs.Nodup) (h : Swept cbs now s.usedCtxs s s' out)
    (c : CtxIdx) :
    .closed c ∈ out ↔ c ∈ s.usedCtxs ∧
      ((s.ctxs c).timeout ≤ now ∨ FlaggedAtTurn cbs now s c) := by
  rw [h.closed c]
  constructor
  · rintro ⟨l₁, l₂, hsplit, hexp⟩
    refine ⟨by rw [hsplit]; simp, ?_⟩
    rcases expired_iff.1 hexp with hflag | hdue
    · exact .inr ⟨l₁, l₂, hsplit, hflag⟩
    · rw [(markedAt_turn cbs now hnodup hsplit).timeout] at hdue
      exact .inl hdue
  · rintro ⟨hc, hdue | ⟨l₁, l₂, hsplit, hflag⟩⟩
    · obtain ⟨l₁, l₂, hsplit⟩ := List.append_of_mem hc
      refine ⟨l₁, l₂, hsplit, expired_iff.2 (.inr ?_)⟩
      rw [(markedAt_turn cbs now hnodup hsplit).timeout]
      exact hdue
    · exact ⟨l₁, l₂, hsplit, expired_iff.2 (.inl hflag)⟩

theorem Threaded.Ok.sweep {k : Threaded σ U} (hok : k.Ok) (hsorted : Sorted k.pkts)
    (cbs : MsgCbs σ U A) (now : UInt32) :
    ∃ k' wait, kaSequenceWait cbs k now = some (k', wait) ∧ SweepExact cbs k now k' wait := by
  have hnodup := Linked.nodup hok.used
  have hlen : k.pkts.usedCtxs.length ≤ maxNwconn := by
    simpa using Linked.length_le hok.used
  obtain ⟨k', hloop, hok', hpkts⟩ :=
    @Threaded.Ok.loop _ _ _ cbs now _ [] _ _ hlen hok rfl
  obtain ⟨out, hswept⟩ := swept_foldl cbs now (l := k.pkts.usedCtxs) hnodup
  rw [← hpkts] at hswept
  have hcloses := hswept.closed_iff hnodup
  have hkept : ∀ c ∈ k'.pkts.usedCtxs, c ∈ k.pkts.usedCtxs ∧ .closed c ∉ out := by
    intro c hc
    have hu := hswept.order.subset hc
    exact ⟨hu, (hswept.kept c hu).1 hc⟩
  have hsame : ∀ c ∈ k'.pkts.usedCtxs, (k'.pkts.ctxs c).timeout = (k.pkts.ctxs c).timeout :=
    fun c hc => (hswept.same c (hkept c hc).2).timeout
  have hsorted' : Sorted k'.pkts := by
    refine (hsorted.sublist hswept.order).imp_of_mem fun {c d} hc hd hcd => ?_
    rw [hsame c hc, hsame d hd]
    exact hcd
  have hnow : ∀ c ∈ k'.pkts.usedCtxs, now < (k'.pkts.ctxs c).timeout := by
    intro c hc
    obtain ⟨hu, hout⟩ := hkept c hc
    rw [hsame c hc]
    exact UInt32.not_le.1 fun hdue => hout ((hcloses c).2 ⟨hu, .inl hdue⟩)
  unfold kaSequenceWait
  rw [Linked.head hok.used, hloop]
  refine ⟨k', _, rfl, hok', hsorted', ?_, ?_, ?_⟩
  · exact ⟨out, hswept.log, hcloses, hswept.order, hswept.kept, hswept.same⟩
  · exact fun c hc hflag => flaggedAtTurn_of_flag cbs now hnodup hc hflag
  · rw [Linked.head hok'.used]
    exact waitFor_head hsorted' hnow

/-! ## Lists and sweeps -/

/-- The list of the contexts in use is kept in order through a run exactly where every operation of
it is orderly; and the sweep over a list in order is exact. -/
theorem usedCtxs_exact {C : Type} [Fintype C] [DecidableEq C] (ops : List (CtxOp C))
    (cbs : MsgCbs σ U A) (k : Threaded σ U) (now : UInt32) :
    (Meets ctxStep Keeps noCtxs ops ↔ Meets ctxStep Orderly noCtxs ops) ∧
      (k.Ok → Sorted k.pkts →
        ∃ k' wait, kaSequenceWait cbs k now = some (k', wait) ∧ SweepExact cbs k now k' wait) :=
  ⟨meets_keeps_iff ops, fun hok hsorted => hok.sweep hsorted cbs now⟩

def threeCtxs : Threaded Unit Unit where
  pkts := { clCtxInit () with
    ctxs := fun c => { clCtxReset with timeout := if c = 2 then 9 else 2 }
    usedCtxs := [0, 1, 2]
    freeCtxs := [] }
  links := ⟨fun c => if c = 0 then some 1 else if c = 1 then some 2 else none, some 0⟩
  free := none

/-- Two contexts come and one of them goes; of the three in use, two are due, and the third is next. -/
theorem usedCtxs_exact_three :
    Meets ctxStep Keeps noCtxs [.insert (0 : Fin 2) 5 none, .insert 1 3 none, .remove 0] ∧
    ∃ k' wait, kaSequenceWait acceptingCore threeCtxs 3 = some (k', wait) ∧
      SweepExact acceptingCore threeCtxs 3 k' wait ∧ k'.pkts.usedCtxs = [2] ∧ wait = 6 := by
  have hboth := usedCtxs_exact (C := Fin 2) [.insert 0 5 none, .insert 1 3 none, .remove 0]
    acceptingCore threeCtxs 3
  refine ⟨hboth.1.2 ⟨⟨by decide, .inl rfl⟩, ⟨by decide, .inl rfl⟩, trivial, trivial⟩, ?_⟩
  obtain ⟨k', wait, hrun, hexact⟩ := hboth.2
    ⟨⟨rfl, rfl, rfl, rfl⟩, rfl, fun _ _ => nofun⟩ (by unfold Sorted; decide)
  obtain ⟨x, hx, hused, hwait⟩ : ∃ x, kaSequenceWait acceptingCore threeCtxs 3 = some x ∧
      x.1.pkts.usedCtxs = [2] ∧ x.2 = 6 := ⟨_, rfl, rfl, rfl⟩
  cases hrun.symm.trans hx
  exact ⟨k', wait, hrun, hexact, hused, hwait⟩

/-- Context 0 connects, then context 1, and then the receive task runs. -/
theorem used_ctxs_lost :
    ¬ ∀ ops : List (CtxOp (Fin 6)), Meets ctxStep Keeps noCtxs ops := by
  intro h
  exact conn2used_not_orderly (fun _ => 7) 1 0 [] ((meets_keeps_iff _).1 (h _))

end SimpleLink.Server.Pkts
