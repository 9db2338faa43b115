import SimpleLink.Client.PoolRx
import SimpleLink.Server.RxParse

/-!
# PUBRECs received by the client library (`_proc_pub_rec_rx`)

A PUBREC of a QoS2 PUBLISH that waits for it takes the packet off the wait list, records the
identifier and has a PUBREL sent. The handler looks at the first packet of the list, whatever that
packet is, and takes it off if the identifier is the same: it does what it should when the PUBLISH is
the first packet, and otherwise when there is nothing to do (`pubRec_right_iff`). An identifier that
is on record is never answered again, and an empty list has no first packet.
-/

namespace SimpleLink.Client

open SimpleLink.Lib SimpleLink.Mqtt

/-! ## The handler before it sends -/

/-- What `_proc_pub_rec_rx` does to the lists, and whether it goes on to send the PUBREL. -/
def pubRecLists (l : ClientLib) (c : CtxIdx) (msgId : UInt16) : Option (ClientLib × Bool) :=
  match (l.ctxs c).qosAck1Wl with
  | [] => none
  | i :: _ =>
    if msgId = (l.mqps i).msgId then
      match qos2PubCqLogup (l.ctxs c).qos2TxCq msgId with
      | none => none
      | some (_, false) => some (l, false)
      | some (cq, true) =>
        some ((ack1WlRmfree (l.setCtx c { l.ctxs c with qos2TxCq := cq }) c msgId).1, true)
    else some (l, false)

theorem procPubRecRx_eq (l : ClientLib) (c : CtxIdx) (msgId : UInt16) :
    procPubRecRx l c msgId = (pubRecLists l c msgId).map fun r =>
      (if r.2 then (vhMsgSend r.1 c .pubrel msgId).1 else r.1, r.2) := by
  unfold procPubRecRx pubRecLists
  cases (l.ctxs c).qosAck1Wl with
  | nil => rfl
  | cons i is =>
    by_cases hid : msgId = (l.mqps i).msgId
    · simp only [if_pos hid]
      rcases qos2PubCqLogup (l.ctxs c).qos2TxCq msgId with _ | ⟨cq, _ | _⟩ <;> rfl
    · simp only [if_neg hid]
      rfl

/-! ## What a PUBREC asks for -/

section

-- `fh i` is the `fh_byte1` of packet `i`, which the handler does not read
variable (fh : Nat → UInt8)

/-- Packet `i` is a QoS2 PUBLISH with the identifier. -/
def awaitsRec (l : ClientLib) (msgId : UInt16) (i : Nat) : Bool :=
  (l.mqps i).msgType = .publish && Server.enumQos (fh i) = 2 && (l.mqps i).msgId = msgId

/-- The library without packet `i` in the wait list, the identifier being on record in `cq`. -/
def pubRecTaken (l : ClientLib) (c : CtxIdx) (msgId : UInt16) (cq : PubQos2Cq) (i : Nat) : ClientLib :=
  freeMqp (l.setCtx c { l.ctxs c with
    qos2TxCq := cq
    qosAck1Wl := (l.ctxs c).qosAck1Wl.eraseP (awaitsRec fh l msgId) }) i

def PubRecLists (l : ClientLib) (c : CtxIdx) (msgId : UInt16) (l' : ClientLib) (sends : Bool) : Prop :=
  match (l.ctxs c).qosAck1Wl.find? (awaitsRec fh l msgId) with
  | some i =>
    ∃ cq, qos2PubCqLogup (l.ctxs c).qos2TxCq msgId = some (cq, true) ∧
      l' = pubRecTaken fh l c msgId cq i ∧ sends = true
  | none => l' = l ∧ (msgId ∈ (l.ctxs c).qos2TxCq.recorded → sends = true)

/-- The handler comes back, with the lists as they are to be and the PUBREL sent from there. -/
def PubRecRight (l : ClientLib) (c : CtxIdx) (msgId : UInt16) : Prop :=
  ∃ l' sends, pubRecLists l c msgId = some (l', sends) ∧
    procPubRecRx l c msgId =
      some (if sends then (vhMsgSend l' c .pubrel msgId).1 else l', sends) ∧
    PubRecLists fh l c msgId l' sends

/-- The first packet is the QoS2 PUBLISH and can be recorded, or no packet is, the identifier is not
on record and the first packet, if it has the identifier too, cannot be recorded. -/
def PubRecCond (l : ClientLib) (c : CtxIdx) (msgId : UInt16) : Prop :=
  match (l.ctxs c).qosAck1Wl with
  | [] => False
  | i :: is =>
    if awaitsRec fh l msgId i then
      (l.ctxs c).qos2TxCq.nFree ≠ 0 ∧ (l.ctxs c).qos2TxCq.wrIdx < maxPubrelInflt
    else (∀ j ∈ is, awaitsRec fh l msgId j = false) ∧ msgId ∉ (l.ctxs c).qos2TxCq.recorded ∧
      ((l.mqps i).msgId ≠ msgId ∨ (l.ctxs c).qos2TxCq.nFree = 0)

end

/-! ## The outcomes -/

theorem logup_room {cq : PubQos2Cq} (msgId : UInt16) (hfree : cq.nFree ≠ 0)
    (hwr : cq.wrIdx < maxPubrelInflt) : ∃ cq', qos2PubCqLogup cq msgId = some (cq', true) := by
  unfold qos2PubCqLogup
  rw [if_pos hfree, dif_pos hwr]
  exact ⟨_, rfl⟩

theorem room_of_logup {cq cq' : PubQos2Cq} {msgId : UInt16}
    (h : qos2PubCqLogup cq msgId = some (cq', true)) :
    cq.nFree ≠ 0 ∧ cq.wrIdx < maxPubrelInflt := by
  unfold qos2PubCqLogup at h
  by_cases hfree : cq.nFree ≠ 0
  · rw [if_pos hfree] at h
    by_cases hwr : cq.wrIdx < maxPubrelInflt
    · exact ⟨hfree, hwr⟩
    · rw [dif_neg hwr] at h
      cases h
  · rw [if_neg hfree] at h
    cases h

theorem pubRecLists_taken {l : ClientLib} {c : CtxIdx} {msgId : UInt16} {i : Nat} {is : List Nat}
    {cq : PubQos2Cq} (hwl : (l.ctxs c).qosAck1Wl = i :: is) (hid : msgId = (l.mqps i).msgId)
    (hlog : qos2PubCqLogup (l.ctxs c).qos2TxCq msgId = some (cq, true)) :
    pubRecLists l c msgId = some
      (freeMqp (l.setCtx c { l.ctxs c with qos2TxCq := cq, qosAck1Wl := is }) i, true) := by
  have hwl' : ((l.setCtx c { l.ctxs c with qos2TxCq := cq }).ctxs c).qosAck1Wl = i :: is := by
    rw [setCtx_ctxs_self]
    exact hwl
  have hrm := ack1WlRmfree_head hwl' hid
  unfold pubRecLists
  rw [hwl]
  simp only [if_pos hid, hlog]
  rw [hrm, setCtx_ctxs_self]
  simp only [ClientLib.setCtx, Function.update_idem]

theorem pubRecLists_kept {l : ClientLib} {c : CtxIdx} {msgId : UInt16} {i : Nat} {is : List Nat}
    (hwl : (l.ctxs c).qosAck1Wl = i :: is)
    (hkept : (l.mqps i).msgId ≠ msgId ∨ (l.ctxs c).qos2TxCq.nFree = 0) :
    pubRecLists l c msgId = some (l, false) := by
  unfold pubRecLists
  rw [hwl]
  by_cases hid : msgId = (l.mqps i).msgId
  · have hfull : ¬ (l.ctxs c).qos2TxCq.nFree ≠ 0 :=
      not_not.2 (hkept.resolve_left fun hne => hne hid.symm)
    simp only [if_pos hid, qos2PubCqLogup, if_neg hfull]
  · simp only [if_neg hid]

theorem pubRecLists_cases {l l' : ClientLib} {c : CtxIdx} {msgId : UInt16} {sends : Bool}
    (h : pubRecLists l c msgId = some (l', sends)) :
    ∃ i is, (l.ctxs c).qosAck1Wl = i :: is ∧
      (((l.mqps i).msgId ≠ msgId ∨ (l.ctxs c).qos2TxCq.nFree = 0) ∧ l' = l ∧ sends = false ∨
        msgId = (l.mqps i).msgId ∧ ∃ cq, qos2PubCqLogup (l.ctxs c).qos2TxCq msgId = some (cq, true) ∧
          l' = freeMqp (l.setCtx c { l.ctxs c with qos2TxCq := cq, qosAck1Wl := is }) i ∧
          sends = true) := by
  cases hwl : (l.ctxs c).qosAck1Wl with
  | nil =>
    unfold pubRecLists at h
    rw [hwl] at h
    cases h
  | cons i is =>
    refine ⟨i, is, rfl, ?_⟩
    by_cases hkept : (l.mqps i).msgId ≠ msgId ∨ (l.ctxs c).qos2TxCq.nFree = 0
    · rw [pubRecLists_kept hwl hkept] at h
      cases h
      exact .inl ⟨hkept, rfl, rfl⟩
    · push Not at hkept
      obtain ⟨hid, hfree⟩ := hkept
      have hlog : ∃ cq, qos2PubCqLogup (l.ctxs c).qos2TxCq msgId = some (cq, true) := by
        refine logup_room msgId hfree ?_
        by_contra hwr
        unfold pubRecLists at h
        rw [hwl] at h
        simp only [if_pos hid.symm, qos2PubCqLogup, if_pos hfree, dif_neg hwr] at h
        cases h
      obtain ⟨cq, hlog⟩ := hlog
      rw [pubRecLists_taken hwl hid.symm hlog] at h
      cases h
      exact .inr ⟨hid.symm, cq, hlog, rfl, rfl⟩

theorem qosAck1Wl_freeMqp_setCtx (l : ClientLib) (c : CtxIdx) (x : ClientDesc) (i : Nat) :
    ((freeMqp (l.setCtx c x) i).ctxs c).qosAck1Wl = x.qosAck1Wl := by
  rw [(sameCtxs_freeMqp ..).ctxs, setCtx_ctxs_self]

theorem tail_ne_eraseP {p : Nat → Bool} {i : Nat} {is : List Nat} (hi : p i = false)
    (his : ∃ j ∈ is, p j = true) : is ≠ (i :: is).eraseP p := by
  intro heq
  obtain ⟨j, hj, hpj⟩ := his
  obtain ⟨k, l₁, l₂, -, hk, hsplit, herase⟩ := List.exists_of_eraseP hj hpj
  rw [List.eraseP_cons_of_neg (by simp [hi]), herase] at heq
  have hcount := congrArg (List.countP p) heq
  rw [hsplit, List.countP_append, List.countP_cons_of_pos hk,
    List.countP_cons_of_neg (by simp [hi]), List.countP_append] at hcount
  omega

/-! ## Main result -/

section

variable (fh : Nat → UInt8)

theorem awaitsRec_msgId {l : ClientLib} {msgId : UInt16} {i : Nat}
    (h : awaitsRec fh l msgId i = true) : msgId = (l.mqps i).msgId := by
  simp only [awaitsRec, Bool.and_eq_true, decide_eq_true_eq] at h
  exact h.2.symm

theorem pubRecRight_of_lists {l l' : ClientLib} {c : CtxIdx} {msgId : UInt16} {sends : Bool}
    (hp : pubRecLists l c msgId = some (l', sends)) :
    PubRecRight fh l c msgId ↔ PubRecLists fh l c msgId l' sends := by
  constructor
  · rintro ⟨l'', sends'', hp', -, hlists⟩
    rw [hp] at hp'
    cases hp'
    exact hlists
  · intro hlists
    refine ⟨l', sends, hp, ?_, hlists⟩
    rw [procPubRecRx_eq, hp, Option.map_some]

theorem pubRec_head_iff {l : ClientLib} {c : CtxIdx} {msgId : UInt16} {i : Nat} {is : List Nat}
    (hwl : (l.ctxs c).qosAck1Wl = i :: is) (hi : awaitsRec fh l msgId i = true) :
    PubRecRight fh l c msgId ↔
      (l.ctxs c).qos2TxCq.nFree ≠ 0 ∧ (l.ctxs c).qos2TxCq.wrIdx < maxPubrelInflt := by
  have hfind : (l.ctxs c).qosAck1Wl.find? (awaitsRec fh l msgId) = some i := by
    rw [hwl, List.find?_cons_of_pos hi]
  constructor
  · rintro ⟨l', sends, -, -, hlists⟩
    unfold PubRecLists at hlists
    rw [hfind] at hlists
    obtain ⟨cq, hlog, -⟩ := hlists
    exact room_of_logup hlog
  · rintro ⟨hfree, hwr⟩
    obtain ⟨cq, hlog⟩ := logup_room msgId hfree hwr
    rw [pubRecRight_of_lists fh (pubRecLists_taken hwl (awaitsRec_msgId fh hi) hlog)]
    unfold PubRecLists pubRecTaken
    rw [hfind, hwl, List.eraseP_cons_of_pos hi]
    exact ⟨cq, hlog, rfl, rfl⟩

theorem pubRec_other_iff {l : ClientLib} {c : CtxIdx} {msgId : UInt16} {i : Nat} {is : List Nat}
    (hwl : (l.ctxs c).qosAck1Wl = i :: is) (hi : awaitsRec fh l msgId i = false) :
    PubRecRight fh l c msgId ↔
      (∀ j ∈ is, awaitsRec fh l msgId j = false) ∧ msgId ∉ (l.ctxs c).qos2TxCq.recorded ∧
        ((l.mqps i).msgId ≠ msgId ∨ (l.ctxs c).qos2TxCq.nFree = 0) := by
  have hfind : (l.ctxs c).qosAck1Wl.find? (awaitsRec fh l msgId) =
      is.find? (awaitsRec fh l msgId) := by
    rw [hwl, List.find?_cons_of_neg (by simp [hi])]
  constructor
  · rintro ⟨l', sends, hp, -, hlists⟩
    unfold PubRecLists at hlists
    rw [hfind] at hlists
    obtain ⟨i', is', hwl', hcases⟩ := pubRecLists_cases hp
    rw [hwl] at hwl'
    cases hwl'
    cases hlater : is.find? (awaitsRec fh l msgId) with
    | some j =>
      -- a later packet is the PUBLISH: the head is taken off instead, or nothing is
      rw [hlater] at hlists
      obtain ⟨cq, -, hl', hsends⟩ := hlists
      obtain ⟨-, -, hsends'⟩ | ⟨-, cq', -, hl'', -⟩ := hcases
      · rw [hsends'] at hsends
        cases hsends
      · have hwls := congrArg (fun m : ClientLib => (m.ctxs c).qosAck1Wl) (hl''.symm.trans hl')
        unfold pubRecTaken at hwls
        simp only [qosAck1Wl_freeMqp_setCtx, hwl] at hwls
        exact absurd hwls
          (tail_ne_eraseP hi ⟨j, List.mem_of_find?_eq_some hlater, List.find?_some hlater⟩)
    | none =>
      rw [hlater] at hlists
      obtain ⟨hl', hagain⟩ := hlists
      obtain ⟨hkept, -, hsends⟩ | ⟨-, cq', -, hl'', -⟩ := hcases
      · refine ⟨?_, ?_, hkept⟩
        · simpa using hlater
        · intro hrec
          rw [hsends] at hagain
          exact absurd (hagain hrec) Bool.false_ne_true
      · have hwls := congrArg (fun m : ClientLib => (m.ctxs c).qosAck1Wl) (hl''.symm.trans hl')
        simp only [qosAck1Wl_freeMqp_setCtx, hwl] at hwls
        exact absurd hwls (List.cons_ne_self i is).symm
  · rintro ⟨hnone, hrec, hkept⟩
    rw [pubRecRight_of_lists fh (pubRecLists_kept hwl hkept)]
    have hlater : is.find? (awaitsRec fh l msgId) = none := by
      rw [List.find?_eq_none]
      intro j hj
      simp [hnone j hj]
    unfold PubRecLists
    rw [hfind, hlater]
    exact ⟨rfl, fun h => absurd h hrec⟩

/-- A PUBREC is handled right exactly if the PUBLISH it answers is the first packet that waits and can
be recorded, or some packet waits and the PUBREC answers nothing at all. -/
theorem pubRec_right_iff (l : ClientLib) (c : CtxIdx) (msgId : UInt16) :
    PubRecRight fh l c msgId ↔ PubRecCond fh l c msgId := by
  unfold PubRecCond
  cases hwl : (l.ctxs c).qosAck1Wl with
  | nil =>
    constructor
    · rintro ⟨l', sends, hp, -⟩
      obtain ⟨i, is, hwl', -⟩ := pubRecLists_cases hp
      rw [hwl] at hwl'
      cases hwl'
    · exact False.elim
  | cons i is =>
    dsimp only
    cases hi : awaitsRec fh l msgId i with
    | true =>
      rw [if_pos rfl]
      exact pubRec_head_iff fh hwl hi
    | false =>
      rw [if_neg Bool.false_ne_true]
      exact pubRec_other_iff fh hwl hi

end

/-! ## What goes wrong -/

/-- A connected context with packets 0 to `n - 1` waiting, identifiers 1 to `n`; the last one is a
PUBLISH. -/
def waitingLib (n : Nat) : ClientLib :=
  let l := clientInit (fun _ => ⟨true, false, true⟩) (fun _ => 100) n
  { l with
    ctxs := fun _ => { clientReset with
      net := true
      nowConnected := true
      qosAck1Wl := List.range n }
    mqps := fun i => ⟨if i + 1 = n then .publish else .subscribe, UInt16.ofNat (i + 1), 1, 8⟩
    freeList := [] }

/-- A PUBREC when nothing waits dereferences the empty list, and one of a QoS2 PUBLISH that was sent
after a SUBSCRIBE is lost. -/
theorem pubRec_not_right :
    procPubRecRx (waitingLib 0) 0 7 = none ∧
      ¬ PubRecRight (fun _ => 0x34) (waitingLib 0) 0 7 ∧
      (waitingLib 2).ctxs 0 = { clientReset with
        net := true
        nowConnected := true
        qosAck1Wl := [0, 1] } ∧
      awaitsRec (fun _ => 0x34) (waitingLib 2) 2 1 = true ∧
      ¬ PubRecRight (fun _ => 0x34) (waitingLib 2) 0 2 := by
  refine ⟨rfl, ?_, by decide, by decide, ?_⟩
  · rintro ⟨l', sends, hp, -⟩
    obtain ⟨i, is, hwl, -⟩ := pubRecLists_cases hp
    cases hwl
  · have hwl : ((waitingLib 2).ctxs 0).qosAck1Wl = [0, 1] := rfl
    rw [pubRec_other_iff (fun _ => 0x34) hwl (by decide)]
    rintro ⟨hnone, -⟩
    exact absurd (hnone 1 (by decide)) (by decide)

end SimpleLink.Client
