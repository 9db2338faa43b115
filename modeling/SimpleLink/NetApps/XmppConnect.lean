import Mathlib.Data.List.Forall2
import Mathlib.Data.List.Infix
import SimpleLink.NetApps.Xmpp

/-!
# The XMPP handshake

`Handshake` is the six requests of the connection and the answers to them, in their order, among
what was done with one socket. A call that returns with the connection established has had it, on a
run within `XmppCond`: the state machine is not in its last state when the call begins, no send
fails, the peer neither closes nor fails while a call waits, and each piece of data is a string in
the buffer that has the marks the validator of the state relies on.
-/

namespace SimpleLink.NetApps.Xmpp

open Smtp (Bytes ascii)
open Lib

/-! ## The handshake -/

def Has (text p : Bytes) : Prop := text <:+: cString p

/-- A stream header whose `from` is the domain. -/
def HeaderFrom (domain p : Bytes) : Prop :=
  Has streamTag p ∧ ∃ quote, Has (fromTag ++ quote :: (domain ++ [quote])) p

/-- A bind result with the string that is in `MyJid`. -/
def CarriesJid (myJid p : Bytes) : Prop :=
  Has resultWord p ∧ Has bindWord p ∧
    ∃ jid, jidTag ++ (jid ++ [0x3C]) <:+: p ∧ jid ++ [0] <+: myJid

def Sent (r : Request) (e : Ev) : Prop := ∃ text, e = .sent r text true

def Got (P : Bytes → Prop) (e : Ev) : Prop := ∃ p, e = .received p ∧ P p

def handshakeSteps (domain myJid : Bytes) : List (Ev → Prop) :=
  [Sent .stream, Got (HeaderFrom domain), Sent .auth, Got (Has successTag), Sent .stream,
    Got (Has bindTag), Sent .bind, Got (CarriesJid myJid), Sent .session, Got (Has resultWord),
    Sent .roster, Got fun p => Has rosterTag p ∧ Has rosterId p]

def Follows (steps : List (Ev → Prop)) (log : List Ev) : Prop :=
  ∃ l, List.Sublist l log ∧ List.Forall₂ (fun P e => P e) steps l

def Handshake (domain myJid : Bytes) (log : List Ev) : Prop :=
  Follows (handshakeSteps domain myJid) log

/-- What a caller relies on at each step: it has an outcome, an established connection has had the
handshake, and a call whose peer closes or fails returns an error. -/
def ConnectOk (o : Opts) (s : Client) (i : Input) : Prop :=
  ∃ s' r, clientStep o s i = some (s', r) ∧
    (∀ ret, r = some ret → 0 ≤ ret.value → ret.status = .connectionEstablished →
      Handshake o.domain s'.g.myJid ret.log) ∧
    (s.call.isSome → i = .recv .closed ∨ i = .recv .failed → ∃ ret, r = some ret ∧ ret.value < 0)

/-! ## The condition -/

/-- A value in quotes, of which the domain is no mere beginning. -/
def QuotedValue (domain text : Bytes) : Prop :=
  ∃ quote value rest, text = quote :: (value ++ quote :: rest) ∧ 0 ∉ quote :: value ∧
    (domain <+: value ++ quote :: rest → value = domain)

/-- Each item of the roster has a name that is not empty, ends with a blank and fits. -/
inductive ItemsOk : Bytes → Prop
  | none {buf : Bytes} : strstr itemTag buf = some none → ItemsOk buf
  | item {buf pJid jid rest : Bytes} : strstr itemTag buf = some (some pJid) →
      pJid.drop 10 = jid ++ 0x20 :: rest → 0x20 ∉ jid → jid ≠ [] → jid.length ≤ jidSize →
      ItemsOk (0x20 :: rest) → ItemsOk buf

def AnswerOk (o : Opts) (status : XmppStatus) (buf : Bytes) : Prop :=
  match status with
  | .firstStreamSent => 0 ∉ o.domain ∧ ∀ s, strstr streamTag buf = some (some s) →
      ∃ t, strstr fromTag buf = some (some t) ∧ QuotedValue o.domain (t.drop 5)
  | .bindConfigRecv => hasBoth resultWord bindWord buf = some true →
      ∀ t, strstr jidTag buf = some (some t) →
        ∃ jid rest, t.drop 5 = jid ++ 0x3C :: rest ∧ 0x3C ∉ jid ∧ jid.length < jidSize
  | .rosterResponse => hasBoth rosterTag rosterId buf = some true → ItemsOk buf
  | _ => True

def Attempt.Opens (o : Opts) (a : Attempt) : Prop :=
  o.setStatus = 0x1F ∧ 0 ≤ a.socket ∧ 0 ≤ a.method ∧ 0 ≤ a.cipher ∧
    (0 ≤ a.connect ∨ a.connect = SL_ESECSNOVERIFY)

def Request.asks : Request → Bool
  | .presence | .empty => false
  | _ => true

def AllSent (log : List Ev) : Prop := ∀ r text, r.asks = true → .sent r text false ∉ log

/-- The state machine does not begin with the connection established; a call that waits has sent its
requests, its peer does not close or fail, and the data is a string with the marks that are relied
on. -/
def XmppCond (o : Opts) (s : Client) : Input → Prop
  | .connect a => s.call = none → a.Opens o → s.g.gXMPPStatus ≠ .connectionEstablished
  | .recv r => ∀ c, s.call = some c → AllSent c.log ∧ ∃ p, r = .data p ∧ p.length ≤ recvBufSize ∧
      0 ∈ fill p ∧ (cString p ≠ [] → AnswerOk o c.g.gXMPPStatus (fill p))

/-! ## Strings -/

theorem cString_cons {c : UInt8} (hc : c ≠ 0) (s : Bytes) : cString (c :: s) = c :: cString s := by
  rw [cString, List.takeWhile_cons, if_pos (decide_eq_true hc)]
  rfl

theorem prefix_cString {text s : Bytes} (h : text <+: s) (h0 : 0 ∉ text) : text <+: cString s := by
  induction text generalizing s with
  | nil => exact List.nil_prefix
  | cons c text ih =>
    obtain ⟨r, rfl⟩ := h
    rw [List.mem_cons, not_or] at h0
    rw [List.cons_append, cString_cons (Ne.symm h0.1)]
    exact (List.prefix_cons_inj c).mpr (ih ⟨r, rfl⟩ h0.2)

theorem strstr_has {needle buf s text : Bytes} (h : strstr needle buf = some (some s))
    (ht : text <+: s) (h0 : 0 ∉ text) : text <:+: cString buf := by
  induction buf with
  | nil => cases h
  | cons c buf ih =>
    rw [strstr] at h
    split_ifs at h with hpre hc
    · cases h
      exact (prefix_cString ht h0).isInfix
    · cases h
    · rw [cString_cons hc]
      exact (ih h).trans (List.suffix_cons c _).isInfix

theorem strstr_found {needle buf s : Bytes} (h : strstr needle buf = some (some s)) :
    needle <+: s ∧ s <:+ buf := by
  induction buf with
  | nil => cases h
  | cons c buf ih =>
    rw [strstr] at h
    split_ifs at h with hpre hc
    · cases h
      exact ⟨List.isPrefixOf_iff_prefix.mp hpre, List.suffix_refl _⟩
    · cases h
    · exact ⟨(ih h).1, (ih h).2.trans (List.suffix_cons c buf)⟩

theorem strstr_zero {needle buf s : Bytes} (h : strstr needle buf = some (some s)) (h0 : 0 ∈ buf) :
    0 ∈ s := by
  induction buf with
  | nil => cases h
  | cons c buf ih =>
    rw [strstr] at h
    split_ifs at h with hpre hc
    · cases h
      exact h0
    · cases h
    · exact ih h ((List.mem_cons.mp h0).resolve_left (Ne.symm hc))

theorem strstr_isSome (needle : Bytes) {buf : Bytes} (h : 0 ∈ buf) : (strstr needle buf).isSome := by
  induction buf with
  | nil => cases h
  | cons c buf ih =>
    rw [strstr]
    split_ifs with hpre hc
    · rfl
    · rfl
    · exact ih ((List.mem_cons.mp h).resolve_left (Ne.symm hc))

theorem fill_eq (p : Bytes) : fill p = p ++ List.replicate (recvBufSize - p.length) 0 := by
  rw [fill, overwrite, zeros, List.drop_replicate]

theorem cString_append_zeros (p : Bytes) (n : Nat) :
    cString (p ++ List.replicate n 0) = cString p := by
  induction p with
  | nil => cases n <;> rfl
  | cons c p ih =>
    by_cases hc : c = 0
    · subst hc
      rfl
    · rw [List.cons_append, cString_cons hc, cString_cons hc, ih]

theorem cString_fill (p : Bytes) : cString (fill p) = cString p := by
  rw [fill_eq, cString_append_zeros]

theorem strstr_zeros {needle : Bytes} (h : needle.isPrefixOf zeros = false) :
    strstr needle zeros = some none := by
  have hzeros : zeros = 0 :: List.replicate (recvBufSize - 1) 0 := rfl
  rw [hzeros] at h ⊢
  rw [strstr, h]
  rfl

theorem infix_of_zeros {l p : Bytes} {c : UInt8} (hc : c ≠ 0) (n : Nat) :
    l ++ [c] <:+: p ++ List.replicate n 0 → l ++ [c] <:+: p := by
  induction n with
  | zero => rw [List.replicate_zero, List.append_nil]; exact id
  | succ n ih =>
    rintro ⟨s, t, h⟩
    rw [List.replicate_succ', ← List.append_assoc p] at h
    rcases List.eq_nil_or_concat t with rfl | ⟨t, b, rfl⟩
    · rw [List.append_nil, ← List.append_assoc] at h
      exact absurd (List.singleton_inj.mp (List.append_inj' h rfl).2) hc
    · rw [List.concat_eq_append, ← List.append_assoc (s ++ (l ++ [c]))] at h
      exact ih ⟨s, t, (List.append_inj' h rfl).1⟩

theorem strncmpEq_begins {s domain : Bytes} (h0 : 0 ∉ domain)
    (h : strncmpEq s domain = some true) : domain <+: s := by
  induction domain generalizing s with
  | nil => exact List.nil_prefix
  | cons d domain ih =>
    rw [List.mem_cons, not_or] at h0
    cases s with
    | nil => cases h
    | cons c s =>
      rw [strncmpEq] at h
      split_ifs at h with hcd hc
      · cases h
      · exact absurd (hc ▸ not_not.mp hcd) h0.1
      · rw [not_not.mp hcd]
        exact (List.prefix_cons_inj d).mpr (ih h0.2 h)

theorem strncmpEq_isSome {s domain : Bytes} (h : 0 ∈ s) (h0 : 0 ∉ domain) :
    (strncmpEq s domain).isSome := by
  induction domain generalizing s with
  | nil => cases s <;> rfl
  | cons d domain ih =>
    rw [List.mem_cons, not_or] at h0
    cases s with
    | nil => cases h
    | cons c s =>
      rw [strncmpEq]
      split_ifs with hcd hc
      · rfl
      · rfl
      · exact ih ((List.mem_cons.mp h).resolve_left (Ne.symm hc)) h0.2

theorem copyUntil_eq {stop : UInt8} {jid rest : Bytes} (hstop : stop ∉ jid) :
    ∀ {room : Nat}, jid.length ≤ room →
      copyUntil stop room (jid ++ stop :: rest) = some (jid, stop :: rest) := by
  induction jid with
  | nil =>
    intro room _
    cases room <;> simp [copyUntil]
  | cons c jid ih =>
    intro room hroom
    rw [List.mem_cons, not_or] at hstop
    cases room with
    | zero => cases hroom
    | succ room =>
      rw [List.cons_append, copyUntil, if_neg (Ne.symm hstop.1)]
      dsimp only
      rw [ih hstop.2 (Nat.le_of_succ_le_succ hroom)]
      rfl

/-! ## The validators -/

theorem tags_no_zero : 0 ∉ streamTag ∧ 0 ∉ fromTag ∧ 0 ∉ successTag ∧ 0 ∉ bindTag ∧ 0 ∉ resultWord ∧
    0 ∉ bindWord ∧ 0 ∉ jidTag ∧ 0 ∉ rosterTag ∧ 0 ∉ rosterId := by
  decide

section Validators

variable {p : Bytes}

theorem has_of_strstr {needle text s : Bytes} (h : strstr needle (fill p) = some (some s))
    (ht : text <+: s) (h0 : 0 ∉ text) : Has text p := by
  rw [Has, ← cString_fill]
  exact strstr_has h ht h0

theorem strstr_ok (needle : Bytes) (hp : 0 ∈ fill p) : ∃ s, strstr needle (fill p) = some s :=
  Option.isSome_iff_exists.mp (strstr_isSome needle hp)

theorem marked_ok {tag : Bytes} (htag : 0 ∉ tag) (hp : 0 ∈ fill p) :
    ∃ ok, (strstr tag (fill p)).map (·.isSome) = some ok ∧ (ok = true → Has tag p) := by
  obtain ⟨s, hs⟩ := strstr_ok tag hp
  rw [hs]
  refine ⟨s.isSome, rfl, fun h => ?_⟩
  obtain ⟨s, rfl⟩ := Option.isSome_iff_exists.mp h
  exact has_of_strstr hs (strstr_found hs).1 htag

theorem hasBoth_ok {first second : Bytes} (hfirst : 0 ∉ first) (hsecond : 0 ∉ second)
    (hp : 0 ∈ fill p) :
    ∃ ok, hasBoth first second (fill p) = some ok ∧ (ok = true → Has first p ∧ Has second p) := by
  obtain ⟨s, hs⟩ := strstr_ok first hp
  rw [hasBoth, hs]
  cases s with
  | none => exact ⟨false, rfl, nofun⟩
  | some s =>
    obtain ⟨ok, hok, himp⟩ := marked_ok hsecond hp
    exact ⟨ok, hok, fun h => ⟨has_of_strstr hs (strstr_found hs).1 hfirst, himp h⟩⟩

theorem slValidateServerInfo_ok {o : Opts} (hp : 0 ∈ fill p)
    (hok : AnswerOk o .firstStreamSent (fill p)) :
    ∃ ok, slValidateServerInfo o.domain (fill p) = some ok ∧ (ok = true → HeaderFrom o.domain p) := by
  obtain ⟨h0, hfrom⟩ := hok
  obtain ⟨s, hs⟩ := strstr_ok streamTag hp
  rw [slValidateServerInfo, hs]
  cases s with
  | none => exact ⟨false, rfl, nofun⟩
  | some s =>
    obtain ⟨t, ht, quote, value, rest, htext, hv0, hdomain⟩ := hfrom s hs
    have hdrop : t.drop 6 = value ++ quote :: rest := by
      rw [show 6 = 5 + 1 from rfl, ← List.drop_drop, htext, List.drop_one, List.tail_cons]
    have hpre := (strstr_found ht).1
    have htake : t = fromTag ++ quote :: (value ++ quote :: rest) := by
      obtain ⟨r, rfl⟩ := hpre
      rw [← htext]
      rfl
    have hzero : 0 ∈ t.drop 6 := by
      have h := strstr_zero ht hp
      rw [htake] at h
      rw [hdrop]
      rw [List.mem_cons, not_or] at hv0
      exact (List.mem_cons.mp ((List.mem_append.mp h).resolve_left tags_no_zero.2.1)).resolve_left hv0.1
    obtain ⟨ok, hcmp⟩ := Option.isSome_iff_exists.mp (strncmpEq_isSome hzero h0)
    rw [ht]
    refine ⟨ok, hcmp, ?_⟩
    rintro rfl
    have hvalue := hdomain (hdrop ▸ strncmpEq_begins h0 hcmp)
    subst hvalue
    refine ⟨has_of_strstr hs (strstr_found hs).1 tags_no_zero.1, quote, ?_⟩
    refine has_of_strstr ht ⟨rest, ?_⟩ ?_
    · rw [htake]
      simp
    · rw [List.mem_cons, not_or] at hv0
      simp only [List.mem_append, List.mem_cons, List.not_mem_nil, or_false, not_or]
      exact ⟨tags_no_zero.2.1, hv0.1, h0, hv0.1⟩

theorem slBindingConfigure_ok {o : Opts} (myJid : Bytes) (hp : 0 ∈ fill p)
    (hok : AnswerOk o .bindConfigRecv (fill p)) :
    ∃ r, slBindingConfigure myJid (fill p) = some r ∧
      ∀ myJid', r = some myJid' → CarriesJid myJid' p := by
  obtain ⟨both, hboth, hhas⟩ := hasBoth_ok (p := p) tags_no_zero.2.2.2.2.1 tags_no_zero.2.2.2.2.2.1 hp
  obtain ⟨t, ht⟩ := strstr_ok jidTag hp
  rw [slBindingConfigure, hboth]
  cases both with
  | false => exact ⟨none, rfl, nofun⟩
  | true =>
    dsimp only
    rw [ht]
    cases t with
    | none => exact ⟨none, rfl, nofun⟩
    | some t =>
      obtain ⟨jid, rest, htext, hstop, hroom⟩ := hok hboth t ht
      dsimp only
      rw [htext, copyUntil_eq hstop (Nat.le_of_lt hroom)]
      dsimp only
      rw [if_pos hroom]
      refine ⟨_, rfl, fun myJid' h => ?_⟩
      cases h
      refine ⟨(hhas rfl).1, (hhas rfl).2, jid, ?_, ⟨_, rfl⟩⟩
      have htake : t = jidTag ++ (jid ++ 0x3C :: rest) := by
        obtain ⟨r, rfl⟩ := (strstr_found ht).1
        rw [← htext]
        rfl
      have hin : jidTag ++ (jid ++ [0x3C]) <:+: fill p := by
        refine List.IsInfix.trans ?_ (strstr_found ht).2.isInfix
        rw [htake]
        exact ⟨[], rest, by simp⟩
      rw [fill_eq, ← List.append_assoc] at hin
      rw [← List.append_assoc]
      exact infix_of_zeros (by decide) _ hin

theorem ItemsOk.loop {buf : Bytes} (h : ItemsOk buf) : ∀ {fuel : Nat} (rosterJid : Bytes),
    buf.length ≤ fuel → ∃ next, strstr itemTag buf = some next ∧
      (rosterLoop fuel rosterJid next).isSome := by
  induction h with
  | none hs =>
    intro fuel rosterJid _
    refine ⟨Option.none, hs, ?_⟩
    cases fuel <;> rfl
  | @item buf pJid jid rest hs hdrop hstop hne hroom _ ih =>
    intro fuel rosterJid hfuel
    refine ⟨some pJid, hs, ?_⟩
    have hlen := congrArg List.length hdrop
    rw [List.length_drop, List.length_append] at hlen
    have hle := (strstr_found hs).2.length_le
    have hpos := List.length_pos_of_ne_nil hne
    rw [List.length_cons] at hlen ih
    cases fuel with
    | zero => omega
    | succ fuel =>
      obtain ⟨next, hnext, hrun⟩ := @ih fuel (overwrite rosterJid (jid.dropLast ++ [0])) (by omega)
      rw [rosterLoop, hdrop, copyUntil_eq hstop hroom]
      dsimp only
      rw [if_neg hne, hnext]
      exact hrun

theorem slValidateRoster_ok {o : Opts} (rosterJid : Bytes) (hp : 0 ∈ fill p)
    (hok : AnswerOk o .rosterResponse (fill p)) :
    ∃ r, slValidateRoster rosterJid (fill p) = some r ∧
      (r.isSome → Has rosterTag p ∧ Has rosterId p) := by
  obtain ⟨both, hboth, hhas⟩ :=
    hasBoth_ok (p := p) tags_no_zero.2.2.2.2.2.2.2.1 tags_no_zero.2.2.2.2.2.2.2.2 hp
  rw [slValidateRoster, hboth]
  cases both with
  | false => exact ⟨none, rfl, nofun⟩
  | true =>
    obtain ⟨next, hnext, hrun⟩ := (hok hboth).loop rosterJid (Nat.le_refl _)
    obtain ⟨rosterJid', hrun⟩ := Option.isSome_iff_exists.mp hrun
    dsimp only
    rw [hnext]
    dsimp only
    rw [hrun]
    exact ⟨some rosterJid', rfl, fun _ => hhas rfl⟩

end Validators

/-! ## The state machine -/

theorem Follows.nil (log : List Ev) : Follows [] log := ⟨[], List.nil_sublist _, .nil⟩

theorem Follows.mono {steps : List (Ev → Prop)} {log : List Ev} (h : Follows steps log)
    (l : List Ev) : Follows steps (log ++ l) := by
  obtain ⟨es, hsub, hall⟩ := h
  exact ⟨es, hsub.trans (List.sublist_append_left log l), hall⟩

theorem Follows.snoc {steps : List (Ev → Prop)} {log : List Ev} {P : Ev → Prop} {e : Ev}
    (h : Follows steps log) (he : P e) : Follows (steps ++ [P]) (log ++ [e]) := by
  obtain ⟨es, hsub, hall⟩ := h
  exact ⟨es ++ [e], hsub.append (List.Sublist.refl _), List.rel_append hall (.cons he .nil)⟩

/-- How many steps of the handshake a state has behind it. -/
def stage : XmppStatus → Nat
  | .inactive | .init => 0
  | .firstStreamSent => 1
  | .firstStreamRecv | .starttlsResponseRecv => 2
  | .authQuerySet => 3
  | .authResultRecv => 4
  | .bindFeatureRequest | .bindFeatureResponse => 5
  | .bindConfigSet => 6
  | .bindConfigRecv => 7
  | .sessionSet => 8
  | .sessionRecv => 9
  | .presenceSet | .rosterRequest => 10
  | .rosterResponse => 11
  | .connectionEstablished => 12

/-- How many rounds a state that does not wait is from a receive. -/
def quiet : XmppStatus → Nat
  | .init | .starttlsResponseRecv | .authResultRecv | .bindConfigSet | .sessionSet
  | .rosterResponse => 1
  | .firstStreamRecv | .rosterRequest => 2
  | .presenceSet => 3
  | _ => 0

/-- The steps behind a state are in the log, unless a send has failed. -/
def Progress (o : Opts) (c : Call) : Prop :=
  AllSent c.log → Follows ((handshakeSteps o.domain c.g.myJid).take (stage c.g.gXMPPStatus)) c.log

/-- What a call has between its rounds. -/
structure CallInv (o : Opts) (c : Call) : Prop where
  live : c.g.gXMPPStatus ≠ .inactive ∧ c.g.gXMPPStatus ≠ .bindFeatureRequest
  progress : Progress o c
  sock : 0 ≤ c.g.gSockID

/-- A call waits, or has ended, or is some rounds from that. -/
def Within (n : Nat) (c : Call) : Prop :=
  c.needToReceive = true ∨ c.g.gXMPPStatus = .connectionEstablished ∨
    0 < quiet c.g.gXMPPStatus ∧ quiet c.g.gXMPPStatus ≤ n

section Machine

variable {o : Opts} {c : Call}

theorem AllSent.of_append {log l : List Ev} (h : AllSent (log ++ l)) : AllSent log :=
  fun r text hr hmem => h r text hr (List.mem_append_left _ hmem)

theorem within_of_quiet {n : Nat} (next : XmppStatus) (hc : c.g.gXMPPStatus = next)
    (hn : 0 < quiet next ∧ quiet next ≤ n) : Within n c :=
  .inr (.inr (hc ▸ hn))

theorem CallInv.request (h : CallInv o c) {r : Request} {next : XmppStatus} {need : Bool}
    (text : Bytes) (hnext : next ≠ .inactive ∧ next ≠ .bindFeatureRequest)
    (hasks : r.asks = true) (hsteps : (handshakeSteps o.domain c.g.myJid).take (stage next) =
      (handshakeSteps o.domain c.g.myJid).take (stage c.g.gXMPPStatus) ++ [Sent r]) :
    CallInv o ((c.goto next need).send r text) := by
  refine ⟨hnext, fun hall => ?_, h.sock⟩
  refine (congrArg (Follows · _) hsteps).mpr ((h.progress hall.of_append).snoc ⟨cString text, ?_⟩)
  cases hr : c.refuses r with
  | false => rw [Call.goto, hr]; rfl
  | true =>
    refine absurd ?_ (hall r (cString text) hasks)
    rw [Call.send, Call.goto, hr]
    exact List.mem_append_right _ List.mem_cons_self

theorem CallInv.silent (h : CallInv o c) {next : XmppStatus} {need : Bool}
    (hnext : next ≠ .inactive ∧ next ≠ .bindFeatureRequest)
    (hstage : stage next = stage c.g.gXMPPStatus) : CallInv o (c.goto next need) := by
  refine ⟨hnext, ?_, h.sock⟩
  unfold Progress
  dsimp only [Call.goto]
  rw [hstage]
  exact h.progress

theorem CallInv.waits (h : CallInv o c) (need : Bool) : CallInv o { c with needToReceive := need } :=
  ⟨h.live, h.progress, h.sock⟩

theorem CallInv.extra (h : CallInv o c) (r : Request) (text : Bytes) : CallInv o (c.send r text) :=
  ⟨h.live, fun hall => (h.progress hall.of_append).mono _, h.sock⟩

theorem smSwitch_quiet {n : Nat} (h : CallInv o c)
    (hpos : 0 < quiet c.g.gXMPPStatus) (hn : quiet c.g.gXMPPStatus ≤ n + 1) :
    ∃ c', smSwitch o zeros c = some c' ∧ CallInv o c' ∧ Within n c' ∧
      c'.g.gXMPPStatus ≠ .connectionEstablished := by
  unfold smSwitch
  cases hst : c.g.gXMPPStatus with
  | init =>
    exact ⟨_, rfl, h.request _ (by decide) rfl (by rw [hst]; rfl), .inl rfl, nofun⟩
  | starttlsResponseRecv =>
    exact ⟨_, rfl, h.request _ (by decide) rfl (by rw [hst]; rfl), .inl rfl, nofun⟩
  | authResultRecv =>
    exact ⟨_, rfl, h.request _ (by decide) rfl (by rw [hst]; rfl), .inl rfl, nofun⟩
  | bindConfigSet =>
    exact ⟨_, rfl, h.request _ (by decide) rfl (by rw [hst]; rfl), .inl rfl, nofun⟩
  | sessionSet =>
    exact ⟨_, rfl, h.request _ (by decide) rfl (by rw [hst]; rfl), .inl rfl, nofun⟩
  | firstStreamRecv =>
    rw [hst] at hn
    exact ⟨_, rfl, h.silent (by decide) (by rw [hst]; rfl),
      .inr (.inr ⟨Nat.one_pos, Nat.le_of_succ_le_succ hn⟩), nofun⟩
  | presenceSet =>
    rw [hst] at hn
    refine ⟨_, rfl, (h.silent (by decide) ?_).extra _ _,
      .inr (.inr ⟨Nat.two_pos, Nat.le_of_succ_le_succ hn⟩), nofun⟩
    rw [hst]
    rfl
  | rosterRequest =>
    rw [hst] at hn
    exact ⟨_, rfl, h.request _ (by decide) rfl (by rw [hst]; rfl),
      .inr (.inr ⟨Nat.one_pos, Nat.le_of_succ_le_succ hn⟩), nofun⟩
  | rosterResponse =>
    have hempty : slValidateRoster c.g.rosterJid zeros = some none := by
      rw [slValidateRoster, hasBoth, strstr_zeros (by decide)]
    dsimp only
    rw [hempty]
    refine ⟨_, rfl, (h.waits true).extra _ _, .inl rfl, fun he => ?_⟩
    cases hst.symm.trans he
  | _ => rw [hst] at hpos; cases hpos

theorem settle_ok (n : Nat) : ∀ {c : Call}, CallInv o c → Within n c →
    ∃ c', settle o n c = some c' ∧ CallInv o c' ∧
      (c'.g.gXMPPStatus = .connectionEstablished → c' = c) := by
  induction n with
  | zero =>
    intro c h hw
    rcases hw with hw | hw | ⟨hpos, hle⟩
    · exact ⟨c, by rw [settle, if_pos (.inr hw)], h, fun _ => rfl⟩
    · exact ⟨c, by rw [settle, if_pos (.inl hw)], h, fun _ => rfl⟩
    · omega
  | succ n ih =>
    intro c h hw
    by_cases hstop : c.g.gXMPPStatus = .connectionEstablished ∨ c.needToReceive = true
    · exact ⟨c, by rw [settle, if_pos hstop], h, fun _ => rfl⟩
    · rw [not_or] at hstop
      obtain ⟨hpos, hle⟩ := (hw.resolve_left hstop.2).resolve_left hstop.1
      obtain ⟨c₁, hrun, h₁, hw₁, hne₁⟩ := smSwitch_quiet h hpos hle
      obtain ⟨c', hrun', h', hend⟩ := ih h₁ hw₁
      refine ⟨c', ?_, h', fun he => ?_⟩
      · rw [settle, if_neg (not_or.mpr hstop), hrun]
        exact hrun'
      · obtain rfl := hend he
        exact absurd he hne₁

def Call.got (c : Call) (p : Bytes) : Call :=
  { c with recvRetVal := p.length, log := c.log ++ [.received p] }

theorem CallInv.got (h : CallInv o c) (p : Bytes) : CallInv o (c.got p) :=
  ⟨h.live, fun hall => (h.progress hall.of_append).mono _, h.sock⟩

theorem CallInv.step (h : CallInv o c) {p : Bytes} {P : Bytes → Prop} {next : XmppStatus}
    (hp : P p) (hnext : next ≠ .inactive ∧ next ≠ .bindFeatureRequest)
    (hsteps : (handshakeSteps o.domain c.g.myJid).take (stage next) =
      (handshakeSteps o.domain c.g.myJid).take (stage c.g.gXMPPStatus) ++ [Got P]) :
    CallInv o ((c.got p).goto next false) := by
  refine ⟨hnext, fun hall => ?_, h.sock⟩
  exact (congrArg (Follows · _) hsteps).mpr ((h.progress hall.of_append).snoc ⟨p, rfl, hp⟩)

theorem answered_ok (h : CallInv o c) {p : Bytes} {P : Bytes → Prop} {next : XmppStatus}
    {valid : Option Bool} (hne : p ≠ []) (hvalid : ∃ ok, valid = some ok ∧ (ok = true → P p))
    (hnext : next ≠ .inactive ∧ next ≠ .bindFeatureRequest)
    (hsteps : (handshakeSteps o.domain c.g.myJid).take (stage next) =
      (handshakeSteps o.domain c.g.myJid).take (stage c.g.gXMPPStatus) ++ [Got P])
    (hquiet : 0 < quiet next ∧ quiet next ≤ quietRounds) :
    ∃ c', answered (c.got p) valid next = some c' ∧ CallInv o c' ∧ Within quietRounds c' ∧
      (c'.g.gXMPPStatus = .connectionEstablished → c'.log = c.log ++ [.received p]) := by
  obtain ⟨ok, rfl, hok⟩ := hvalid
  have hret : 0 < (c.got p).recvRetVal := Int.natCast_pos.mpr (List.length_pos_of_ne_nil hne)
  rw [answered, if_pos hret]
  cases ok with
  | false => exact ⟨_, rfl, (h.got p).waits true, .inl rfl, fun _ => rfl⟩
  | true => exact ⟨_, rfl, h.step (hok rfl) hnext hsteps, .inr (.inr hquiet), fun _ => rfl⟩

theorem smSwitch_received (h : CallInv o c) {p : Bytes} (hne : p ≠ []) (hp : 0 ∈ fill p)
    (hok : AnswerOk o c.g.gXMPPStatus (fill p)) :
    ∃ c', smSwitch o (fill p) (c.got p) = some c' ∧ CallInv o c' ∧ Within quietRounds c' ∧
      (c'.g.gXMPPStatus = .connectionEstablished → c'.log = c.log ++ [.received p]) := by
  have hret : 0 < (c.got p).recvRetVal := Int.natCast_pos.mpr (List.length_pos_of_ne_nil hne)
  have hgot := h.got p
  have hst' : (c.got p).g.gXMPPStatus = c.g.gXMPPStatus := rfl
  unfold smSwitch
  rw [hst']
  cases hst : c.g.gXMPPStatus with
  | inactive => exact absurd hst h.live.1
  | bindFeatureRequest => exact absurd hst h.live.2
  | init =>
    exact ⟨_, rfl, hgot.request _ (by decide) rfl (by rw [hst', hst]; rfl), .inl rfl, nofun⟩
  | starttlsResponseRecv =>
    exact ⟨_, rfl, hgot.request _ (by decide) rfl (by rw [hst', hst]; rfl), .inl rfl, nofun⟩
  | authResultRecv =>
    exact ⟨_, rfl, hgot.request _ (by decide) rfl (by rw [hst', hst]; rfl), .inl rfl, nofun⟩
  | bindConfigSet =>
    exact ⟨_, rfl, hgot.request _ (by decide) rfl (by rw [hst', hst]; rfl), .inl rfl, nofun⟩
  | sessionSet =>
    exact ⟨_, rfl, hgot.request _ (by decide) rfl (by rw [hst', hst]; rfl), .inl rfl, nofun⟩
  | firstStreamRecv =>
    exact ⟨_, rfl, hgot.silent (by decide) (by rw [hst', hst]; rfl),
      within_of_quiet .starttlsResponseRecv rfl (by decide), nofun⟩
  | presenceSet =>
    refine ⟨_, rfl, (hgot.silent (by decide) ?_).extra _ _,
      within_of_quiet .rosterRequest rfl (by decide), nofun⟩
    rw [hst', hst]
    rfl
  | rosterRequest =>
    exact ⟨_, rfl, hgot.request _ (by decide) rfl (by rw [hst', hst]; rfl),
      within_of_quiet .rosterResponse rfl (by decide), nofun⟩
  | connectionEstablished => exact ⟨_, rfl, hgot, .inr (.inl hst), fun _ => rfl⟩
  | firstStreamSent =>
    rw [hst] at hok
    exact answered_ok h hne (slValidateServerInfo_ok hp hok) (by decide) (by rw [hst]; rfl) (by decide)
  | authQuerySet =>
    exact answered_ok h hne (marked_ok tags_no_zero.2.2.1 hp) (by decide) (by rw [hst]; rfl)
      (by decide)
  | bindFeatureResponse =>
    exact answered_ok h hne (marked_ok tags_no_zero.2.2.2.1 hp) (by decide) (by rw [hst]; rfl)
      (by decide)
  | sessionRecv =>
    exact answered_ok h hne (marked_ok tags_no_zero.2.2.2.2.1 hp) (by decide) (by rw [hst]; rfl)
      (by decide)
  | bindConfigRecv =>
    rw [hst] at hok
    obtain ⟨r, hr, hjid⟩ := slBindingConfigure_ok (c.got p).g.myJid hp hok
    dsimp only
    rw [if_pos hret, hr]
    cases r with
    | none =>
      exact ⟨_, rfl, ⟨⟨nofun, nofun⟩, fun _ => Follows.nil _, h.sock⟩,
        within_of_quiet .init rfl (by decide), nofun⟩
    | some myJid =>
      refine ⟨_, rfl, ⟨⟨nofun, nofun⟩, fun hall => ?_, h.sock⟩,
        within_of_quiet .sessionSet rfl (by decide), nofun⟩
      have hprog := h.progress hall.of_append
      rw [hst] at hprog
      exact hprog.snoc (P := Got (CarriesJid myJid)) ⟨p, rfl, hjid myJid rfl⟩
  | rosterResponse =>
    rw [hst] at hok
    obtain ⟨r, hr, hhas⟩ := slValidateRoster_ok (c.got p).g.rosterJid hp hok
    dsimp only
    rw [hr]
    cases r with
    | none =>
      refine ⟨_, rfl, (hgot.waits true).extra _ _, .inl rfl, fun he => ?_⟩
      cases hst.symm.trans he
    | some rosterJid =>
      refine ⟨_, rfl, ⟨⟨nofun, nofun⟩, fun hall => ?_, h.sock⟩, .inr (.inl rfl), fun _ => rfl⟩
      have hprog := h.progress hall.of_append
      rw [hst] at hprog
      exact hprog.snoc (P := Got fun p => Has rosterTag p ∧ Has rosterId p) ⟨p, rfl, hhas rfl⟩

end Machine

/-! ## The calls -/

/-- Between two calls the state machine is at its start or at its end; a call in progress waits. -/
def ClientInv (o : Opts) (s : Client) : Prop :=
  match s.call with
  | none => s.g.gXMPPStatus = .init ∨ s.g.gXMPPStatus = .connectionEstablished
  | some c => c.g = s.g ∧ CallInv o c ∧ c.g.gXMPPStatus ≠ .connectionEstablished

section Client

variable {o : Opts} {s : Client}

def StepOk (o : Opts) (out : Client × Option Returned) : Prop :=
  ClientInv o out.1 ∧ ∀ ret, out.2 = some ret → 0 ≤ ret.value →
    ret.status = .connectionEstablished → Handshake o.domain out.1.g.myJid ret.log

theorem settled_ok {c : Call} (h : CallInv o c)
    (hsent : c.g.gXMPPStatus = .connectionEstablished → AllSent c.log) :
    StepOk o (Client.settled c) := by
  unfold Client.settled
  by_cases hdone : c.g.gXMPPStatus = .connectionEstablished
  · have : c.done = true := by rw [Call.done, hdone]; rfl
    rw [if_pos this]
    refine ⟨.inr hdone, fun ret hret _ _ => ?_⟩
    cases hret
    have hprog := h.progress (hsent hdone)
    rw [hdone] at hprog
    exact hprog
  · have : c.done = false := by simp [Call.done, hdone, h.live.1]
    rw [this, if_neg Bool.false_ne_true]
    exact ⟨⟨rfl, h, hdone⟩, nofun⟩

theorem refused_ok {g : Globals} (h : g.gXMPPStatus = .init ∨ g.gXMPPStatus = .connectionEstablished) :
    StepOk o (Client.refused g) := by
  refine ⟨h, fun ret hret hvalue => ?_⟩
  cases hret
  exact absurd hvalue (Int.not_le.mpr (by decide : (-1 : Int) < 0))

theorem connect_ok {g : Globals} {a : Attempt}
    (hg : g.gXMPPStatus = .init ∨ g.gXMPPStatus = .connectionEstablished)
    (ha : a.Opens o → g.gXMPPStatus ≠ .connectionEstablished) :
    ∃ out, slNetAppXmppConnect o g a = some out ∧ StepOk o out := by
  unfold slNetAppXmppConnect
  have href : StepOk o (Client.refused { g with gSockID := a.socket }) := refused_ok hg
  split_ifs with hset hsock hmethod hcipher hconnect
  · exact ⟨_, rfl, refused_ok hg⟩
  · exact ⟨_, rfl, href⟩
  · exact ⟨_, rfl, href⟩
  · exact ⟨_, rfl, href⟩
  · exact ⟨_, rfl, href⟩
  · have hopens : a.Opens o := by
      refine ⟨not_not.mp hset, Int.not_lt.mp hsock, Int.not_lt.mp hmethod, Int.not_lt.mp hcipher, ?_⟩
      rw [not_and_or, not_not, Int.not_lt] at hconnect
      exact hconnect
    have hinit : g.gXMPPStatus = .init := hg.resolve_right (ha hopens)
    have hlive : g.gXMPPStatus ≠ .inactive := by
      rw [hinit]
      exact nofun
    unfold slXmppConnectionSM
    dsimp only
    rw [if_neg hlive]
    have hstart : CallInv o ⟨⟨g.gXMPPStatus, generateBase64Key o, List.replicate jidSize 0,
        List.replicate jidSize 0, a.socket⟩, a.refuses, 0, false, []⟩ := by
      refine ⟨?_, fun _ => ?_, Int.not_lt.mp hsock⟩
      · dsimp only
        rw [hinit]
        exact ⟨nofun, nofun⟩
      · dsimp only
        rw [hinit]
        exact Follows.nil _
    obtain ⟨c, hrun, hc, hend⟩ :=
      settle_ok quietRounds hstart (within_of_quiet .init hinit (by decide))
    rw [hrun]
    refine ⟨_, rfl, settled_ok hc fun he => ?_⟩
    obtain rfl := hend he
    cases hinit.symm.trans he

/-- A receive within the condition; what it ends with the connection established has sent nothing. -/
theorem recv_ok {c : Call} (h : CallInv o c) (hst : c.g.gXMPPStatus ≠ .connectionEstablished)
    {p : Bytes} (hlen : p.length ≤ recvBufSize)
    (hp : 0 ∈ fill p) (hok : cString p ≠ [] → AnswerOk o c.g.gXMPPStatus (fill p)) :
    ∃ c', recvRound o c (.data p) = some c' ∧ CallInv o c' ∧
      (c'.g.gXMPPStatus = .connectionEstablished → c'.log = c.log ++ [.received p]) := by
  have hempty : isEmptyString (fill p) = some (decide ((fill p).head? = some 0)) := by
    rw [isEmptyString, if_pos hp]
  unfold recvRound
  dsimp only
  rw [List.take_of_length_le hlen, hempty]
  by_cases hhead : (fill p).head? = some 0
  · rw [decide_eq_true hhead]
    exact ⟨_, rfl, h.got p, fun he => absurd he hst⟩
  · rw [decide_eq_false hhead]
    have hne : cString p ≠ [] := by
      intro hnil
      rw [← cString_fill] at hnil
      cases hbuf : fill p with
      | nil => exact absurd (hbuf ▸ hp) List.not_mem_nil
      | cons b buf =>
        rw [hbuf] at hhead hnil
        have hb : b ≠ 0 := fun hb => hhead (congrArg some hb)
        rw [cString_cons hb] at hnil
        cases hnil
    have hpne : p ≠ [] := by
      rintro rfl
      exact hne rfl
    obtain ⟨c₁, hrun₁, hc₁, hw, hlog⟩ := smSwitch_received h hpne hp (hok hne)
    obtain ⟨c', hrun, hc', hend⟩ := settle_ok quietRounds hc₁ hw
    refine ⟨c', (congrArg (Option.bind · _) hrun₁).trans hrun, hc', fun he => ?_⟩
    obtain rfl := hend he
    exact hlog he

theorem step_ok {i : Input} (hs : ClientInv o s) (hi : XmppCond o s i) :
    ∃ out, clientStep o s i = some out ∧ StepOk o out := by
  cases i with
  | connect a =>
    unfold clientStep
    cases hc : s.call with
    | none =>
      rw [ClientInv, hc] at hs
      exact connect_ok hs (hi hc)
    | some c => exact ⟨_, rfl, hs, nofun⟩
  | recv r =>
    unfold clientStep
    cases hc : s.call with
    | none => exact ⟨_, rfl, hs, nofun⟩
    | some c =>
      rw [ClientInv, hc] at hs
      obtain ⟨hsent, p, rfl, hlen, hp, hok⟩ := hi c hc
      obtain ⟨c', hrun, hc', hlog⟩ := recv_ok hs.2.1 hs.2.2 hlen hp hok
      dsimp only
      rw [hrun]
      refine ⟨_, rfl, settled_ok hc' fun he r text hr hmem => ?_⟩
      rw [hlog he] at hmem
      exact hsent r text hr ((List.mem_append.mp hmem).resolve_right (by simp))

theorem connectOk_of_cond {i : Input} (hs : ClientInv o s) (hi : XmppCond o s i) : ConnectOk o s i := by
  obtain ⟨⟨s', r⟩, hrun, hok⟩ := step_ok hs hi
  refine ⟨s', r, hrun, hok.2, fun hcall hfail => ?_⟩
  obtain ⟨c, hc⟩ := Option.isSome_iff_exists.mp hcall
  rcases hfail with rfl | rfl
  · obtain ⟨-, p, hp, -⟩ := hi c hc
    cases hp
  · obtain ⟨-, p, hp, -⟩ := hi c hc
    cases hp

end Client

def clientStart : Client := ⟨globalsInit, none⟩

/-- In every run within the condition, every step has an outcome, a call that returns with the
connection established has had the handshake on its socket, and none is left waiting by its peer. -/
theorem xmpp_connect (o : Opts) (is : List Input)
    (h : Meets (clientStep o) (XmppCond o) clientStart is) :
    Meets (clientStep o) (ConnectOk o) clientStart is := by
  refine Meets.imp (I := ClientInv o) connectOk_of_cond ?_ (.inl rfl) h
  intro s i s' out hs hi hrun
  obtain ⟨out', hrun', hok⟩ := step_ok hs hi
  obtain rfl := Option.some.inj (hrun.symm.trans hrun')
  exact hok.1

/-- An account at `a`, and a device whose sends and calls succeed. -/
def someOpts : Opts := ⟨[0x62], [0x63], [0x61], [0x64], 0x1F⟩

def goodAttempt : Attempt := ⟨0, 0, 0, 0, fun _ => false⟩

def goodHeader : Bytes := streamTag ++ fromTag ++ [0x27, 0x61, 0x27]

theorem zero_mem_fill {p : Bytes} (h : p.length < recvBufSize) : 0 ∈ fill p := by
  rw [fill_eq, List.mem_append, List.mem_replicate]
  exact .inr ⟨by omega, rfl⟩

def goodBind : Bytes := resultWord ++ bindWord ++ jidTag ++ [0x65, 0x3C]

def goodRoster : Bytes := rosterTag ++ rosterId

def Ev.ok : Ev → Bool
  | .sent _ _ ok => ok
  | _ => true

def goodAnswer (p : Bytes) : XmppStatus → Bool
  | .firstStreamSent => p = goodHeader
  | .bindConfigRecv => p = goodBind
  | .rosterResponse => p = goodRoster
  | _ => true

/-- The condition, as far as the answers above need it. -/
def goodInput (s : Client) : Input → Bool
  | .connect _ => s.g.gXMPPStatus = .init
  | .recv .closed => false
  | .recv .failed => false
  | .recv (.data p) =>
    match s.call with
    | none => false
    | some c => c.log.all Ev.ok && decide (p.length < recvBufSize) && goodAnswer p c.g.gXMPPStatus

theorem answerOk_good {st : XmppStatus} {p : Bytes} (h : goodAnswer p st = true) :
    AnswerOk someOpts st (fill p) := by
  rw [fill_eq]
  cases st with
  | firstStreamSent =>
    obtain rfl := of_decide_eq_true h
    exact ⟨by decide, fun _ _ => ⟨_, rfl, 0x27, [0x61], _, rfl, by decide, fun _ => rfl⟩⟩
  | bindConfigRecv =>
    obtain rfl := of_decide_eq_true h
    intro _ t ht
    cases ht
    exact ⟨[0x65], _, rfl, by decide, by decide⟩
  | rosterResponse =>
    obtain rfl := of_decide_eq_true h
    exact fun _ => .none rfl
  | _ => trivial

theorem xmppCond_good {s : Client} {i : Input} (h : goodInput s i = true) : XmppCond someOpts s i := by
  cases i with
  | connect a =>
    intro _ _ hst
    rw [of_decide_eq_true h] at hst
    cases hst
  | recv r =>
    intro c hc
    cases r with
    | closed => cases h
    | failed => cases h
    | data p =>
      simp only [goodInput, hc, Bool.and_eq_true] at h
      obtain ⟨⟨hlog, hp⟩, hanswer⟩ := h
      have hp := of_decide_eq_true hp
      refine ⟨fun r text _ hmem => Bool.false_ne_true (List.all_eq_true.1 hlog _ hmem), p, rfl,
        Nat.le_of_lt hp, zero_mem_fill hp, fun _ => answerOk_good hanswer⟩

def goodRun : List Input :=
  .connect goodAttempt :: [goodHeader, successTag, bindTag, goodBind, resultWord, goodRoster].map
    fun p => .recv (.data p)

/-- The call connects and goes through the handshake. -/
theorem xmpp_connect_established :
    Meets (clientStep someOpts) (ConnectOk someOpts) clientStart goodRun ∧
      (runs (clientStep someOpts) clientStart goodRun).map (·.1.g.gXMPPStatus) =
        some .connectionEstablished := by
  have hgood : Meets (clientStep someOpts) (fun s i => goodInput s i = true) clientStart goodRun := by
    decide +kernel
  refine ⟨xmpp_connect someOpts _ (hgood.imp (I := fun _ => True) (fun _ h => xmppCond_good h)
    (fun _ _ _ => trivial) trivial), by decide +kernel⟩

/-- The peer closes while the call waits for the stream header: the call goes on waiting. -/
theorem close_not_returned : ¬ ∀ (o : Opts) (is : List Input),
    Meets (clientStep o) (ConnectOk o) clientStart is := by
  intro h
  have hclose := ((h someOpts [.connect goodAttempt, .recv .closed]).next rfl).1
  obtain ⟨s', r, hrun, -, hret⟩ := hclose
  obtain ⟨ret, rfl, -⟩ := hret rfl (.inl rfl)
  cases hrun

end SimpleLink.NetApps.Xmpp
